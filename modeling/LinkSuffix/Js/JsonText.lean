import LinkSuffix.Js.Json
import LinkSuffix.Js.Numeral
import LinkSuffix.Js.Utf8

/-!
# JSON texts

`JSON.stringify(value, null, gap)` and `JSON.parse` on texts. Reading back what was written gives
`JsValue.json` of the value (`parseJson_stringify`), compact or indented. Left out: lone surrogates,
which read as U+FFFD, and the order an engine gives to fields named by integers.
-/

namespace LinkSuffix

/-! ## Writing -/

def lowerHexDigit (n : Nat) : Char := if n < 10 then Char.ofNat (48 + n) else Char.ofNat (87 + n)

/-- A character inside quotes. -/
def quoteChar (c : Char) : List Char :=
  if c = '\x08' then ['\\', 'b']
  else if c = '\t' then ['\\', 't']
  else if c = '\n' then ['\\', 'n']
  else if c = '\x0c' then ['\\', 'f']
  else if c = '\r' then ['\\', 'r']
  else if c = '\x22' then ['\\', '\x22']
  else if c = '\\' then ['\\', '\\']
  else if c.toNat < 0x20 then
    ['\\', 'u', '0', '0', lowerHexDigit (c.toNat / 16), lowerHexDigit (c.toNat % 16)]
  else [c]

def quote (text : String) : List Char := '\x22' :: text.toList.flatMap quoteChar ++ ['\x22']

/-- A new line at an indentation, when the text is laid out in lines. -/
def newline (gap indent : Nat) : List Char :=
  if gap = 0 then [] else '\n' :: List.replicate indent ' '

/-- The parts of an array or object after its opening bracket. -/
def joined (gap indent : Nat) (closing : Char) : List (List Char) → List Char
  | [] => newline gap indent ++ [closing]
  | part :: parts => ',' :: newline gap (indent + gap) ++ part ++ joined gap indent closing parts

def enclose (gap indent : Nat) (opening closing : Char) : List (List Char) → List Char
  | [] => [opening, closing]
  | part :: parts =>
    opening :: newline gap (indent + gap) ++ part ++ joined gap indent closing parts

namespace JsValue

mutual

/-- A value inside a JSON text. -/
def jsonText (gap indent : Nat) : JsValue → List Char
  | .undefined => "null".toList
  | .null => "null".toList
  | .bool value => if value then "true".toList else "false".toList
  | .number value => if value.isFinite then value.toText.toList else "null".toList
  | .string value => quote value
  | .array items => enclose gap indent '[' ']' (jsonItemTexts gap (indent + gap) items)
  | .object fields => enclose gap indent '{' '}' (jsonFieldTexts gap (indent + gap) fields)

def jsonItemTexts (gap indent : Nat) : List JsValue → List (List Char)
  | [] => []
  | item :: items => jsonText gap indent item :: jsonItemTexts gap indent items

def jsonFieldTexts (gap indent : Nat) : List (String × JsValue) → List (List Char)
  | [] => []
  | (_, .undefined) :: fields => jsonFieldTexts gap indent fields
  | (name, value) :: fields =>
    (quote name ++ ':' :: (if gap = 0 then [] else [' ']) ++ jsonText gap indent value) ::
      jsonFieldTexts gap indent fields

end

end JsValue

/-- `JSON.stringify(value, null, gap)`. -/
def stringify (gap : Nat) : JsValue → Option (List Char)
  | .undefined => none
  | value => some (value.jsonText gap 0)

/-! ## Reading -/

def isJsonSpace (c : Char) : Bool := c ∈ [' ', '\t', '\n', '\r']

def skipSpace (cs : List Char) : List Char := cs.dropWhile isJsonSpace

/-- The character a backslash and a letter stand for. -/
def unescape (c : Char) : Option Char :=
  if c = 'b' then some '\x08'
  else if c = 't' then some '\t'
  else if c = 'n' then some '\n'
  else if c = 'f' then some '\x0c'
  else if c = 'r' then some '\r'
  else if c ∈ ['\x22', '\\', '/'] then some c
  else none

/-- The code points and escaped code units up to the closing quote, and what follows it. -/
def readUnits : List Char → Option (List Nat × List Char)
  | [] => none
  | '\x22' :: rest => some ([], rest)
  | '\\' :: 'u' :: a :: b :: c :: d :: cs => do
    let a ← hexValue a
    let b ← hexValue b
    let c ← hexValue c
    let d ← hexValue d
    let (units, rest) ← readUnits cs
    return ((((a * 16 + b) * 16 + c) * 16 + d) :: units, rest)
  | '\\' :: c :: cs => do
    let c ← unescape c
    let (units, rest) ← readUnits cs
    return (c.toNat :: units, rest)
  | c :: cs =>
    if c.toNat < 0x20 then none
    else (readUnits cs).map fun (units, rest) => (c.toNat :: units, rest)

/-- The text of code units; a surrogate without its pair is U+FFFD. -/
def ofUnits : List Nat → List Char
  | [] => []
  | [unit] => [Char.ofNat (if 0xD800 ≤ unit ∧ unit ≤ 0xDFFF then 0xFFFD else unit)]
  | high :: low :: units =>
    if 0xD800 ≤ high ∧ high ≤ 0xDBFF ∧ 0xDC00 ≤ low ∧ low ≤ 0xDFFF then
      Char.ofNat (0x10000 + (high - 0xD800) * 0x400 + (low - 0xDC00)) :: ofUnits units
    else
      Char.ofNat (if 0xD800 ≤ high ∧ high ≤ 0xDFFF then 0xFFFD else high) :: ofUnits (low :: units)

/-- A string after its opening quote. -/
def readString (cs : List Char) : Option (String × List Char) :=
  (readUnits cs).map fun (units, rest) => (String.ofList (ofUnits units), rest)

mutual

/-- A value and what follows it; the fuel bounds the nesting and the items of an array. -/
def readValue : Nat → List Char → Option (JsValue × List Char)
  | 0, _ => none
  | fuel + 1, cs =>
    match skipSpace cs with
    | '\x22' :: cs => (readString cs).map fun (text, rest) => (.string text, rest)
    | '[' :: cs =>
      match skipSpace cs with
      | ']' :: rest => some (.array [], rest)
      | cs => (readItems fuel cs).map fun (items, rest) => (.array items, rest)
    | '{' :: cs =>
      match skipSpace cs with
      | '}' :: rest => some (.object [], rest)
      | cs => (readFields fuel cs).map fun (fields, rest) => (.object (JsValue.spread [] fields), rest)
    | 't' :: 'r' :: 'u' :: 'e' :: rest => some (.bool true, rest)
    | 'f' :: 'a' :: 'l' :: 's' :: 'e' :: rest => some (.bool false, rest)
    | 'n' :: 'u' :: 'l' :: 'l' :: rest => some (.null, rest)
    | cs => (readNumber cs).map fun (value, rest) => (.number (.finite value), rest)

/-- The items of an array, up to its closing bracket. -/
def readItems : Nat → List Char → Option (List JsValue × List Char)
  | 0, _ => none
  | fuel + 1, cs => do
    let (item, cs) ← readValue fuel cs
    match skipSpace cs with
    | ',' :: cs =>
      let (items, rest) ← readItems fuel cs
      return (item :: items, rest)
    | ']' :: rest => return ([item], rest)
    | _ => none

/-- The fields of an object, up to its closing bracket. -/
def readFields : Nat → List Char → Option (List (String × JsValue) × List Char)
  | 0, _ => none
  | fuel + 1, cs =>
    match skipSpace cs with
    | '\x22' :: cs => do
      let (name, cs) ← readString cs
      match skipSpace cs with
      | ':' :: cs =>
        let (value, cs) ← readValue fuel cs
        match skipSpace cs with
        | ',' :: cs =>
          let (fields, rest) ← readFields fuel cs
          return ((name, value) :: fields, rest)
        | '}' :: rest => return ([(name, value)], rest)
        | _ => none
      | _ => none
    | _ => none

end

/-- `JSON.parse(text)`. -/
def parseJson (cs : List Char) : Option JsValue :=
  match readValue (2 * cs.length + 1) cs with
  | some (value, rest) => if skipSpace rest = [] then some value else none
  | none => none

example : (stringify 0 (.array [.bool true, .string "a\n", .null])).bind parseJson =
    some (.array [.bool true, .string "a\n", .null]) := by rfl

/-! ## Strings read back -/

theorem hexValue_lowerHexDigit : ∀ n < 16, hexValue (lowerHexDigit n) = some n := by decide

theorem readUnits_escape {letter c : Char} (hletter : letter ≠ 'u')
    (hc : unescape letter = some c) (cs : List Char) :
    readUnits ('\\' :: letter :: cs) =
      (readUnits cs).map fun (units, rest) => (c.toNat :: units, rest) := by
  cases h : readUnits cs <;> simp [readUnits, hletter, hc, h]

theorem readUnits_quoteChar (c : Char) (cs : List Char) :
    readUnits (quoteChar c ++ cs) =
      (readUnits cs).map fun (units, rest) => (c.toNat :: units, rest) := by
  unfold quoteChar
  split
  · subst c
    exact readUnits_escape (by decide) rfl cs
  split
  · subst c
    exact readUnits_escape (by decide) rfl cs
  split
  · subst c
    exact readUnits_escape (by decide) rfl cs
  split
  · subst c
    exact readUnits_escape (by decide) rfl cs
  split
  · subst c
    exact readUnits_escape (by decide) rfl cs
  split
  · subst c
    exact readUnits_escape (by decide) rfl cs
  split
  · subst c
    exact readUnits_escape (by decide) rfl cs
  split
  · have hhigh := hexValue_lowerHexDigit (c.toNat / 16) (by omega)
    have hlow := hexValue_lowerHexDigit (c.toNat % 16) (by omega)
    have hzero : hexValue '0' = some 0 := rfl
    have hvalue : c.toNat / 16 * 16 + c.toNat % 16 = c.toNat := Nat.div_add_mod' c.toNat 16
    cases h : readUnits cs <;> simp [readUnits, hhigh, hlow, hzero, h, hvalue]
  · rename_i hquote hbackslash hcontrol
    rw [List.singleton_append, readUnits.eq_def]
    split <;> simp_all

theorem readUnits_quote (cs rest : List Char) :
    readUnits (cs.flatMap quoteChar ++ '\x22' :: rest) = some (cs.map Char.toNat, rest) := by
  induction cs with
  | nil => rfl
  | cons c cs ih =>
    rw [List.flatMap_cons, List.append_assoc, readUnits_quoteChar, ih]
    rfl

theorem ofUnits_toNat (cs : List Char) : ofUnits (cs.map Char.toNat) = cs := by
  have hchar (c : Char) :
      Char.ofNat (if 0xD800 ≤ c.toNat ∧ c.toNat ≤ 0xDFFF then 0xFFFD else c.toNat) = c := by
    have hrange := codePoint_range c
    rw [if_neg (by omega), Char.ofNat_toNat]
  induction cs with
  | nil => rfl
  | cons c cs ih =>
    cases cs with
    | nil => exact congrArg (· :: []) (hchar c)
    | cons d cs =>
      have hrange := codePoint_range c
      rw [List.map_cons, List.map_cons, ofUnits, if_neg (by omega), hchar c]
      exact congrArg (c :: ·) ih

/-- A string is read back from its quotes. -/
theorem readString_quote (text : String) (rest : List Char) :
    readString ((quote text).drop 1 ++ rest) = some (text, rest) := by
  have hdrop : (quote text).drop 1 ++ rest = text.toList.flatMap quoteChar ++ '\x22' :: rest := by
    simp [quote]
  unfold readString
  rw [hdrop, readUnits_quote, Option.map_some]
  dsimp only
  rw [ofUnits_toNat, String.ofList_toList]

/-! ## Values read back -/

namespace JsValue

mutual

/-- A value as an engine holds it: no object names a field twice, and numbers are decimals of at
most 1100 places. -/
def Regular : JsValue → Prop
  | .number (.finite value) => Written value
  | .array items => RegularItems items
  | .object fields => (fields.map (·.1)).Nodup ∧ RegularFields fields
  | _ => True

def RegularItems : List JsValue → Prop
  | [] => True
  | item :: items => item.Regular ∧ RegularItems items

def RegularFields : List (String × JsValue) → Prop
  | [] => True
  | (_, value) :: fields => value.Regular ∧ RegularFields fields

end

theorem jsonFields_names (fields : List (String × JsValue)) :
    ((jsonFields fields).map (·.1)).Sublist (fields.map (·.1)) := by
  induction fields with
  | nil => exact List.Sublist.refl _
  | cons field fields ih =>
    obtain ⟨name, value⟩ := field
    rcases jsonFields_cons name value fields with ⟨heq, -⟩ | ⟨heq, -⟩
    · rw [heq]
      exact ih.cons _
    · rw [heq]
      exact ih.cons_cons _

theorem spread_append {fields more : List (String × JsValue)}
    (h : ((fields ++ more).map (·.1)).Nodup) : spread fields more = fields ++ more := by
  induction more generalizing fields with
  | nil => exact (List.append_nil fields).symm
  | cons field more ih =>
    have hnew : field.1 ∉ fields.map (·.1) := by
      rw [List.map_append, List.map_cons] at h
      exact fun hmem => List.disjoint_of_nodup_append h hmem List.mem_cons_self
    have hassoc : fields ++ field :: more = fields ++ [field] ++ more := by simp
    rw [hassoc] at h ⊢
    calc spread fields (field :: more) = spread (fields ++ [field]) more :=
          congrArg (List.foldl _ · more) (if_neg hnew)
      _ = fields ++ [field] ++ more := ih h

end JsValue

theorem skipSpace_append {space cs : List Char} (h : ∀ c ∈ space, isJsonSpace c = true) :
    skipSpace (space ++ cs) = skipSpace cs := List.dropWhile_append_of_pos h

theorem skipSpace_cons {c : Char} (h : isJsonSpace c = false) (cs : List Char) :
    skipSpace (c :: cs) = c :: cs := List.dropWhile_cons_of_neg (by rw [h]; simp)

theorem newline_space (gap indent : Nat) : ∀ c ∈ newline gap indent, isJsonSpace c = true := by
  intro c hc
  unfold newline at hc
  split at hc
  · cases hc
  · rcases List.mem_cons.mp hc with rfl | hc
    · rfl
    · rw [List.eq_of_mem_replicate hc]
      rfl

/-- What follows a value in an array or object ends a number. -/
theorem endsNumeral_joined (gap indent : Nat) {closing : Char} (hclosing : isNumeralChar closing = false)
    (parts : List (List Char)) (rest : List Char) :
    EndsNumeral (joined gap indent closing parts ++ rest) := by
  intro c hc
  cases parts with
  | nil =>
    unfold joined newline at hc
    split at hc
    · cases hc
      exact hclosing
    · cases hc
      rfl
  | cons part parts =>
    cases hc
    rfl

theorem joined_length (gap indent : Nat) (closing : Char) (parts : List (List Char)) :
    1 ≤ (joined gap indent closing parts).length := by
  cases parts with
  | nil => simp [joined]
  | cons part parts => simp [joined]

/-- No text of a value starts with a space or a closing bracket. -/
theorem jsonText_head (gap indent : Nat) (value : JsValue) (h : value.Regular) :
    ∃ c cs, value.jsonText gap indent = c :: cs ∧ isJsonSpace c = false ∧ c ≠ ']' ∧ c ≠ '}' := by
  have hnull : ∃ c cs, "null".toList = c :: cs ∧ isJsonSpace c = false ∧ c ≠ ']' ∧ c ≠ '}' :=
    ⟨'n', _, rfl, rfl, by decide, by decide⟩
  cases value with
  | undefined => exact hnull
  | null => exact hnull
  | bool value =>
    cases value with
    | false => exact ⟨'f', _, rfl, rfl, by decide, by decide⟩
    | true => exact ⟨'t', _, rfl, rfl, by decide, by decide⟩
  | number value =>
    cases value with
    | nan => exact hnull
    | infinity negative => exact hnull
    | finite value =>
      obtain ⟨c, cs, htext, hc⟩ := toText_head h
      refine ⟨c, cs, htext, ?_⟩
      rcases hc with rfl | hc
      · exact ⟨rfl, by decide, by decide⟩
      · refine ⟨?_, digit_ne hc rfl, digit_ne hc rfl⟩
        simp [isJsonSpace, digit_ne hc (d := ' ') rfl, digit_ne hc (d := '\t') rfl,
          digit_ne hc (d := '\n') rfl, digit_ne hc (d := '\r') rfl]
  | string value => exact ⟨'\x22', _, rfl, rfl, by decide, by decide⟩
  | array items =>
    rw [JsValue.jsonText]
    cases JsValue.jsonItemTexts gap (indent + gap) items with
    | nil => exact ⟨'[', _, rfl, rfl, by decide, by decide⟩
    | cons part parts => exact ⟨'[', _, rfl, rfl, by decide, by decide⟩
  | object fields =>
    rw [JsValue.jsonText]
    cases JsValue.jsonFieldTexts gap (indent + gap) fields with
    | nil => exact ⟨'{', _, rfl, rfl, by decide, by decide⟩
    | cons part parts => exact ⟨'{', _, rfl, rfl, by decide, by decide⟩

theorem readValue_number {c : Char} (hc : c = '-' ∨ c.isDigit = true) (fuel : Nat)
    (cs : List Char) : readValue (fuel + 1) (c :: cs) =
      (readNumber (c :: cs)).map fun (value, rest) => (.number (.finite value), rest) := by
  have hne {d : Char} (hd : d.isDigit = false) (hsign : d ≠ '-') : c ≠ d := by
    rcases hc with rfl | hc
    · exact Ne.symm hsign
    · exact digit_ne hc hd
  have hspace : isJsonSpace c = false := by
    simp [isJsonSpace, hne (d := ' ') rfl (by decide), hne (d := '\t') rfl (by decide),
      hne (d := '\n') rfl (by decide), hne (d := '\r') rfl (by decide)]
  rw [readValue, skipSpace_cons hspace]
  split
  · exact absurd (List.cons.inj ‹_›).1 (hne rfl (by decide))
  · exact absurd (List.cons.inj ‹_›).1 (hne rfl (by decide))
  · exact absurd (List.cons.inj ‹_›).1 (hne rfl (by decide))
  · exact absurd (List.cons.inj ‹_›).1 (hne rfl (by decide))
  · exact absurd (List.cons.inj ‹_›).1 (hne rfl (by decide))
  · exact absurd (List.cons.inj ‹_›).1 (hne rfl (by decide))
  · rfl

/-- Leading space does not matter. -/
theorem readValue_space {space : List Char} (hspace : ∀ c ∈ space, isJsonSpace c = true)
    (fuel : Nat) (cs : List Char) : readValue fuel (space ++ cs) = readValue fuel cs := by
  cases fuel with
  | zero => rfl
  | succ fuel => rw [readValue, readValue, skipSpace_append hspace]

theorem readItems_space {space : List Char} (hspace : ∀ c ∈ space, isJsonSpace c = true)
    (fuel : Nat) (cs : List Char) : readItems fuel (space ++ cs) = readItems fuel cs := by
  cases fuel with
  | zero => rfl
  | succ fuel => rw [readItems, readItems, readValue_space hspace]

theorem readFields_space {space : List Char} (hspace : ∀ c ∈ space, isJsonSpace c = true)
    (fuel : Nat) (cs : List Char) : readFields fuel (space ++ cs) = readFields fuel cs := by
  cases fuel with
  | zero => rfl
  | succ fuel => rw [readFields, readFields, skipSpace_append hspace]

/-- After a value: the next part, or the closing bracket. -/
theorem skipSpace_joined (gap indent : Nat) {closing : Char} (hclosing : isJsonSpace closing = false)
    (rest : List Char) :
    skipSpace (joined gap indent closing [] ++ rest) = closing :: rest := by
  unfold joined
  rw [List.append_assoc, skipSpace_append (newline_space gap indent)]
  exact skipSpace_cons hclosing rest

theorem readValue_string (fuel : Nat) (cs : List Char) :
    readValue (fuel + 1) ('\x22' :: cs) =
      (readString cs).map fun (text, rest) => (.string text, rest) := rfl

theorem readValue_array {fuel : Nat} {c : Char} {space cs : List Char}
    (hspace : ∀ c ∈ space, isJsonSpace c = true) (hc : isJsonSpace c = false) (hne : c ≠ ']') :
    readValue (fuel + 1) ('[' :: (space ++ c :: cs)) =
      (readItems fuel (c :: cs)).map fun (items, rest) => (.array items, rest) := by
  have hread (cs : List Char) : readValue (fuel + 1) ('[' :: cs) = match skipSpace cs with
    | ']' :: rest => some (.array [], rest)
    | cs => (readItems fuel cs).map fun (items, rest) => (.array items, rest) := rfl
  rw [hread, skipSpace_append hspace, skipSpace_cons hc]
  split
  · exact absurd (List.cons.inj ‹_›).1 hne
  · rfl

theorem readValue_object {fuel : Nat} {c : Char} {space cs : List Char}
    (hspace : ∀ c ∈ space, isJsonSpace c = true) (hc : isJsonSpace c = false) (hne : c ≠ '}') :
    readValue (fuel + 1) ('{' :: (space ++ c :: cs)) =
      (readFields fuel (c :: cs)).map fun (fields, rest) =>
        (.object (JsValue.spread [] fields), rest) := by
  have hread (cs : List Char) : readValue (fuel + 1) ('{' :: cs) = match skipSpace cs with
    | '}' :: rest => some (.object [], rest)
    | cs => (readFields fuel cs).map fun (fields, rest) =>
        (.object (JsValue.spread [] fields), rest) := rfl
  rw [hread, skipSpace_append hspace, skipSpace_cons hc]
  split
  · exact absurd (List.cons.inj ‹_›).1 hne
  · rfl

/-- An item, and the items after it. -/
theorem readItems_next {fuel gap indent : Nat} {cs rest : List Char} {item : JsValue}
    {items : List JsValue} {parts : List (List Char)}
    (hitem : readValue fuel cs = some (item, joined gap indent ']' parts ++ rest))
    (hitems : ∀ part more, parts = part :: more →
      readItems fuel (part ++ joined gap indent ']' more ++ rest) = some (items, rest))
    (hnone : parts = [] → items = []) :
    readItems (fuel + 1) cs = some (item :: items, rest) := by
  rw [readItems, hitem]
  cases parts with
  | nil =>
    rw [hnone rfl]
    show (match skipSpace (joined gap indent ']' [] ++ rest) with
      | ',' :: cs => _ | ']' :: rest => _ | _ => _) = _
    rw [skipSpace_joined gap indent rfl]
    rfl
  | cons part more =>
    have hcut : joined gap indent ']' (part :: more) ++ rest =
        ',' :: (newline gap (indent + gap) ++ (part ++ joined gap indent ']' more ++ rest)) := by
      simp [joined]
    rw [hcut]
    show (do
      let (items, rest) ← readItems fuel
        (newline gap (indent + gap) ++ (part ++ joined gap indent ']' more ++ rest))
      return (item :: items, rest)) = _
    rw [readItems_space (newline_space _ _), hitems part more rfl]
    rfl

/-- What `readFields` does after a name and its colon. -/
def readFieldValue (fuel : Nat) (name : String) (cs : List Char) :
    Option (List (String × JsValue) × List Char) := do
  let (value, cs) ← readValue fuel cs
  match skipSpace cs with
  | ',' :: cs =>
    let (fields, rest) ← readFields fuel cs
    return ((name, value) :: fields, rest)
  | '}' :: rest => return ([(name, value)], rest)
  | _ => none

/-- A field, and the fields after it. -/
theorem readFields_next {fuel gap indent : Nat} {name : String} {cs rest : List Char}
    {value : JsValue} {fields : List (String × JsValue)} {parts : List (List Char)}
    (hvalue : readValue fuel cs = some (value, joined gap indent '}' parts ++ rest))
    (hfields : ∀ part more, parts = part :: more →
      readFields fuel (part ++ joined gap indent '}' more ++ rest) = some (fields, rest))
    (hnone : parts = [] → fields = []) :
    readFields (fuel + 1) (quote name ++ ':' :: cs) = some ((name, value) :: fields, rest) := by
  have hquote : quote name ++ ':' :: cs = '\x22' :: ((quote name).drop 1 ++ ':' :: cs) := rfl
  have hread (cs : List Char) : readFields (fuel + 1) ('\x22' :: cs) = (do
      let (name, cs) ← readString cs
      match skipSpace cs with
      | ':' :: cs => readFieldValue fuel name cs
      | _ => none) := rfl
  rw [hquote, hread, readString_quote]
  show (match skipSpace (':' :: cs) with
    | ':' :: cs => readFieldValue fuel name cs
    | _ => none) = _
  rw [skipSpace_cons rfl]
  show readFieldValue fuel name cs = _
  unfold readFieldValue
  rw [hvalue]
  cases parts with
  | nil =>
    rw [hnone rfl]
    show (match skipSpace (joined gap indent '}' [] ++ rest) with
      | ',' :: cs => _ | '}' :: rest => _ | _ => _) = _
    rw [skipSpace_joined gap indent rfl]
    rfl
  | cons part more =>
    have hcut : joined gap indent '}' (part :: more) ++ rest =
        ',' :: (newline gap (indent + gap) ++ (part ++ joined gap indent '}' more ++ rest)) := by
      simp [joined]
    rw [hcut]
    show (do
      let (fields, rest) ← readFields fuel
        (newline gap (indent + gap) ++ (part ++ joined gap indent '}' more ++ rest))
      return ((name, value) :: fields, rest)) = _
    rw [readFields_space (newline_space _ _), hfields part more rfl]
    rfl

theorem jsonFieldTexts_cons (gap indent : Nat) (name : String) (value : JsValue)
    (fields : List (String × JsValue)) :
    value = .undefined ∧ JsValue.jsonFieldTexts gap indent ((name, value) :: fields) =
        JsValue.jsonFieldTexts gap indent fields ∧
      JsValue.jsonFields ((name, value) :: fields) = JsValue.jsonFields fields ∨
    JsValue.jsonFieldTexts gap indent ((name, value) :: fields) =
        (quote name ++ ':' :: (if gap = 0 then [] else [' ']) ++ value.jsonText gap indent) ::
          JsValue.jsonFieldTexts gap indent fields ∧
      JsValue.jsonFields ((name, value) :: fields) =
        (name, value.json) :: JsValue.jsonFields fields := by
  cases value with
  | undefined => exact Or.inl ⟨rfl, rfl, rfl⟩
  | null => exact Or.inr ⟨rfl, rfl⟩
  | bool value => exact Or.inr ⟨rfl, rfl⟩
  | number value => exact Or.inr ⟨rfl, rfl⟩
  | string value => exact Or.inr ⟨rfl, rfl⟩
  | array items => exact Or.inr ⟨rfl, rfl⟩
  | object fields => exact Or.inr ⟨rfl, rfl⟩

/-- The text of a field starts with its name's quote. -/
theorem jsonFieldTexts_head {gap indent : Nat} {fields : List (String × JsValue)}
    {part : List Char} {parts : List (List Char)}
    (h : JsValue.jsonFieldTexts gap indent fields = part :: parts) : ∃ cs, part = '\x22' :: cs := by
  induction fields with
  | nil => cases h
  | cons field fields ih =>
    obtain ⟨name, value⟩ := field
    rcases jsonFieldTexts_cons gap indent name value fields with ⟨-, htexts, -⟩ | ⟨htexts, -⟩
    · exact ih (htexts.symm.trans h)
    · exact ⟨_, (List.cons.inj (htexts.symm.trans h)).1.symm⟩

theorem jsonFields_eq_nil {gap indent : Nat} {fields : List (String × JsValue)}
    (h : JsValue.jsonFieldTexts gap indent fields = []) : JsValue.jsonFields fields = [] := by
  induction fields with
  | nil => rfl
  | cons field fields ih =>
    obtain ⟨name, value⟩ := field
    rcases jsonFieldTexts_cons gap indent name value fields with ⟨-, htexts, hfields⟩ | ⟨htexts, -⟩
    · rw [hfields]
      exact ih (htexts.symm.trans h)
    · rw [htexts] at h
      cases h

mutual

/-- A value is read back from its text. The induction is over the value; a part of it has a text
shorter by its brackets, which the fuel follows. -/
theorem readValue_text (gap indent : Nat) (value : JsValue) (h : value.Regular) (fuel : Nat)
    (hfuel : 2 * (value.jsonText gap indent).length < fuel) (rest : List Char)
    (hrest : EndsNumeral rest) :
    readValue fuel (value.jsonText gap indent ++ rest) = some (value.json, rest) := by
  obtain ⟨fuel, rfl⟩ : ∃ n, fuel = n + 1 := ⟨fuel - 1, by omega⟩
  cases value with
  | undefined => rfl
  | null => rfl
  | bool value => cases value <;> rfl
  | number value =>
    cases value with
    | nan => rfl
    | infinity negative => rfl
    | finite value =>
      obtain ⟨c, cs, htext, hc⟩ := toText_head h
      have hread := readNumber_text h hrest
      have hjson : (JsValue.number (.finite value)).jsonText gap indent = c :: cs := htext
      rw [htext, List.cons_append] at hread
      rw [hjson, List.cons_append, readValue_number hc, hread]
      rfl
  | string value =>
    have hquote : (JsValue.string value).jsonText gap indent ++ rest =
        '\x22' :: ((quote value).drop 1 ++ rest) := rfl
    rw [hquote, readValue_string, readString_quote]
    rfl
  | array items =>
    cases items with
    | nil => rfl
    | cons item items =>
      rw [JsValue.jsonText, JsValue.jsonItemTexts, enclose] at hfuel ⊢
      obtain ⟨c, cs, hhead, hspace, hclosing, -⟩ := jsonText_head gap (indent + gap) item h.1
      have hitems := readItems_text gap indent item items h fuel (by
        simp only [List.length_append, List.length_cons] at hfuel ⊢
        omega) rest
      rw [hhead] at hitems ⊢
      have hcut (between after : List Char) : '[' :: between ++ (c :: cs) ++ after ++ rest =
          '[' :: (between ++ c :: (cs ++ after ++ rest)) := by simp
      rw [hcut, readValue_array (newline_space _ _) hspace hclosing]
      exact congrArg (Option.map _) hitems
  | object fields =>
    obtain ⟨hnames, hfields⟩ := h
    rw [JsValue.jsonText] at hfuel ⊢
    cases hparts : JsValue.jsonFieldTexts gap (indent + gap) fields with
    | nil =>
      rw [JsValue.json, jsonFields_eq_nil hparts]
      rfl
    | cons part parts =>
      rw [hparts, enclose] at hfuel
      have hread := readFields_text gap indent fields hfields part parts hparts fuel (by
        simp only [List.length_append, List.length_cons] at hfuel ⊢
        omega) rest
      obtain ⟨cs, rfl⟩ := jsonFieldTexts_head hparts
      have hcut (between after : List Char) : '{' :: between ++ ('\x22' :: cs) ++ after ++ rest =
          '{' :: (between ++ '\x22' :: (cs ++ after ++ rest)) := by simp
      rw [enclose, hcut, readValue_object (newline_space _ _) rfl (by decide)]
      have hspread : JsValue.spread [] (JsValue.jsonFields fields) = JsValue.jsonFields fields :=
        JsValue.spread_append (hnames.sublist (JsValue.jsonFields_names fields))
      exact (congrArg (Option.map _) hread).trans
        (congrArg (fun fields => some (JsValue.object fields, rest)) hspread)
termination_by sizeOf value

theorem readItems_text (gap indent : Nat) (item : JsValue) (items : List JsValue)
    (h : JsValue.RegularItems (item :: items)) (fuel : Nat)
    (hfuel : 2 * (item.jsonText gap (indent + gap) ++ joined gap indent ']'
      (JsValue.jsonItemTexts gap (indent + gap) items)).length < fuel) (rest : List Char) :
    readItems fuel (item.jsonText gap (indent + gap) ++ joined gap indent ']'
      (JsValue.jsonItemTexts gap (indent + gap) items) ++ rest) =
      some (JsValue.jsonItems (item :: items), rest) := by
  obtain ⟨fuel, rfl⟩ : ∃ n, fuel = n + 1 := ⟨fuel - 1, by omega⟩
  have hjoined := joined_length gap indent ']' (JsValue.jsonItemTexts gap (indent + gap) items)
  rw [List.length_append] at hfuel
  have hitem := readValue_text gap (indent + gap) item h.1 fuel (by omega)
    (joined gap indent ']' (JsValue.jsonItemTexts gap (indent + gap) items) ++ rest)
    (endsNumeral_joined gap indent rfl _ rest)
  rw [List.append_assoc, JsValue.jsonItems]
  cases items with
  | nil => exact readItems_next hitem (fun _ _ hparts => nomatch hparts) fun _ => rfl
  | cons next items =>
    refine readItems_next hitem (fun part more hparts => ?_) fun hparts => nomatch hparts
    obtain ⟨rfl, rfl⟩ := List.cons.inj hparts
    refine readItems_text gap indent next items h.2 fuel ?_ rest
    simp only [JsValue.jsonItemTexts, joined, List.length_append, List.length_cons] at hfuel ⊢
    omega
termination_by sizeOf (item :: items)

theorem readFields_text (gap indent : Nat) (fields : List (String × JsValue))
    (h : JsValue.RegularFields fields) (part : List Char) (parts : List (List Char))
    (hparts : JsValue.jsonFieldTexts gap (indent + gap) fields = part :: parts) (fuel : Nat)
    (hfuel : 2 * (part ++ joined gap indent '}' parts).length < fuel) (rest : List Char) :
    readFields fuel (part ++ joined gap indent '}' parts ++ rest) =
      some (JsValue.jsonFields fields, rest) := by
  cases fields with
  | nil => cases hparts
  | cons field fields =>
    rcases jsonFieldTexts_cons gap (indent + gap) field.1 field.2 fields with
      ⟨-, htexts, hfields⟩ | ⟨htexts, hfields⟩
    · rw [hfields]
      exact readFields_text gap indent fields h.2 part parts (htexts.symm.trans hparts) fuel hfuel
        rest
    · obtain ⟨rfl, rfl⟩ := List.cons.inj (htexts.symm.trans hparts)
      obtain ⟨fuel, rfl⟩ : ∃ n, fuel = n + 1 := ⟨fuel - 1, by omega⟩
      have hjoined := joined_length gap indent '}'
        (JsValue.jsonFieldTexts gap (indent + gap) fields)
      simp only [List.length_append, List.length_cons] at hfuel
      have hvalue := readValue_text gap (indent + gap) field.2 h.1 fuel (by omega)
        (joined gap indent '}' (JsValue.jsonFieldTexts gap (indent + gap) fields) ++ rest)
        (endsNumeral_joined gap indent rfl _ rest)
      have hspace : ∀ c ∈ (if gap = 0 then [] else [' ']), isJsonSpace c = true := by
        intro c hc
        split at hc
        · cases hc
        · rw [List.mem_singleton.mp hc]
          rfl
      rw [← readValue_space hspace] at hvalue
      have hcut (space text after : List Char) : quote field.1 ++ ':' :: space ++ text ++ after ++ rest =
          quote field.1 ++ ':' :: (space ++ (text ++ (after ++ rest))) := by simp
      rw [hcut, hfields]
      refine readFields_next hvalue (fun part more hmore => ?_) jsonFields_eq_nil
      refine readFields_text gap indent fields h.2 part more hmore fuel ?_ rest
      rw [hmore] at hfuel
      simp only [joined, List.length_append, List.length_cons] at hfuel ⊢
      omega
termination_by sizeOf fields
decreasing_by
  · subst_vars
    simp
  · subst_vars
    have hsize : sizeOf field.2 < sizeOf field := by
      cases field
      simp
    simp only [List.cons.sizeOf_spec]
    omega
  · subst_vars
    simp

end

/-- **What is written as JSON is read back**, compact or indented. -/
theorem parseJson_stringify {gap : Nat} {value : JsValue} (h : value.Regular) {text : List Char}
    (htext : stringify gap value = some text) (space : List Char)
    (hspace : ∀ c ∈ space, isJsonSpace c = true) :
    parseJson (text ++ space) = some value.json := by
  have hjson : text = value.jsonText gap 0 := by
    cases value with
    | undefined => cases htext
    | null => exact (Option.some.inj htext).symm
    | bool value => exact (Option.some.inj htext).symm
    | number value => exact (Option.some.inj htext).symm
    | string value => exact (Option.some.inj htext).symm
    | array items => exact (Option.some.inj htext).symm
    | object fields => exact (Option.some.inj htext).symm
  have hends : EndsNumeral space := by
    intro c hc
    have hmem := hspace c (List.mem_of_mem_head? hc)
    have hcases : c = ' ' ∨ c = '\t' ∨ c = '\n' ∨ c = '\r' := by simpa [isJsonSpace] using hmem
    rcases hcases with rfl | rfl | rfl | rfl <;> rfl
  have hread := readValue_text gap 0 value h (2 * (text ++ space).length + 1) (by
    rw [← hjson, List.length_append]
    omega) space hends
  have hskip : skipSpace space = [] := by
    have hskip := @skipSpace_append space [] hspace
    rwa [List.append_nil] at hskip
  unfold parseJson
  rw [hjson] at hread ⊢
  rw [hread]
  exact if_pos hskip

end LinkSuffix
