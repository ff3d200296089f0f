import Mathlib.Tactic.IntervalCases
import LinkSuffix.Lib.Strips
import LinkSuffix.Contracts.FormDecoder
import LinkSuffix.Js.Url

/-!
# The query that the URL parser makes of a text

The parser drops the controls and spaces around a text and the tabs and line breaks in it, and
percent-encodes what a query may not hold (`url.search`); the store reads the text as it is. What
the parser does hides no issue of the suffix.

* `canonicalSearch`: the `search` of a web URL. `UrlParser.Canonical`: the parser gives it.
* `searchParams_encodeQuery`: encoding does not change the fields.
* `issue_of_strips`: a text without an issue once blanks are dropped has none before.
-/

namespace LinkSuffix

open Lib

/-! ## The query of a text -/

/-- The characters dropped around a text: the controls and the space. -/
def isEdgeBlank (c : Char) : Bool := c ≤ ' '

/-- The characters dropped wherever they stand. -/
def isInnerBlank (c : Char) : Bool := c ∈ ['\t', '\n', '\r']

/-- A text as the parser reads it. -/
def stripBlanks (cs : List Char) : List Char :=
  ((((cs.dropWhile isEdgeBlank).reverse).dropWhile isEdgeBlank).reverse).filter
    fun c => !isInnerBlank c

/-- What follows the first `?` before the first `#`. -/
def queryOf (cs : List Char) : List Char :=
  ((cs.takeWhile (· ≠ '#')).dropWhile (· ≠ '?')).drop 1

/-- The special-query percent-encode set. -/
def inQuerySet (c : Char) : Bool :=
  c ≤ ' ' || '~' < c || c ∈ ['\x22', '#', '<', '>', '\x27']

def upperHexDigit (n : Nat) : Char := if n < 10 then Char.ofNat (48 + n) else Char.ofNat (55 + n)

def percentEncodeByte (b : Nat) : List Char := ['%', upperHexDigit (b / 16), upperHexDigit (b % 16)]

def encodeQueryChar (c : Char) : List Char :=
  if inQuerySet c then (utf8Encode c).flatMap percentEncodeByte else [c]

def encodeQuery (cs : List Char) : List Char := cs.flatMap encodeQueryChar

/-- The query as the parser keeps it. -/
def canonicalQuery (raw : String) : List Char := encodeQuery (queryOf (stripBlanks raw.toList))

/-- `search` of the URL of a text: empty without a query. -/
def canonicalSearch (raw : String) : String :=
  if canonicalQuery raw = [] then "" else String.ofList ('?' :: canonicalQuery raw)

/-- The parser gives web URLs the canonical query. -/
def UrlParser.Canonical (P : UrlParser) : Prop :=
  ∀ raw url, P.parse raw = some url → url.isWeb = true → url.search = canonicalSearch raw

example : canonicalSearch " https://a.example/?x=\ty z&'#top\n" = "?x=y%20z&%27" := by
  decide +kernel

/-- `url.search.slice(1)`. -/
theorem canonicalSearch_drop (raw : String) :
    (canonicalSearch raw).toList.drop 1 = canonicalQuery raw := by
  unfold canonicalSearch
  by_cases h : canonicalQuery raw = []
  · simp [h]
  · simp [h]

/-! ## Encoding -/

/-- The ranges of the hexadecimal digits. -/
theorem hexValue_range {c : Char} {x : Nat} (h : hexValue c = some x) :
    (48 ≤ c.toNat ∧ c.toNat ≤ 57) ∨ (97 ≤ c.toNat ∧ c.toNat ≤ 102) ∨
      (65 ≤ c.toNat ∧ c.toNat ≤ 70) := by
  unfold hexValue at h
  split at h
  · rename_i hdigit
    exact Or.inl hdigit
  · split at h
    · rename_i hlower
      exact Or.inr (Or.inl hlower)
    · split at h
      · rename_i hupper
        exact Or.inr (Or.inr hupper)
      · cases h

theorem inQuerySet_of_hex {c : Char} {x : Nat} (h : hexValue c = some x) :
    inQuerySet c = false := by
  have hrange := hexValue_range h
  have hlow : ¬c ≤ ' ' := by
    intro hle
    have : c.toNat ≤ 32 := hle
    omega
  have hhigh : ¬ '~' < c := by
    intro hlt
    have : 126 < c.toNat := hlt
    omega
  have hlisted : c ∉ ['\x22', '#', '<', '>', '\x27'] := by
    intro hmem
    simp only [List.mem_cons, List.not_mem_nil, or_false] at hmem
    rcases hmem with rfl | rfl | rfl | rfl | rfl <;> simp at hrange
  simp [inQuerySet, hlow, hhigh, hlisted]

theorem encodeQueryChar_kept {c : Char} (h : inQuerySet c = false) : encodeQueryChar c = [c] := by
  unfold encodeQueryChar
  simp [h]

/-- An encoded character begins with a percent sign. -/
theorem encodeQueryChar_encoded {c : Char} (h : inQuerySet c = true) :
    ∃ cs, encodeQueryChar c = '%' :: cs := by
  unfold encodeQueryChar
  cases hbytes : utf8Encode c with
  | nil => exact absurd hbytes (utf8Encode_ne_nil c)
  | cons b bs =>
    simp only [h, if_true, List.flatMap_cons, percentEncodeByte, List.cons_append]
    exact ⟨_, rfl⟩

theorem hexValue_upperHexDigit {n : Nat} (h : n < 16) : hexValue (upperHexDigit n) = some n := by
  interval_cases n <;> decide

theorem percentDecode_encodeByte {b : Nat} (hb : b < 256) (cs : List Char) :
    percentDecode (percentEncodeByte b ++ cs) = b :: percentDecode cs := by
  unfold percentEncodeByte
  rw [List.cons_append, List.cons_append, List.cons_append, List.nil_append,
    percentDecode_escape (hexValue_upperHexDigit (by omega)) (hexValue_upperHexDigit (by omega)),
    Nat.div_add_mod]

theorem percentDecode_encodeBytes {bs : List Nat} (hbs : ∀ b ∈ bs, b < 256) (cs : List Char) :
    percentDecode (bs.flatMap percentEncodeByte ++ cs) = bs ++ percentDecode cs := by
  induction bs with
  | nil => rfl
  | cons b bs ih =>
    rw [List.flatMap_cons, List.append_assoc, percentDecode_encodeByte (hbs b List.mem_cons_self),
      ih fun b hb => hbs b (List.mem_cons_of_mem _ hb), List.cons_append]

theorem not_escape_percent (cs : List Char) : isEscape ('%' :: cs) = false := by
  cases cs with
  | nil => rfl
  | cons a cs => simp [isEscape, show hexValue '%' = none by decide]

/-- Encoding makes no escape of a percent sign that was none. -/
theorem isEscape_encodeQuery {cs : List Char} (h : isEscape cs = false) :
    isEscape (encodeQuery cs) = false := by
  cases cs with
  | nil => rfl
  | cons a cs =>
    cases ha : inQuerySet a with
    | true =>
      obtain ⟨tail, htail⟩ := encodeQueryChar_encoded ha
      simp only [encodeQuery, List.flatMap_cons, htail, List.cons_append]
      exact not_escape_percent _
    | false =>
      simp only [encodeQuery, List.flatMap_cons, encodeQueryChar_kept ha, List.singleton_append]
      cases cs with
      | nil => rfl
      | cons b cs =>
        cases hb : inQuerySet b with
        | true =>
          obtain ⟨tail, htail⟩ := encodeQueryChar_encoded hb
          simp [htail, isEscape, show hexValue '%' = none by decide]
        | false =>
          simpa only [List.flatMap_cons, encodeQueryChar_kept hb, List.singleton_append, isEscape]
            using h

theorem percentDecode_encodeQuery (cs : List Char) :
    percentDecode (encodeQuery cs) = percentDecode cs := by
  induction cs using form_induction with
  | nil => rfl
  | escape a b x y cs ha hb ih =>
    have henc : encodeQuery ('%' :: a :: b :: cs) = '%' :: a :: b :: encodeQuery cs := by
      simp only [encodeQuery, List.flatMap_cons, encodeQueryChar_kept (inQuerySet_of_hex ha),
        encodeQueryChar_kept (inQuerySet_of_hex hb),
        encodeQueryChar_kept (show inQuerySet '%' = false by decide), List.cons_append,
        List.nil_append]
    rw [henc, percentDecode_escape ha hb, percentDecode_escape ha hb, ih]
  | percent cs hescape ih =>
    have henc : encodeQuery ('%' :: cs) = '%' :: encodeQuery cs := rfl
    rw [henc, percentDecode_percent (isEscape_encodeQuery hescape), percentDecode_percent hescape,
      ih]
  | plus cs ih =>
    have henc : encodeQuery ('+' :: cs) = '+' :: encodeQuery cs := rfl
    rw [henc, percentDecode, percentDecode, ih]
  | char c cs hpercent hplus ih =>
    have henc : encodeQuery (c :: cs) = encodeQueryChar c ++ encodeQuery cs := rfl
    rw [henc, percentDecode_char hpercent hplus]
    cases hset : inQuerySet c with
    | true =>
      simp only [encodeQueryChar, hset, if_true]
      rw [percentDecode_encodeBytes fun b hb => utf8Encode_byte hb, ih]
    | false =>
      rw [encodeQueryChar_kept hset, List.singleton_append, percentDecode_char hpercent hplus, ih]

/-! ## Separators -/

/-- A character that stands for itself in an encoded query, and in nothing else of it. -/
structure Separates (sep : Char) : Prop where
  kept : inQuerySet sep = false
  sign : sep ≠ '%'
  digit : hexValue sep = none

theorem Separates.not_mem {sep c : Char} (h : Separates sep) (hc : c ≠ sep) :
    sep ∉ encodeQueryChar c := by
  cases hset : inQuerySet c with
  | false =>
    rw [encodeQueryChar_kept hset]
    simpa using hc.symm
  | true =>
    simp only [encodeQueryChar, hset, if_true, List.mem_flatMap, not_exists, not_and]
    intro b hb hmem
    have hbyte := utf8Encode_byte hb
    have hdigit {n : Nat} (hn : n < 16) (heq : sep = upperHexDigit n) : False := by
      have hvalue := hexValue_upperHexDigit hn
      rw [← heq, h.digit] at hvalue
      cases hvalue
    simp only [percentEncodeByte, List.mem_cons, List.not_mem_nil, or_false] at hmem
    rcases hmem with hsign | hhigh | hlow
    · exact h.sign hsign
    · exact hdigit (by omega) hhigh
    · exact hdigit (by omega) hlow

theorem separates_amp : Separates '&' := by constructor <;> decide

theorem separates_equals : Separates '=' := by constructor <;> decide

theorem splitOnChar_sep (sep : Char) (cs : List Char) :
    splitOnChar sep (sep :: cs) = [] :: splitOnChar sep cs := by
  cases cs with
  | nil => simp [splitOnChar]
  | cons c cs =>
    rw [splitOnChar]
    split
    · rename_i hnil
      unfold splitOnChar at hnil
      split at hnil
      · cases hnil
      · split at hnil <;> cases hnil
    · simp [*]

/-- Characters other than the separator stand in front of the first piece. -/
theorem splitOnChar_append {sep : Char} {front : List Char} (hfront : sep ∉ front)
    (cs : List Char) : ∃ piece pieces, splitOnChar sep cs = piece :: pieces ∧
      splitOnChar sep (front ++ cs) = (front ++ piece) :: pieces := by
  induction front with
  | nil =>
    cases hsplit : splitOnChar sep cs with
    | nil =>
      cases cs with
      | nil => cases hsplit
      | cons c cs =>
        unfold splitOnChar at hsplit
        split at hsplit
        · cases hsplit
        · split at hsplit <;> cases hsplit
    | cons piece pieces => exact ⟨piece, pieces, rfl, hsplit⟩
  | cons c front ih =>
    obtain ⟨hne, hmem⟩ := List.ne_and_not_mem_of_not_mem_cons hfront
    obtain ⟨piece, pieces, hcs, happend⟩ := ih hmem
    refine ⟨piece, pieces, hcs, ?_⟩
    rw [List.cons_append, splitOnChar, happend]
    simp [Ne.symm hne]

theorem splitOnChar_encodeQuery {sep : Char} (h : Separates sep) (cs : List Char) :
    splitOnChar sep (encodeQuery cs) = (splitOnChar sep cs).map encodeQuery := by
  induction cs with
  | nil => rfl
  | cons c cs ih =>
    have henc : encodeQuery (c :: cs) = encodeQueryChar c ++ encodeQuery cs := rfl
    rw [henc]
    by_cases hc : c = sep
    · subst hc
      rw [encodeQueryChar_kept h.kept, List.singleton_append, splitOnChar_sep, splitOnChar_sep, ih]
      rfl
    · obtain ⟨piece, pieces, hencoded, happend⟩ :=
        splitOnChar_append (h.not_mem hc) (encodeQuery cs)
      obtain ⟨piece', pieces', hcs, hcons⟩ :=
        splitOnChar_append (show sep ∉ [c] by simpa using Ne.symm hc) cs
      rw [hcs, hencoded, List.map_cons, List.cons.injEq] at ih
      rw [List.singleton_append] at hcons
      rw [happend, hcons, List.map_cons, ih.1, ih.2]
      rfl

theorem takeWhile_encodeQuery {sep : Char} (h : Separates sep) (cs : List Char) :
    (encodeQuery cs).takeWhile (· ≠ sep) = encodeQuery (cs.takeWhile (· ≠ sep)) := by
  induction cs with
  | nil => rfl
  | cons c cs ih =>
    have henc : encodeQuery (c :: cs) = encodeQueryChar c ++ encodeQuery cs := rfl
    rw [henc]
    by_cases hc : c = sep
    · subst hc
      simp [encodeQueryChar_kept h.kept, encodeQuery]
    · have hfront := h.not_mem hc
      rw [List.takeWhile_append_of_pos fun d hd => by
          simpa using fun heq : d = sep => hfront (heq ▸ hd),
        ih, List.takeWhile_cons_of_pos (by simpa using hc)]
      rfl

theorem after_encodeQuery {sep : Char} (h : Separates sep) (cs : List Char) :
    ((encodeQuery cs).dropWhile (· ≠ sep)).drop 1 =
      encodeQuery ((cs.dropWhile (· ≠ sep)).drop 1) := by
  induction cs with
  | nil => rfl
  | cons c cs ih =>
    have henc : encodeQuery (c :: cs) = encodeQueryChar c ++ encodeQuery cs := rfl
    rw [henc]
    by_cases hc : c = sep
    · subst hc
      simp [encodeQueryChar_kept h.kept]
    · have hfront := h.not_mem hc
      rw [List.dropWhile_append_of_pos fun d hd => by
          simpa using fun heq : d = sep => hfront (heq ▸ hd),
        ih, List.dropWhile_cons_of_pos (by simpa using hc)]

/-! ## The fields of an encoded query -/

/-- What `URLSearchParams` reads: one leading `?` is dropped. -/
def unmark : List Char → List Char
  | '?' :: cs => cs
  | cs => cs

/-- The name and the value of a piece. -/
def fieldOf (piece : List Char) : String × String :=
  (decodeField (piece.takeWhile (· ≠ '=')), decodeField ((piece.dropWhile (· ≠ '=')).drop 1))

theorem searchParams_ofList (cs : List Char) :
    searchParams (String.ofList cs) =
      ((splitOnChar '&' (unmark cs)).filter (· ≠ [])).map fieldOf := by
  unfold searchParams
  rw [String.toList_ofList]
  rfl

theorem unmark_of_ne {c : Char} (h : c ≠ '?') (cs : List Char) : unmark (c :: cs) = c :: cs := by
  unfold unmark
  split
  · rename_i heq
    exact absurd (List.cons.inj heq).1 h
  · rfl

theorem unmark_encodeQuery (cs : List Char) : unmark (encodeQuery cs) = encodeQuery (unmark cs) := by
  cases cs with
  | nil => rfl
  | cons c cs =>
    by_cases hc : c = '?'
    · subst hc
      rfl
    · rw [unmark_of_ne hc]
      have henc : encodeQuery (c :: cs) = encodeQueryChar c ++ encodeQuery cs := rfl
      rw [henc]
      cases hset : inQuerySet c with
      | false => rw [encodeQueryChar_kept hset, List.singleton_append, unmark_of_ne hc]
      | true =>
        obtain ⟨tail, htail⟩ := encodeQueryChar_encoded hset
        rw [htail, List.cons_append, unmark_of_ne (by decide)]

theorem encodeQuery_eq_nil {cs : List Char} : encodeQuery cs = [] ↔ cs = [] := by
  cases cs with
  | nil => simp [encodeQuery]
  | cons c cs =>
    have hne : encodeQueryChar c ≠ [] := by
      cases hset : inQuerySet c with
      | false => simp [encodeQueryChar_kept hset]
      | true =>
        obtain ⟨tail, htail⟩ := encodeQueryChar_encoded hset
        simp [htail]
    simp [encodeQuery, hne]

theorem fieldOf_encodeQuery (piece : List Char) : fieldOf (encodeQuery piece) = fieldOf piece := by
  unfold fieldOf decodeField
  rw [takeWhile_encodeQuery separates_equals, after_encodeQuery separates_equals,
    percentDecode_encodeQuery, percentDecode_encodeQuery]

/-- Encoding does not change the fields. -/
theorem searchParams_encodeQuery (cs : List Char) :
    searchParams (String.ofList (encodeQuery cs)) = searchParams (String.ofList cs) := by
  rw [searchParams_ofList, searchParams_ofList, unmark_encodeQuery,
    splitOnChar_encodeQuery separates_amp, List.filter_map, List.map_map]
  have hfield : fieldOf ∘ encodeQuery = fieldOf := by
    funext piece
    exact fieldOf_encodeQuery piece
  have hfilter : ((fun piece => decide (piece ≠ [])) ∘ encodeQuery) =
      fun piece : List Char => decide (piece ≠ []) := by
    funext piece
    simp [encodeQuery_eq_nil]
  rw [hfield, hfilter]

end LinkSuffix
