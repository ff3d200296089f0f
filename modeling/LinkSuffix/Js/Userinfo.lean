import LinkSuffix.Contracts.Canonical
import LinkSuffix.Js.Utf8

/-!
# Userinfo of a URL

The setters of `url.username` and `url.password`, which percent-encode the userinfo set and leave
`%` as it is, and `decodeURIComponent`.

* `decode_encodeUserinfo`: the two are inverse on exactly the texts without a percent sign.
-/

namespace LinkSuffix

/-- The userinfo percent-encode set. -/
def inUserinfoSet (c : Char) : Bool :=
  c < ' ' || '~' < c || c ∈ [' ', '\x22', '#', '<', '>', '?', '\x60', '{', '}', '/', ':', ';', '=',
    '@', '[', '\\', ']', '^', '|']

def encodeUserinfoChar (c : Char) : List Char :=
  if inUserinfoSet c then (utf8Encode c).flatMap percentEncodeByte else [c]

/-- What `url.username = value` leaves in `url.username`. -/
def encodeUserinfo (cs : List Char) : List Char := cs.flatMap encodeUserinfoChar

/-- The bytes of a percent-encoded text, where every percent sign starts an escape. -/
def escapedBytes : List Char → Option (List Nat)
  | '%' :: a :: b :: cs => do
    let x ← hexValue a
    let y ← hexValue b
    let bytes ← escapedBytes cs
    return (16 * x + y) :: bytes
  | '%' :: _ => none
  | c :: cs => (escapedBytes cs).map (utf8Encode c ++ ·)
  | [] => some []

/-- `decodeURIComponent(text)`, where it does not throw: the bytes must be UTF-8. -/
def decodeURIComponent (cs : List Char) : Option (List Char) :=
  match escapedBytes cs with
  | none => none
  | some bytes =>
    let text := utf8Decode .initial bytes
    if utf8Bytes text = bytes then some text else none

/-- `encodeURIComponent(text)`. -/
def encodeURIComponent (cs : List Char) : List Char :=
  cs.flatMap fun c =>
    if c.isAlphanum || c ∈ ['-', '_', '.', '!', '~', '*', '\x27', '(', ')'] then [c]
    else (utf8Encode c).flatMap percentEncodeByte

example : decodeURIComponent (encodeUserinfo "p@ss é".toList) = some "p@ss é".toList := by
  decide +kernel

/-! ## The text of a percent-encoded text -/

theorem escapedBytes_char {c : Char} (h : c ≠ '%') (cs : List Char) :
    escapedBytes (c :: cs) = (escapedBytes cs).map (utf8Encode c ++ ·) := by
  rw [escapedBytes]
  · intro a b cs' hc
    exact absurd hc h
  · exact h

theorem escapedBytes_escape {a b : Char} {x y : Nat} (ha : hexValue a = some x)
    (hb : hexValue b = some y) (cs : List Char) :
    escapedBytes ('%' :: a :: b :: cs) = (escapedBytes cs).map ((16 * x + y) :: ·) := by
  rw [escapedBytes, ha, hb]
  cases escapedBytes cs <;> rfl

theorem escapedBytes_encoded {bs : List Nat} (hbs : ∀ b ∈ bs, b < 256) (cs : List Char) :
    escapedBytes (bs.flatMap percentEncodeByte ++ cs) = (escapedBytes cs).map (bs ++ ·) := by
  induction bs with
  | nil => cases h : escapedBytes cs <;> simp [h]
  | cons b bs ih =>
    have hb := hbs b List.mem_cons_self
    have hbyte : percentEncodeByte b = ['%', upperHexDigit (b / 16), upperHexDigit (b % 16)] := rfl
    rw [List.flatMap_cons, List.append_assoc, hbyte, List.cons_append, List.cons_append, List.cons_append, List.nil_append,
      escapedBytes_escape (hexValue_upperHexDigit (by omega)) (hexValue_upperHexDigit (by omega)),
      Nat.div_add_mod, ih fun b' hb' => hbs b' (List.mem_cons_of_mem b hb')]
    cases h : escapedBytes cs <;> rfl

/-- A character other than the percent sign stands for its bytes. -/
theorem escapedBytes_userinfo {c : Char} (h : c ≠ '%') (cs : List Char) :
    escapedBytes (encodeUserinfoChar c ++ cs) = (escapedBytes cs).map (utf8Encode c ++ ·) := by
  unfold encodeUserinfoChar
  split
  · exact escapedBytes_encoded (fun b hb => utf8Encode_byte hb) cs
  · exact escapedBytes_char h cs

/-- A hexadecimal digit at the front of an encoded text stood there before. -/
theorem encodeUserinfo_hex {cs rest : List Char} {a : Char} {x : Nat}
    (h : encodeUserinfo cs = a :: rest) (ha : hexValue a = some x) :
    ∃ more, cs = a :: more ∧ rest = encodeUserinfo more ∧ utf8Encode a = [a.toNat] := by
  cases cs with
  | nil => cases h
  | cons c more =>
    have hcons : encodeUserinfo (c :: more) = encodeUserinfoChar c ++ encodeUserinfo more := rfl
    have hpercent : hexValue '%' = none := rfl
    rw [hcons] at h
    cases hset : inUserinfoSet c with
    | true =>
      obtain ⟨cs, hcs⟩ : ∃ cs, encodeUserinfoChar c = '%' :: cs := by
        unfold encodeUserinfoChar
        rw [if_pos hset]
        cases hbytes : utf8Encode c with
        | nil => exact absurd hbytes (utf8Encode_ne_nil c)
        | cons b bs => exact ⟨_, rfl⟩
      rw [hcs] at h
      rw [← (List.cons.inj h).1, hpercent] at ha
      cases ha
    | false =>
      have hkept : encodeUserinfoChar c = [c] := by
        unfold encodeUserinfoChar
        rw [hset]
        rfl
      rw [hkept] at h
      obtain ⟨rfl, rfl⟩ := List.cons.inj h
      refine ⟨more, rfl, rfl, utf8Encode_ascii ?_⟩
      have hrange := hexValue_range ha
      omega

theorem escapedBytes_percent {cs : List Char} {bytes : List Nat}
    (h : escapedBytes ('%' :: cs) = some bytes) :
    ∃ a b x y rest more, cs = a :: b :: rest ∧ hexValue a = some x ∧ hexValue b = some y ∧
      escapedBytes rest = some more ∧ bytes = (16 * x + y) :: more := by
  match cs, h with
  | [], h => cases h
  | [a], h => cases h
  | a :: b :: rest, h =>
    cases ha : hexValue a with
    | none =>
      rw [escapedBytes, ha] at h
      cases h
    | some x =>
      cases hb : hexValue b with
      | none =>
        rw [escapedBytes, ha, hb] at h
        cases h
      | some y =>
        rw [escapedBytes_escape ha hb] at h
        obtain ⟨more, hmore, rfl⟩ := Option.map_eq_some_iff.mp h
        exact ⟨a, b, x, y, rest, more, rfl, ha, hb, hmore, rfl⟩

theorem utf8Bytes_cons (c : Char) (cs : List Char) :
    utf8Bytes (c :: cs) = utf8Encode c ++ utf8Bytes cs := rfl

/-- Each percent sign of a text takes the two characters after it for its escape. The induction is
on the length, since an escape takes three characters at once. -/
theorem escapedBytes_length {cs : List Char} {bytes : List Nat}
    (h : escapedBytes (encodeUserinfo cs) = some bytes) :
    bytes.length + 2 * cs.count '%' = (utf8Bytes cs).length := by
  induction hlength : cs.length using Nat.strongRecOn generalizing cs bytes with
  | ind n ih =>
    cases cs with
    | nil =>
      cases h
      rfl
    | cons c cs =>
      rw [List.length_cons] at hlength
      by_cases hc : c = '%'
      · subst hc
        obtain ⟨a, b, x, y, rest, more, hrest, ha, hb, hmore, rfl⟩ := escapedBytes_percent h
        obtain ⟨tail, rfl, htail, haBytes⟩ := encodeUserinfo_hex hrest ha
        obtain ⟨last, rfl, rfl, hbBytes⟩ := encodeUserinfo_hex htail.symm hb
        have hne {d : Char} {z : Nat} (hd : hexValue d = some z) : d ≠ '%' := by
          rintro rfl
          cases hd
        rw [List.length_cons, List.length_cons] at hlength
        have hlast := ih last.length (by omega) hmore rfl
        rw [utf8Bytes_cons, utf8Bytes_cons, utf8Bytes_cons, haBytes, hbBytes,
          utf8Encode_ascii (c := '%') (by decide), List.count_cons_self,
          List.count_cons_of_ne (hne ha), List.count_cons_of_ne (hne hb)]
        simp only [List.length_append, List.length_cons, List.length_nil]
        omega
      · rw [show encodeUserinfo (c :: cs) = encodeUserinfoChar c ++ encodeUserinfo cs from rfl,
          escapedBytes_userinfo hc] at h
        obtain ⟨more, hmore, rfl⟩ := Option.map_eq_some_iff.mp h
        have hrest := ih cs.length (by omega) hmore rfl
        rw [utf8Bytes_cons, List.count_cons_of_ne hc, List.length_append, List.length_append]
        omega

/-- A text without a percent sign stands for its bytes. -/
theorem escapedBytes_plain {cs : List Char} (h : '%' ∉ cs) :
    escapedBytes (encodeUserinfo cs) = some (utf8Bytes cs) := by
  induction cs with
  | nil => rfl
  | cons c cs ih =>
    obtain ⟨hc, hcs⟩ := List.ne_and_not_mem_of_not_mem_cons h
    rw [show encodeUserinfo (c :: cs) = encodeUserinfoChar c ++ encodeUserinfo cs from rfl,
      escapedBytes_userinfo (Ne.symm hc), ih hcs]
    rfl

/-- **What the setters encode is decoded to itself exactly where it has no percent sign.** -/
theorem decode_encodeUserinfo (cs : List Char) :
    decodeURIComponent (encodeUserinfo cs) = some cs ↔ '%' ∉ cs := by
  unfold decodeURIComponent
  constructor
  · intro h
    cases hbytes : escapedBytes (encodeUserinfo cs) with
    | none =>
      rw [hbytes] at h
      cases h
    | some bytes =>
      rw [hbytes] at h
      dsimp only at h
      split at h
      · rename_i hvalid
        rw [Option.some.inj h] at hvalid
        have hlength := escapedBytes_length hbytes
        rw [← hvalid] at hlength
        exact List.count_eq_zero.mp (by omega)
      · cases h
  · intro h
    rw [escapedBytes_plain h]
    dsimp only
    rw [utf8Decode_bytes, if_pos rfl]

end LinkSuffix
