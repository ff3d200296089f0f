import LinkSuffix.Contracts.FormDecoder

/-!
# Texts as bytes

`Buffer.from(text, "utf8")` and back: the bytes of a text are read as that text
(`utf8Decode_bytes`), so two texts with the same bytes are one (`utf8Bytes_injective`).
-/

namespace LinkSuffix

/-- `Buffer.from(text, "utf8")`. -/
def utf8Bytes (cs : List Char) : List Nat := cs.flatMap utf8Encode

theorem utf8Bytes_append (cs cs' : List Char) :
    utf8Bytes (cs ++ cs') = utf8Bytes cs ++ utf8Bytes cs' := List.flatMap_append

theorem utf8Bytes_lt {cs : List Char} {b : Nat} (hb : b ∈ utf8Bytes cs) : b < 256 := by
  obtain ⟨c, -, hb⟩ := List.mem_flatMap.mp hb
  exact utf8Encode_byte hb

/-- A text of ASCII characters has a byte a character. -/
theorem utf8Bytes_ascii {cs : List Char} (h : ∀ c ∈ cs, c.toNat < 0x80) :
    (utf8Bytes cs).length = cs.length := by
  induction cs with
  | nil => rfl
  | cons c cs ih =>
    have hrest := ih fun c' hc' => h c' (List.mem_cons_of_mem c hc')
    rw [show utf8Bytes (c :: cs) = utf8Encode c ++ utf8Bytes cs from rfl,
      utf8Encode_ascii (h c List.mem_cons_self), List.length_append, hrest, List.length_cons,
      List.length_cons, List.length_nil, Nat.add_comm]

theorem codePoint_range (c : Char) :
    c.toNat < 0xD800 ∨ 0xDFFF < c.toNat ∧ c.toNat < 0x110000 := c.valid

/-- A byte in range inside a sequence. -/
theorem utf8Step_inside {st : Utf8State} {b : Nat} (hneeded : 1 < st.needed)
    (hrange : st.lower ≤ b ∧ b ≤ st.upper) :
    utf8Step st b = ([], ⟨st.needed - 1, 0x80, 0xBF, st.codePoint * 64 + (b - 0x80)⟩) := by
  unfold utf8Step
  rw [if_neg (by omega), if_neg (by omega)]
  exact if_neg (by omega)

/-- The bytes of a character are read as that character. -/
theorem utf8Decode_encode (c : Char) (bs : List Nat) :
    utf8Decode .initial (utf8Encode c ++ bs) = c :: utf8Decode .initial bs := by
  have hrange := codePoint_range c
  have hchar : Char.ofNat c.toNat = c := Char.ofNat_toNat c
  have hfirst (b : Nat) : utf8Step .initial b = utf8Lead b := if_pos rfl
  unfold utf8Encode
  dsimp only
  generalize c.toNat = n at hrange hchar ⊢
  by_cases hone : n < 0x80
  · have hlead : utf8Lead n = ([Char.ofNat n], .initial) := if_pos (by omega)
    rw [if_pos hone, List.singleton_append, utf8Decode, hfirst, hlead, hchar]
    rfl
  have hlast : utf8Step ⟨1, 0x80, 0xBF, n / 64⟩ (0x80 + n % 64) = ([c], .initial) := by
    unfold utf8Step
    rw [if_neg (by simp), if_neg (by simp; omega)]
    simp [Nat.div_add_mod', hchar]
  rw [if_neg hone]
  by_cases htwo : n < 0x800
  · have hlead : utf8Lead (0xC0 + n / 64) = ([], ⟨1, 0x80, 0xBF, n / 64⟩) := by
      unfold utf8Lead
      rw [if_neg (by omega), if_pos (by omega), Nat.add_sub_cancel_left]
    rw [if_pos htwo]
    simp only [List.cons_append, List.nil_append, utf8Decode, hfirst, hlead, hlast]
  rw [if_neg htwo]
  by_cases hthree : n < 0x10000
  · -- the second byte's range excludes overlong forms and surrogates
    have hlead : utf8Lead (0xE0 + n / 4096) = ([], ⟨2, if n / 4096 = 0 then 0xA0 else 0x80,
        if n / 4096 = 13 then 0x9F else 0xBF, n / 4096⟩) := by
      unfold utf8Lead
      rw [if_neg (by omega), if_neg (by omega), if_pos (by omega), Nat.add_sub_cancel_left]
      congr 3
      · simp
      · simp
        omega
    have hsecond : utf8Step ⟨2, if n / 4096 = 0 then 0xA0 else 0x80,
        if n / 4096 = 13 then 0x9F else 0xBF, n / 4096⟩ (0x80 + n / 64 % 64) =
          ([], ⟨1, 0x80, 0xBF, n / 64⟩) := by
      rw [utf8Step_inside (by simp) ⟨by dsimp only; split <;> omega, by
        dsimp only; split <;> omega⟩, Nat.add_sub_cancel_left]
      congr 3
      dsimp only
      omega
    rw [if_pos hthree]
    simp only [List.cons_append, List.nil_append, utf8Decode, hfirst, hlead, hsecond, hlast]
  rw [if_neg hthree]
  have hlead : utf8Lead (0xF0 + n / 262144) = ([], ⟨3, if n / 262144 = 0 then 0x90 else 0x80,
      if n / 262144 = 4 then 0x8F else 0xBF, n / 262144⟩) := by
    unfold utf8Lead
    rw [if_neg (by omega), if_neg (by omega), if_neg (by omega), if_pos (by omega),
      Nat.add_sub_cancel_left]
    congr 3
    · simp
    · simp
      omega
  have hsecond : utf8Step ⟨3, if n / 262144 = 0 then 0x90 else 0x80,
      if n / 262144 = 4 then 0x8F else 0xBF, n / 262144⟩ (0x80 + n / 4096 % 64) =
        ([], ⟨2, 0x80, 0xBF, n / 4096⟩) := by
    rw [utf8Step_inside (by simp) ⟨by dsimp only; split <;> omega, by
      dsimp only; split <;> omega⟩, Nat.add_sub_cancel_left]
    congr 3
    dsimp only
    omega
  have hthird : utf8Step ⟨2, 0x80, 0xBF, n / 4096⟩ (0x80 + n / 64 % 64) =
      ([], ⟨1, 0x80, 0xBF, n / 64⟩) := by
    rw [utf8Step_inside (by simp) ⟨by simp, by simp; omega⟩, Nat.add_sub_cancel_left]
    congr 3
    dsimp only
    omega
  simp only [List.cons_append, List.nil_append, utf8Decode, hfirst, hlead, hsecond, hthird, hlast]

/-- What is written as UTF-8 is read back. -/
theorem utf8Decode_bytes (cs : List Char) : utf8Decode .initial (utf8Bytes cs) = cs := by
  induction cs with
  | nil => rfl
  | cons c cs ih =>
    rw [show utf8Bytes (c :: cs) = utf8Encode c ++ utf8Bytes cs from rfl, utf8Decode_encode, ih]

theorem utf8Bytes_injective {cs cs' : List Char} (h : utf8Bytes cs = utf8Bytes cs') : cs = cs' := by
  rw [← utf8Decode_bytes cs, h, utf8Decode_bytes]

end LinkSuffix
