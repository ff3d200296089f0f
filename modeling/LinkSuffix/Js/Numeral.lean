import LinkSuffix.Js.Value
import Mathlib.Algebra.Order.Field.Power
import Mathlib.Data.Rat.Defs
import Mathlib.Tactic.Ring
import Mathlib.Tactic.FieldSimp

/-!
# Numbers as JSON writes them

A number's text and the JSON grammar of numbers. Every decimal of at most 1100 places (a double has
1074 at most) is read back from its text.

* `readNumber`: the number a JSON text goes on with.
* `Scientific`, `layout`: the digits and the point a text is laid out from.
* `readNumber_text`: the round trip.
* `textToNumber_digitText`: `Number` of digits.
-/

namespace LinkSuffix

/-! ## Reading -/

/-- An unsigned number of the JSON grammar. -/
def numeral (cs : List Char) : Option Rat :=
  let mantissa := cs.takeWhile fun c => c ≠ 'e' && c ≠ 'E'
  let whole := mantissa.takeWhile (· ≠ '.')
  if whole ≠ [] ∧ (whole = ['0'] ∨ whole.head? ≠ some '0') ∧ mantissa.getLast? ≠ some '.' then
    parseDecimal cs
  else none

def isNumeralChar (c : Char) : Bool := c.isDigit || c ∈ ['-', '+', '.', 'e', 'E']

/-- The number at the front of a text, and what follows it. -/
def readNumber (cs : List Char) : Option (Rat × List Char) :=
  let rest := cs.dropWhile isNumeralChar
  match cs.takeWhile isNumeralChar with
  | '-' :: digits => (numeral digits).map fun value => (-value, rest)
  | digits => (numeral digits).map fun value => (value, rest)

example : readNumber "-12.5e1,".toList = some (-125, [',']) := by decide +kernel

/-! ## Digits -/

theorem parseDigits_eq {cs : List Char} (hne : cs ≠ []) (h : ∀ c ∈ cs, c.isDigit = true) :
    parseDigits cs = some (Nat.ofDigitChars 10 cs 0) := by
  unfold parseDigits
  rw [if_pos ⟨hne, List.all_eq_true.mpr h⟩]
  exact congrArg some Nat.ofDigitChars_eq_foldl.symm

theorem parseDigits_toString (n : Nat) : parseDigits (toString n).toList = some n := by
  have hlist : (toString n).toList = Nat.toDigits 10 n := Nat.toList_repr
  rw [hlist, parseDigits_eq Nat.toDigits_ne_nil fun c hc =>
    Nat.isDigit_of_mem_toDigits (by decide) (by decide) hc, Nat.ofDigitChars_ten_toDigits]

/-- The first digit of a positive number is no zero. -/
theorem head_toDigits {n : Nat} (h : 0 < n) : (Nat.toDigits 10 n).head? ≠ some '0' := by
  induction n using Nat.strongRecOn with
  | ind n ih =>
    by_cases hsmall : n < 10
    · rw [Nat.toDigits_of_lt_base hsmall]
      simp only [List.head?_cons, ne_eq, Option.some.injEq]
      intro hzero
      have hchar : ∀ d < 10, 0 < d → d.digitChar ≠ '0' := by decide
      exact hchar n hsmall h hzero
    · rw [Nat.toDigits_of_base_le (by decide) (by omega), List.head?_append_of_ne_nil _
        Nat.toDigits_ne_nil]
      exact ih (n / 10) (by omega) (by omega)

theorem dropWhile_zeros (cs : List Char) :
    ∃ count, cs = (cs.reverse.dropWhile (· = '0')).reverse ++ List.replicate count '0' := by
  refine ⟨(cs.reverse.takeWhile (· = '0')).length, ?_⟩
  have hzeros : cs.reverse.takeWhile (· = '0') =
      List.replicate (cs.reverse.takeWhile (· = '0')).length '0' := by
    refine List.eq_replicate_iff.mpr ⟨rfl, fun c hc => ?_⟩
    simpa using List.all_eq_true.mp (List.all_takeWhile) c hc
  have hsplit := congrArg List.reverse
    (List.takeWhile_append_dropWhile (p := fun c => decide (c = '0')) (l := cs.reverse))
  rw [List.reverse_append, List.reverse_reverse] at hsplit
  calc cs = (cs.reverse.dropWhile (· = '0')).reverse ++ (cs.reverse.takeWhile (· = '0')).reverse :=
        hsplit.symm
    _ = _ := by rw [hzeros, List.reverse_replicate, List.length_replicate]

/-! ## The digits of a decimal -/

/-- A decimal with at most 1100 places. -/
def Written (value : Rat) : Prop := (value * 10 ^ 1100).den = 1

theorem decimalDigits_spec {fuel : Nat} {value : Rat} (hpos : 0 < value)
    (h : (value * 10 ^ fuel).den = 1) (places : Nat) :
    ∃ n shift : Nat, 0 < n ∧ value * 10 ^ shift = n ∧
      JsNumber.decimalDigits fuel value places = (Nat.toDigits 10 n, places + shift) := by
  have hwhole {value : Rat} (hpos : 0 < value) (h : value.den = 1) :
      0 < value.num.toNat ∧ value = value.num.toNat := by
    have hnum : 0 < value.num := Rat.num_pos.mpr hpos
    refine ⟨by omega, ?_⟩
    calc value = (value.num : Rat) := ((Rat.den_eq_one_iff value).mp h).symm
      _ = ((value.num.toNat : Int) : Rat) := by rw [Int.toNat_of_nonneg (Int.le_of_lt hnum)]
      _ = (value.num.toNat : Rat) := rfl
  induction fuel generalizing value places with
  | zero =>
    rw [pow_zero, mul_one] at h
    obtain ⟨hn, heq⟩ := hwhole hpos h
    refine ⟨value.num.toNat, 0, hn, by rw [pow_zero, mul_one]; exact heq, ?_⟩
    have hfloor : value.floor = value.num := by
      unfold Rat.floor
      rw [if_pos h]
    rw [JsNumber.decimalDigits, hfloor]
    exact congrArg (·, places) Nat.toList_repr
  | succ fuel ih =>
    rw [JsNumber.decimalDigits]
    by_cases hden : value.den = 1
    · obtain ⟨hn, heq⟩ := hwhole hpos hden
      refine ⟨value.num.toNat, 0, hn, by rw [pow_zero, mul_one]; exact heq, ?_⟩
      rw [if_pos hden]
      exact congrArg (·, places) Nat.toList_repr
    · rw [if_neg hden]
      have hnext : (value * 10 * 10 ^ fuel).den = 1 := by rwa [mul_assoc, ← pow_succ']
      obtain ⟨n, shift, hn, heq, hdigits⟩ := ih (mul_pos hpos (by norm_num)) hnext (places + 1)
      refine ⟨n, shift + 1, hn, by rw [pow_succ', ← mul_assoc]; exact heq, ?_⟩
      rw [hdigits, Nat.add_assoc, Nat.add_comm 1]

/-- Digits without a zero at either end and where the point stands among them. -/
structure Scientific (value : Rat) (digits : List Char) (point : Int) : Prop where
  isDigit : ∀ c ∈ digits, c.isDigit = true
  ne_nil : digits ≠ []
  head : digits.head? ≠ some '0'
  eq : value = Nat.ofDigitChars 10 digits 0 * (10 : Rat) ^ (point - digits.length)

/-- The text of digits and a point. -/
def layout (digits : List Char) (point : Int) : List Char :=
  let size : Int := digits.length
  let zeros (count : Int) : List Char := List.replicate count.toNat '0'
  if size ≤ point ∧ point ≤ 21 then digits ++ zeros (point - size)
  else if 0 < point ∧ point ≤ 21 then
    digits.take point.toNat ++ '.' :: digits.drop point.toNat
  else if -6 < point ∧ point ≤ 0 then '0' :: '.' :: zeros (-point) ++ digits
  else
    let exponent := point - 1
    let tail := if digits.length = 1 then [] else '.' :: digits.drop 1
    digits.take 1 ++ tail ++ 'e' :: (if exponent < 0 then '-' else '+') ::
      (toString exponent.natAbs).toList

/-- The text of a positive decimal is laid out from its digits. -/
theorem positiveText_eq {value : Rat} (hpos : 0 < value) (h : Written value) :
    ∃ digits point, Scientific value digits point ∧
      JsNumber.positiveText value = layout digits point := by
  obtain ⟨n, shift, hn, heq, hdigits⟩ := decimalDigits_spec hpos h 0
  obtain ⟨count, hsplit⟩ := dropWhile_zeros (Nat.toDigits 10 n)
  generalize hkept : ((Nat.toDigits 10 n).reverse.dropWhile (· = '0')).reverse = digits at hsplit
  refine ⟨digits, (Nat.toDigits 10 n).length - (0 + shift : Nat), ⟨?_, ?_, ?_, ?_⟩, ?_⟩
  · intro c hc
    refine Nat.isDigit_of_mem_toDigits (b := 10) (n := n) (by decide) (by decide) ?_
    rw [hsplit]
    exact List.mem_append_left _ hc
  · rintro rfl
    have hhead := head_toDigits hn
    have hne : Nat.toDigits 10 n ≠ [] := Nat.toDigits_ne_nil
    rw [hsplit, List.nil_append] at hhead hne
    cases count with
    | zero => exact hne rfl
    | succ count => exact hhead rfl
  · intro hzero
    refine head_toDigits hn ?_
    rw [hsplit]
    cases digits with
    | nil => cases hzero
    | cons c cs => exact hzero
  · have hvalue : (n : Rat) = 10 ^ count * Nat.ofDigitChars 10 digits 0 := by
      have hnat : Nat.ofDigitChars 10 (Nat.toDigits 10 n) 0 = n := Nat.ofDigitChars_ten_toDigits
      rw [hsplit, Nat.ofDigitChars_append, Nat.ofDigitChars_replicate_zero] at hnat
      exact_mod_cast hnat.symm
    have hlength : ((Nat.toDigits 10 n).length : Int) = digits.length + count := by
      rw [hsplit, List.length_append, List.length_replicate]
      exact Int.natCast_add _ _
    have hexponent : ((Nat.toDigits 10 n).length : Int) - (0 + shift : Nat) - digits.length =
        (count : Int) - shift := by omega
    have hten : (10 : Rat) ≠ 0 := by norm_num
    rw [hexponent, zpow_sub₀ hten, zpow_natCast, zpow_natCast, mul_div_assoc', mul_comm _
      ((10 : Rat) ^ count), ← hvalue, ← heq, mul_div_cancel_right₀ _ (pow_ne_zero _ hten)]
  · unfold JsNumber.positiveText
    rw [hdigits]
    dsimp only
    rw [hkept]
    rfl

/-! ## The layout read back -/

/-- The fraction after its point, where there is one. -/
def pointed (fraction : List Char) : List Char := if fraction = [] then [] else '.' :: fraction

theorem digit_ne {c d : Char} (hc : c.isDigit = true) (hd : d.isDigit = false) : c ≠ d := by
  rintro rfl
  rw [hc] at hd
  cases hd

theorem takeWhile_digits {p : Char → Bool} {digits rest : List Char}
    (hdigits : ∀ c ∈ digits, p c = true) (hrest : ∀ c ∈ rest.head?, p c = false) :
    (digits ++ rest).takeWhile p = digits ∧ (digits ++ rest).dropWhile p = rest := by
  rw [List.takeWhile_append_of_pos hdigits, List.dropWhile_append_of_pos hdigits]
  cases rest with
  | nil => exact ⟨List.append_nil digits, rfl⟩
  | cons c rest =>
    have hc := hrest c rfl
    rw [List.takeWhile_cons_of_neg (by rw [hc]; simp), List.dropWhile_cons_of_neg (by rw [hc]; simp)]
    exact ⟨List.append_nil digits, rfl⟩

/-- A number of the grammar, in its parts: digits, a fraction, and an exponent's text. -/
structure Parts (whole fraction exponentText : List Char) (exponent : Int) : Prop where
  wholeDigits : ∀ c ∈ whole, c.isDigit = true
  fractionDigits : ∀ c ∈ fraction, c.isDigit = true
  ne_nil : whole ≠ []
  leading : whole = ['0'] ∨ whole.head? ≠ some '0'
  exponentRead : exponentText = [] ∧ exponent = 0 ∨
    ∃ cs, exponentText = 'e' :: cs ∧ parseExponent cs = some exponent

theorem numeral_parts {whole fraction exponentText : List Char} {exponent : Int}
    (h : Parts whole fraction exponentText exponent) :
    numeral (whole ++ pointed fraction ++ exponentText) =
      some (Nat.ofDigitChars 10 (whole ++ fraction) 0 *
        (10 : Rat) ^ (exponent - fraction.length)) := by
  have hdigits : ∀ c ∈ whole ++ fraction, c.isDigit = true := fun c hc =>
    (List.mem_append.mp hc).elim (h.wholeDigits c) (h.fractionDigits c)
  have hmantissa := @takeWhile_digits (fun c => c ≠ 'e' && c ≠ 'E')
    (whole ++ pointed fraction) exponentText
    (fun c hc => by
      rcases List.mem_append.mp hc with hc | hc
      · simp [digit_ne (h.wholeDigits c hc) (d := 'e') rfl, digit_ne (h.wholeDigits c hc) (d := 'E') rfl]
      · unfold pointed at hc
        split at hc
        · cases hc
        · rcases List.mem_cons.mp hc with rfl | hc
          · rfl
          · simp [digit_ne (h.fractionDigits c hc) (d := 'e') rfl,
              digit_ne (h.fractionDigits c hc) (d := 'E') rfl])
    (fun c hc => by
      rcases h.exponentRead with ⟨rfl, -⟩ | ⟨cs, rfl, -⟩
      · cases hc
      · cases hc
        rfl)
  have hwhole := @takeWhile_digits (· ≠ '.') whole (pointed fraction)
    (fun c hc => by simp [digit_ne (h.wholeDigits c hc) (d := '.') rfl])
    (fun c hc => by
      unfold pointed at hc
      split at hc
      · cases hc
      · cases hc
        rfl)
  have hfraction : (pointed fraction).drop 1 = fraction := by
    unfold pointed
    split
    · rename_i hnil
      exact hnil.symm
    · rfl
  have hlast : (whole ++ pointed fraction).getLast? ≠ some '.' := by
    intro hlast
    have hmem : '.' ∈ whole ++ fraction := by
      unfold pointed at hlast
      split at hlast
      · rw [List.append_nil] at hlast
        exact List.mem_append_left _ (List.mem_of_getLast? hlast)
      · rename_i hnil
        rw [List.getLast?_append_of_ne_nil _ (by simp), List.getLast?_cons_of_ne_nil hnil] at hlast
        exact List.mem_append_right _ (List.mem_of_getLast? hlast)
    exact digit_ne (hdigits '.' hmem) (d := '.') rfl rfl
  unfold numeral parseDecimal
  dsimp only
  rw [hmantissa.1, hmantissa.2, hwhole.1, hwhole.2, hfraction, if_pos ⟨h.ne_nil, h.leading, hlast⟩,
    parseDigits_eq (by simp [h.ne_nil]) hdigits]
  rcases h.exponentRead with ⟨rfl, rfl⟩ | ⟨cs, rfl, hexponent⟩
  · rfl
  · dsimp only
    rw [hexponent]

theorem Parts.isNumeralChar {whole fraction exponentText : List Char} {exponent : Int}
    (h : Parts whole fraction exponentText exponent)
    (hexponent : ∀ c ∈ exponentText, isNumeralChar c = true) :
    ∀ c ∈ whole ++ pointed fraction ++ exponentText, isNumeralChar c = true := by
  have hdigit {c : Char} (hc : c.isDigit = true) : LinkSuffix.isNumeralChar c = true := by
    unfold LinkSuffix.isNumeralChar
    rw [hc, Bool.true_or]
  intro c hc
  rcases List.mem_append.mp hc with hc | hc
  · rcases List.mem_append.mp hc with hc | hc
    · exact hdigit (h.wholeDigits c hc)
    · unfold pointed at hc
      split at hc
      · cases hc
      · rcases List.mem_cons.mp hc with rfl | hc
        · rfl
        · exact hdigit (h.fractionDigits c hc)
  · exact hexponent c hc

theorem parseExponent_text (exponent : Int) :
    parseExponent ((if exponent < 0 then '-' else '+') :: (toString exponent.natAbs).toList) =
      some exponent := by
  split
  · rw [parseExponent, parseDigits_toString]
    exact congrArg some (show -(exponent.natAbs : Int) = exponent by omega)
  · rw [parseExponent, parseDigits_toString]
    exact congrArg some (show (exponent.natAbs : Int) = exponent by omega)

/-- Every layout is a number of the grammar, with the same value. -/
theorem layout_parts {value : Rat} {digits : List Char} {point : Int}
    (h : Scientific value digits point) :
    ∃ whole fraction exponentText exponent,
      layout digits point = whole ++ pointed fraction ++ exponentText ∧
      Parts whole fraction exponentText exponent ∧
      (∀ c ∈ exponentText, isNumeralChar c = true) ∧
      value = Nat.ofDigitChars 10 (whole ++ fraction) 0 *
        (10 : Rat) ^ (exponent - fraction.length) := by
  have hsize : 0 < digits.length := List.length_pos_iff.mpr h.ne_nil
  have hzero (count : Nat) : ∀ c ∈ List.replicate count '0', c.isDigit = true := fun c hc => by
    rw [List.eq_of_mem_replicate hc]
    rfl
  have htake (n : Nat) : ∀ c ∈ digits.take n, c.isDigit = true := fun c hc =>
    h.isDigit c (List.mem_of_mem_take hc)
  have hdrop (n : Nat) : ∀ c ∈ digits.drop n, c.isDigit = true := fun c hc =>
    h.isDigit c (List.mem_of_mem_drop hc)
  have hhead {n : Nat} (hn : n ≠ 0) : (digits.take n).head? ≠ some '0' := by
    rw [List.head?_take, if_neg hn]
    exact h.head
  unfold layout
  dsimp only
  by_cases hwhole : (digits.length : Int) ≤ point ∧ point ≤ 21
  · refine ⟨digits ++ List.replicate (point - digits.length).toNat '0', [], [], 0, ?_,
      ⟨fun c hc => (List.mem_append.mp hc).elim (h.isDigit c) (hzero _ c), fun c hc => (nomatch hc),
        by simp [h.ne_nil], Or.inr ?_, Or.inl ⟨rfl, rfl⟩⟩, fun c hc => (nomatch hc), ?_⟩
    · rw [if_pos hwhole, pointed, if_pos rfl, List.append_nil, List.append_nil]
    · rw [List.head?_append_of_ne_nil _ h.ne_nil]
      exact h.head
    · have hpower : (10 : Rat) ^ (point - digits.length) =
          (10 : Rat) ^ (point - digits.length).toNat := by
        rw [← zpow_natCast, Int.toNat_of_nonneg (by omega)]
      rw [h.eq, hpower, List.append_nil, Nat.ofDigitChars_append, Nat.ofDigitChars_replicate_zero]
      simp [mul_comm]
  rw [if_neg hwhole]
  by_cases hinside : 0 < point ∧ point ≤ 21
  · have hrest : digits.drop point.toNat ≠ [] := by
      rw [ne_eq, List.drop_eq_nil_iff]
      omega
    refine ⟨digits.take point.toNat, digits.drop point.toNat, [], 0, ?_,
      ⟨htake _, hdrop _, by simp [h.ne_nil]; omega, Or.inr (hhead (by omega)),
        Or.inl ⟨rfl, rfl⟩⟩, fun c hc => (nomatch hc), ?_⟩
    · rw [if_pos hinside, pointed, if_neg hrest, List.append_nil]
    · rw [h.eq, List.take_append_drop, List.length_drop]
      congr 2
      omega
  rw [if_neg hinside]
  by_cases hsmall : -6 < point ∧ point ≤ 0
  · have hfraction : List.replicate (-point).toNat '0' ++ digits ≠ [] := by simp [h.ne_nil]
    refine ⟨['0'], List.replicate (-point).toNat '0' ++ digits, [], 0, ?_,
      ⟨by simp, fun c hc => (List.mem_append.mp hc).elim (hzero _ c) (h.isDigit c), by simp,
        Or.inl rfl, Or.inl ⟨rfl, rfl⟩⟩, fun c hc => (nomatch hc), ?_⟩
    · rw [if_pos hsmall, pointed, if_neg hfraction, List.append_nil]
      rfl
    · have hvalue : Nat.ofDigitChars 10 (['0'] ++ (List.replicate (-point).toNat '0' ++ digits)) 0 =
          Nat.ofDigitChars 10 digits 0 := by
        rw [Nat.ofDigitChars_append, Nat.ofDigitChars_append, Nat.ofDigitChars_replicate_zero]
        rfl
      rw [h.eq, hvalue, List.length_append, List.length_replicate]
      congr 2
      omega
  rw [if_neg hsmall]
  refine ⟨digits.take 1, digits.drop 1, _, point - 1, ?_,
    ⟨htake 1, hdrop 1, by simp [h.ne_nil], Or.inr (hhead (by decide)),
      Or.inr ⟨_, rfl, parseExponent_text (point - 1)⟩⟩, ?_, ?_⟩
  · have htail : (if digits.length = 1 then [] else '.' :: digits.drop 1) =
        pointed (digits.drop 1) := by
      unfold pointed
      by_cases hone : digits.length = 1
      · rw [if_pos hone, if_pos (by rw [List.drop_eq_nil_iff]; omega)]
      · rw [if_neg hone, if_neg (by rw [List.drop_eq_nil_iff]; omega)]
    rw [htail]
  · intro c hc
    rcases List.mem_cons.mp hc with rfl | hc
    · rfl
    · rcases List.mem_cons.mp hc with rfl | hc
      · split <;> rfl
      · have hdigit : c.isDigit = true := by
          have hlist : (toString (point - 1).natAbs).toList = Nat.toDigits 10 (point - 1).natAbs :=
            Nat.toList_repr
          rw [hlist] at hc
          exact Nat.isDigit_of_mem_toDigits (by decide) (by decide) hc
        unfold isNumeralChar
        rw [hdigit, Bool.true_or]
  · rw [h.eq, List.take_append_drop, List.length_drop]
    congr 2
    omega

/-- What may follow a number in a text. -/
def EndsNumeral (rest : List Char) : Prop := ∀ c ∈ rest.head?, isNumeralChar c = false

/-- A positive decimal is read back from its text. -/
theorem numeral_text {value : Rat} (hpos : 0 < value) (h : Written value) :
    numeral (JsNumber.positiveText value) = some value ∧
      (∀ c ∈ JsNumber.positiveText value, isNumeralChar c = true) ∧
      ∃ c cs, JsNumber.positiveText value = c :: cs ∧ c.isDigit = true := by
  obtain ⟨digits, point, hscientific, htext⟩ := positiveText_eq hpos h
  obtain ⟨whole, fraction, exponentText, exponent, hlayout, hparts, hchars, hvalue⟩ :=
    layout_parts hscientific
  rw [htext, hlayout, numeral_parts hparts, ← hvalue]
  refine ⟨rfl, hparts.isNumeralChar hchars, ?_⟩
  cases hcases : whole with
  | nil => exact absurd hcases hparts.ne_nil
  | cons c cs => exact ⟨c, _, rfl, hparts.wholeDigits c (by rw [hcases]; exact List.mem_cons_self)⟩

/-- The text of a decimal starts with a digit or a sign. -/
theorem toText_head {value : Rat} (h : Written value) :
    ∃ c cs, (JsNumber.finite value).toText.toList = c :: cs ∧ (c = '-' ∨ c.isDigit = true) := by
  unfold JsNumber.toText
  dsimp only
  by_cases hzero : value = 0
  · rw [if_pos hzero]
    exact ⟨'0', [], rfl, Or.inr rfl⟩
  rw [if_neg hzero]
  by_cases hneg : value < 0
  · rw [if_pos hneg, String.toList_ofList]
    exact ⟨'-', _, rfl, Or.inl rfl⟩
  · have hpos : 0 < value := lt_of_le_of_ne (not_lt.mp hneg) (Ne.symm hzero)
    obtain ⟨-, -, c, cs, hhead, hdigit⟩ := numeral_text hpos h
    rw [if_neg hneg, String.toList_ofList]
    exact ⟨c, cs, hhead, Or.inr hdigit⟩

theorem toText_chars {value : Rat} (h : Written value) :
    ∀ c ∈ (JsNumber.finite value).toText.toList, isNumeralChar c = true := by
  unfold JsNumber.toText
  dsimp only
  by_cases hzero : value = 0
  · rw [if_pos hzero]
    decide
  rw [if_neg hzero]
  by_cases hneg : value < 0
  · have hwritten : Written (-value) := by
      unfold Written
      rw [neg_mul, Rat.neg_den]
      exact h
    obtain ⟨-, hchars, -⟩ := numeral_text (neg_pos.mpr hneg) hwritten
    rw [if_pos hneg, String.toList_ofList]
    exact fun c hc => (List.mem_cons.mp hc).elim (fun h => by rw [h]; rfl) (hchars c)
  · have hpos : 0 < value := lt_of_le_of_ne (not_lt.mp hneg) (Ne.symm hzero)
    obtain ⟨-, hchars, -⟩ := numeral_text hpos h
    rw [if_neg hneg, String.toList_ofList]
    exact hchars

theorem written_integer {value : Rat} (h : value.den = 1) : Written value := by
  have hvalue : value * 10 ^ 1100 = ((value.num * 10 ^ 1100 : Int) : Rat) := by
    rw [Int.cast_mul, (Rat.den_eq_one_iff value).mp h, Int.cast_pow, Int.cast_ofNat]
  unfold Written
  rw [hvalue]
  exact Rat.den_intCast _

/-- **A number is read back from its text.** -/
theorem readNumber_text {value : Rat} (h : Written value) {rest : List Char}
    (hrest : EndsNumeral rest) :
    readNumber ((JsNumber.finite value).toText.toList ++ rest) = some (value, rest) := by
  unfold readNumber JsNumber.toText
  dsimp only
  by_cases hzero : value = 0
  · rw [if_pos hzero]
    obtain ⟨htake, hdrop⟩ := @takeWhile_digits isNumeralChar "0".toList rest
      (by decide) hrest
    have hnumeral : numeral "0".toList = some 0 := by decide +kernel
    rw [htake, hdrop, hzero]
    exact congrArg (Option.map fun value => (value, rest)) hnumeral
  rw [if_neg hzero]
  by_cases hneg : value < 0
  · have hwritten : Written (-value) := by
      unfold Written
      rw [neg_mul, Rat.neg_den]
      exact h
    obtain ⟨hnumeral, hchars, -⟩ := numeral_text (neg_pos.mpr hneg) hwritten
    obtain ⟨htake, hdrop⟩ := @takeWhile_digits isNumeralChar
      ('-' :: JsNumber.positiveText (-value)) rest
      (fun c hc => (List.mem_cons.mp hc).elim (fun h => by rw [h]; rfl) (hchars c)) hrest
    rw [if_pos hneg, String.toList_ofList, htake, hdrop]
    calc (numeral (JsNumber.positiveText (-value))).map (fun value => (-value, rest))
        = some (- -value, rest) := by rw [hnumeral, Option.map_some]
      _ = some (value, rest) := by rw [neg_neg]
  · have hpos : 0 < value := lt_of_le_of_ne (not_lt.mp hneg) (Ne.symm hzero)
    obtain ⟨hnumeral, hchars, c, cs, hhead, hdigit⟩ := numeral_text hpos h
    obtain ⟨htake, hdrop⟩ := takeWhile_digits hchars hrest
    rw [if_neg hneg, String.toList_ofList, htake, hdrop, hhead]
    rw [hhead] at hnumeral
    split
    · rename_i heq
      cases heq
      cases hdigit
    · rw [hnumeral, Option.map_some]

/-! ## `Number` of digits -/

theorem parseDecimal_digits {cs : List Char} (hne : cs ≠ []) (h : ∀ c ∈ cs, c.isDigit = true) :
    parseDecimal cs = some ((Nat.ofDigitChars 10 cs 0 : Nat) : Rat) := by
  have hmantissa := @takeWhile_digits (fun c => c ≠ 'e' && c ≠ 'E') cs []
    (fun c hc => by
      simp [digit_ne (h c hc) (d := 'e') rfl, digit_ne (h c hc) (d := 'E') rfl])
    nofun
  have hwhole := @takeWhile_digits (· ≠ '.') cs []
    (fun c hc => by simp [digit_ne (h c hc) (d := '.') rfl]) nofun
  rw [List.append_nil] at hmantissa hwhole
  unfold parseDecimal
  dsimp only
  rw [hmantissa.1, hmantissa.2, hwhole.1, hwhole.2, List.drop_nil, List.append_nil,
    parseDigits_eq hne h]
  simp

/-- Digits are read as the number they write. -/
theorem textToNumber_digitText {cs : List Char} {n : Nat} (h : parseDigits cs = some n) :
    textToNumber (String.ofList cs) = .finite n := by
  have hparse := h
  unfold parseDigits at hparse
  split at hparse
  case isFalse => cases hparse
  rename_i hall
  obtain ⟨hne, hall⟩ := hall
  have hdigits : ∀ c ∈ cs, c.isDigit = true := List.all_eq_true.mp hall
  rw [parseDigits_eq hne hdigits] at h
  have htrim : trim (String.ofList cs) = String.ofList cs := trim_eq fun c hc => by
    rw [String.toList_ofList] at hc
    exact digit_not_space (hdigits c hc)
  have hread : parseDecimal cs = some (n : Rat) := by
    rw [parseDecimal_digits hne hdigits, Option.some.inj h]
  have hinfinity : cs ≠ "Infinity".toList := fun hcs =>
    absurd (hdigits 'I' (hcs ▸ List.mem_cons_self)) (by decide)
  unfold textToNumber
  rw [htrim, String.toList_ofList]
  split
  · exact absurd rfl hne
  · exact absurd (hdigits 'x' (by simp)) (by decide)
  · exact absurd (hdigits 'X' (by simp)) (by decide)
  · exact absurd (hdigits 'o' (by simp)) (by decide)
  · exact absurd (hdigits 'O' (by simp)) (by decide)
  · exact absurd (hdigits 'b' (by simp)) (by decide)
  · exact absurd (hdigits 'B' (by simp)) (by decide)
  · exact absurd (hdigits '+' (by simp)) (by decide)
  · exact absurd (hdigits '-' (by simp)) (by decide)
  · unfold parseUnsigned
    rw [if_neg hinfinity, hread]
    rfl

/-- The text of a natural number is read back. -/
theorem textToNumber_toString (n : Nat) : textToNumber (toString n) = .finite n := by
  have h := textToNumber_digitText (parseDigits_toString n)
  rwa [String.ofList_toList] at h

end LinkSuffix
