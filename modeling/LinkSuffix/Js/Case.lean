import LinkSuffix.Text

/-!
# Letter case

`toLowerCase` and `toUpperCase` as far as ASCII characters come of them: every other character
stands for itself.
-/

namespace LinkSuffix

/-- `value.toLowerCase()`. -/
def toLowerCase (cs : List Char) : List Char :=
  cs.flatMap fun c =>
    if c = '\u0130' then ['i', '\u0307'] else if c = '\u212a' then ['k'] else [c.toLower]

/-- The characters beyond ASCII whose upper case has ASCII characters. -/
def wideUpper : List (Char × List Char) :=
  [('\u00df', ['S', 'S']), ('\u0131', ['I']), ('\u0149', ['\u02bc', 'N']), ('\u017f', ['S']),
    ('\u01f0', ['J', '\u030c']), ('\u1e96', ['H', '\u0331']), ('\u1e97', ['T', '\u0308']),
    ('\u1e98', ['W', '\u030a']), ('\u1e99', ['Y', '\u030a']), ('\u1e9a', ['A', '\u02be']),
    ('\ufb00', ['F', 'F']), ('\ufb01', ['F', 'I']), ('\ufb02', ['F', 'L']),
    ('\ufb03', ['F', 'F', 'I']), ('\ufb04', ['F', 'F', 'L']), ('\ufb05', ['S', 'T']),
    ('\ufb06', ['S', 'T'])]

/-- `value.toUpperCase()`. -/
def toUpperCase (cs : List Char) : List Char :=
  cs.flatMap fun c =>
    match wideUpper.find? fun entry => entry.1 = c with
    | some entry => entry.2
    | none => [c.toUpper]

/-! ## ASCII letters -/

/-- What holds of the ASCII characters and of those beyond holds of all. -/
theorem ascii_cases {P : Char → Prop} (hascii : ∀ n < 128, P (Char.ofNat n))
    (hwide : ∀ c : Char, 128 ≤ c.toNat → P c) (c : Char) : P c := by
  by_cases hc : c.toNat < 128
  · have h := hascii c.toNat hc
    rwa [Char.ofNat_toNat] at h
  · exact hwide c (by omega)

theorem wide_classes {c : Char} (h : 128 ≤ c.toNat) :
    c.isUpper = false ∧ c.isLower = false ∧ c.isDigit = false := by
  have hval : c.val.toNat = c.toNat := rfl
  have hZ : ('Z'.val).toNat = 90 := rfl
  have hz : ('z'.val).toNat = 122 := rfl
  have h9 : ('9'.val).toNat = 57 := rfl
  delta Char.isUpper Char.isLower Char.isDigit
  simp only [ge_iff_le, UInt32.le_iff_toNat_le, Bool.and_eq_false_iff, decide_eq_false_iff_not,
    hval]
  exact ⟨by omega, by omega, by omega⟩

theorem wide_case {c : Char} (h : 128 ≤ c.toNat) : c.toLower = c ∧ c.toUpper = c := by
  obtain ⟨hupper, hlower, -⟩ := wide_classes h
  constructor
  · unfold Char.toLower
    delta Char.isUpper at hupper
    exact dif_neg (by simpa using hupper)
  · unfold Char.toUpper
    delta Char.isLower at hlower
    exact dif_neg (by simpa using hlower)

/-- A lower-case letter or a digit. -/
def isRouteChar (c : Char) : Bool := c.isLower || c.isDigit

theorem isRouteChar_toLower (c : Char) : isRouteChar c.toLower = c.isAlphanum := by
  refine ascii_cases (P := fun c => isRouteChar c.toLower = c.isAlphanum) (by decide) ?_ c
  intro c hc
  obtain ⟨hupper, hlower, hdigit⟩ := wide_classes hc
  have hletter : c.isAlphanum = ((c.isUpper || c.isLower) || c.isDigit) := rfl
  rw [(wide_case hc).1, isRouteChar, hletter, hupper, hlower, hdigit]
  rfl

theorem toUpper_toLower (c : Char) : c.toLower.toUpper = c.toUpper := by
  refine ascii_cases (P := fun c => c.toLower.toUpper = c.toUpper) (by decide) ?_ c
  intro c hc
  rw [(wide_case hc).1]

theorem toLower_toUpper (c : Char) : c.toUpper.toLower = c.toLower := by
  refine ascii_cases (P := fun c => c.toUpper.toLower = c.toLower) (by decide) ?_ c
  intro c hc
  rw [(wide_case hc).2]

end LinkSuffix
