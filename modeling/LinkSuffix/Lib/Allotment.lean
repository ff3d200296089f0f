import Mathlib.Data.Finset.Basic
import Mathlib.Logic.Function.Basic

/-!
# Things allotted to their holders

Each holder has at most one thing, and a set records the things that are out.

* `Allotted`: the set is exact, and nothing has two holders.
* `Allotted.acquire`, `Allotted.release`, `Allotted.release_again`: one holder gets a thing or gives
  it back; giving it back once more is harmless while nobody else has it.
-/

namespace LinkSuffix.Lib

variable {ι α : Type}

/-- The set has what the holders have, and no two have the same. -/
structure Allotted (holds : ι → Option α) (out : Finset α) : Prop where
  mem_iff : ∀ a, a ∈ out ↔ ∃ i, holds i = some a
  unique : ∀ {i j : ι} {a : α}, holds i = some a → holds j = some a → i = j

namespace Allotted

variable {holds : ι → Option α} {out : Finset α} {i : ι} {a : α}

theorem empty : Allotted (fun _ : ι => (none : Option α)) ∅ where
  mem_iff := by simp
  unique := nofun

variable [DecidableEq α]

/-- What nobody has is given back once more. -/
theorem release_again (h : Allotted holds out) (ha : a ∉ out) : Allotted holds (out.erase a) := by
  rwa [Finset.erase_eq_of_notMem ha]

variable [DecidableEq ι]

/-- Something that nobody has is handed out. -/
theorem acquire (h : Allotted holds out) (hi : holds i = none) (ha : a ∉ out) :
    Allotted (Function.update holds i (some a)) (insert a out) := by
  have hother : ∀ {j : ι}, holds j ≠ some a := fun hj => ha ((h.mem_iff a).mpr ⟨_, hj⟩)
  constructor
  · intro b
    rw [Finset.mem_insert, h.mem_iff]
    constructor
    · rintro (rfl | ⟨j, hj⟩)
      · exact ⟨i, Function.update_self ..⟩
      · refine ⟨j, (Function.update_of_ne ?_ ..).trans hj⟩
        rintro rfl
        rw [hi] at hj
        exact absurd hj nofun
    · rintro ⟨j, hj⟩
      by_cases hji : j = i
      · rw [hji, Function.update_self] at hj
        exact Or.inl (Option.some.inj hj).symm
      · rw [Function.update_of_ne hji] at hj
        exact Or.inr ⟨j, hj⟩
  · intro j k b hj hk
    by_cases hji : j = i <;> by_cases hki : k = i
    · rw [hji, hki]
    · rw [hji, Function.update_self] at hj
      rw [Function.update_of_ne hki, ← hj] at hk
      exact absurd hk hother
    · rw [hki, Function.update_self] at hk
      rw [Function.update_of_ne hji, ← hk] at hj
      exact absurd hj hother
    · rw [Function.update_of_ne hji] at hj
      rw [Function.update_of_ne hki] at hk
      exact h.unique hj hk

/-- A holder gives back what it has. -/
theorem release (h : Allotted holds out) (hi : holds i = some a) :
    Allotted (Function.update holds i none) (out.erase a) := by
  constructor
  · intro b
    rw [Finset.mem_erase, h.mem_iff]
    constructor
    · rintro ⟨hne, j, hj⟩
      refine ⟨j, (Function.update_of_ne ?_ ..).trans hj⟩
      rintro rfl
      exact hne (Option.some.inj (hj.symm.trans hi))
    · rintro ⟨j, hj⟩
      by_cases hji : j = i
      · rw [hji, Function.update_self] at hj
        exact absurd hj nofun
      · rw [Function.update_of_ne hji] at hj
        refine ⟨?_, j, hj⟩
        rintro rfl
        exact hji (h.unique hj hi)
  · intro j k b hj hk
    by_cases hji : j = i
    · rw [hji, Function.update_self] at hj
      exact absurd hj nofun
    · by_cases hki : k = i
      · rw [hki, Function.update_self] at hk
        exact absurd hk nofun
      · rw [Function.update_of_ne hji] at hj
        rw [Function.update_of_ne hki] at hk
        exact h.unique hj hk

end Allotted

end LinkSuffix.Lib
