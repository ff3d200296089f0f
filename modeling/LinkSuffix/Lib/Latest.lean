import Mathlib.Data.List.MinMax

/-!
# The latest of some rows

`ORDER BY date DESC LIMIT 1` leaves open which of the rows with the latest date comes back. A
`Latest` is one way to choose.

* `IsLatest`: no row has a later date.
* `Latest.first`: the first of them in table order.
* `Latest.exists_pick`: each of them is the choice of some `Latest`.
-/

namespace LinkSuffix.Lib

variable {α : Type} {date : α → Nat} {rows : List α} {r : α}

/-- No row has a later date. -/
structure IsLatest (date : α → Nat) (rows : List α) (r : α) : Prop where
  mem : r ∈ rows
  le : ∀ q ∈ rows, date q ≤ date r

/-- A way to choose one of the latest rows, when there is a row. -/
structure Latest (date : α → Nat) where
  pick : List α → Option α
  pick_latest : ∀ {rows r}, pick rows = some r → IsLatest date rows r
  pick_isSome : ∀ {rows r}, r ∈ rows → (pick rows).isSome = true

theorem isLatest_of_argmax (h : rows.argmax date = some r) : IsLatest date rows r where
  mem := List.argmax_mem h
  le := fun _ hq => List.le_of_mem_argmax hq h

namespace Latest

/-- The first of the latest rows. -/
def first (date : α → Nat) : Latest date where
  pick := fun rows => rows.argmax date
  pick_latest := isLatest_of_argmax
  pick_isSome := by
    intro rows r hr
    cases h : rows.argmax date with
    | none => exact absurd hr (by simp [List.argmax_eq_none.mp h])
    | some q => rfl

theorem pick_eq_none (order : Latest date) : order.pick rows = none ↔ rows = [] := by
  constructor
  · intro h
    refine List.eq_nil_iff_forall_not_mem.mpr fun r hr => ?_
    simpa [h] using order.pick_isSome hr
  · rintro rfl
    cases h : order.pick ([] : List α) with
    | none => rfl
    | some r => exact absurd (order.pick_latest h).mem List.not_mem_nil

/-- A row is picked as soon as there is one. -/
theorem exists_of_mem (order : Latest date) (hr : r ∈ rows) :
    ∃ q, order.pick rows = some q ∧ IsLatest date rows q := by
  obtain ⟨q, hq⟩ := Option.isSome_iff_exists.mp (order.pick_isSome hr)
  exact ⟨q, hq, order.pick_latest hq⟩

/-- Each of the latest rows is the choice of some order. -/
theorem exists_pick [DecidableEq α] (h : IsLatest date rows r) :
    ∃ order : Latest date, order.pick rows = some r := by
  refine ⟨{ pick := fun qs => if qs = rows then some r else (first date).pick qs
            pick_latest := ?_, pick_isSome := ?_ }, if_pos rfl⟩
  · intro qs q hq
    split at hq
    · rename_i hqs
      obtain rfl := Option.some.inj hq
      exact hqs ▸ h
    · exact (first date).pick_latest hq
  · intro qs q hq
    split
    · rfl
    · exact (first date).pick_isSome hq

end Latest

end LinkSuffix.Lib
