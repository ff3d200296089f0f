import Mathlib.Data.List.Induction

/-!
# Lost updates

A counter that several updates share. An update reads the counter, and later sets it to one more
than it read, whatever the counter is by then.

* `Tally.Bounded`: the counter is never ahead of the updates that are done.
* `Tally.Exact`: nothing is lost, and at most one update is between its read and its write.
* `Tally.Lost`: an update is lost, or will be.
* **`lost_of_overlap`**, **`Lost.move`**: from the first read that overlaps an update on, one is
  lost for good.
-/

namespace LinkSuffix.Lib

/-- The counter, the number of updates that are done, and what the others are about to write. -/
structure Tally where
  value : Nat
  written : Nat
  pending : List Nat

namespace Tally

variable {t t' : Tally}

/-- What an update can do to the tally. -/
inductive Move (t : Tally) : Tally → Prop
  | idle : Move t t
  | read : Move t { t with pending := t.pending ++ [t.value + 1] }
  | write (before after : List Nat) (v : Nat) (hpending : t.pending = before ++ v :: after) :
      Move t { value := v, written := t.written + 1, pending := before ++ after }

/-- An update counts at most the ones done before it. -/
structure Bounded (t : Tally) : Prop where
  value : t.value ≤ t.written
  pending : ∀ v ∈ t.pending, v ≤ t.written + 1

/-- Every update that is done is counted, and so will be the one on its way. -/
inductive Exact (t : Tally) : Prop where
  | still (hpending : t.pending = []) (hvalue : t.value = t.written)
  | writing (hpending : t.pending = [t.written + 1])

/-- The update that ends the overlap has not counted all of them. -/
structure Lost (t : Tally) : Prop where
  still : t.pending = [] → t.value < t.written
  writing : ∀ v, t.pending = [v] → v < t.written + 1

theorem Bounded.move (h : t.Bounded) (hmove : t.Move t') : t'.Bounded := by
  cases hmove with
  | idle => exact h
  | read =>
    refine ⟨h.value, fun v hv => ?_⟩
    rcases List.mem_append.mp hv with hold | hnew
    · exact h.pending v hold
    · have hvalue := h.value
      rw [List.mem_singleton.mp hnew]
      show t.value + 1 ≤ t.written + 1
      omega
  | write before after v hpending =>
    have hmem : ∀ w ∈ before ++ v :: after, w ≤ t.written + 1 := hpending ▸ h.pending
    refine ⟨hmem v (by simp), fun w hw => ?_⟩
    have hw' : w ≤ t.written + 1 := hmem w (by
      rcases List.mem_append.mp hw with hw | hw <;> simp [hw])
    show w ≤ t.written + 1 + 1
    omega

/-- A read while no update is on its way, and a write, lose nothing. -/
theorem Exact.move (h : t.Exact) (hmove : t.Move t')
    (halone : t'.pending.length = t.pending.length + 1 → t.pending = []) : t'.Exact := by
  cases hmove with
  | idle => exact h
  | read =>
    have hnone : t.pending = [] := halone (by simp)
    cases h with
    | still _ hvalue => exact .writing (by simp [hnone, hvalue])
    | writing hpending => simp [hpending] at hnone
  | write before after v hpending =>
    cases h with
    | still hnone _ => simp [hnone] at hpending
    | writing hone =>
      obtain ⟨rfl, hv⟩ | ⟨_, hfalse⟩ := List.singleton_eq_append_iff.mp (hone.symm.trans hpending)
      · obtain ⟨rfl, rfl⟩ := List.cons.inj hv
        exact .still rfl rfl
      · simp at hfalse

/-- **An overlap loses an update**: a read while another update is on its way. -/
theorem lost_of_overlap (h : t.pending ≠ []) :
    Lost { t with pending := t.pending ++ [t.value + 1] } where
  still := by simp
  writing := by
    intro v hv
    obtain ⟨hnone, _⟩ | ⟨_, hfalse⟩ := List.append_eq_singleton_iff.mp hv
    · exact absurd hnone h
    · simp at hfalse

/-- **What is lost stays lost.** -/
theorem Lost.move (h : t.Lost) (hbounded : t.Bounded) (hmove : t.Move t') : t'.Lost := by
  cases hmove with
  | idle => exact h
  | read =>
    by_cases hnone : t.pending = []
    · refine ⟨by simp, fun v hv => ?_⟩
      have hvalue : t.value < t.written := h.still hnone
      have hv' : t.value + 1 = v := by simpa [hnone] using hv
      show v < t.written + 1
      omega
    · exact lost_of_overlap hnone
  | write before after v hpending =>
    constructor
    · intro hnone
      obtain ⟨rfl, rfl⟩ := List.append_eq_nil_iff.mp hnone
      exact h.writing v hpending
    · intro w hw
      have hmem : w ∈ t.pending := by
        have hrest : w ∈ before ++ after := by
          show w ∈ before ++ after
          rw [show before ++ after = [w] from hw]
          simp
        rw [hpending]
        rcases List.mem_append.mp hrest with hrest | hrest <;> simp [hrest]
      exact Nat.lt_succ_of_le (hbounded.pending w hmem)

end Tally

end LinkSuffix.Lib
