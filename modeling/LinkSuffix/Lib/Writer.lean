import Mathlib.Data.List.Basic

/-!
# A serialized writer

A store that is written by one writer, in the order in which the values were handed to it. A write
may fail, and the caller of one of them may await it.

* `Writer.enqueue`, `Writer.await`: a value is handed over, and one that is awaited.
* `Writer.done`: the value at the head is written, or is not.
* `Each`: what holds of the stored value and of every value still to be written.
* `Newer`: what holds of them all as soon as the awaited value was written.
-/

namespace LinkSuffix.Lib

variable {α : Type}

/-- The stored value, the values to be written with a mark on the awaited one, and whether the
awaited one was written. -/
structure Writer (α : Type) where
  stored : α
  queue : List (Bool × α) := []
  landed : Bool := false

namespace Writer

variable {w : Writer α} {P : α → Prop} {a : α}

def enqueue (w : Writer α) (a : α) : Writer α :=
  { w with queue := w.queue ++ [(false, a)] }

/-- No value is awaited. -/
def unmarked (w : Writer α) : Writer α :=
  { w with queue := w.queue.map fun entry => (false, entry.2), landed := false }

/-- A value is handed over, and awaited from now on. -/
def await (w : Writer α) (a : α) : Writer α :=
  { w.unmarked with queue := w.unmarked.queue ++ [(true, a)] }

/-- The writer is done with the value at the head of the queue. -/
def done (w : Writer α) (applied : Bool) : Writer α :=
  match w.queue with
  | [] => w
  | (awaited, a) :: rest =>
    if applied then { stored := a, queue := rest, landed := w.landed || awaited }
    else { w with queue := rest }

/-! ## Every value -/

/-- The stored value and every value to be written satisfy `P`. -/
structure Each (P : α → Prop) (w : Writer α) : Prop where
  stored : P w.stored
  queue : ∀ entry ∈ w.queue, P entry.2

theorem Each.mono {Q : α → Prop} (hPQ : ∀ a, P a → Q a) (h : w.Each P) : w.Each Q :=
  ⟨hPQ _ h.stored, fun entry hentry => hPQ _ (h.queue entry hentry)⟩

theorem Each.enqueue (h : w.Each P) (ha : P a) : (w.enqueue a).Each P := by
  refine ⟨h.stored, fun entry hentry => ?_⟩
  rcases List.mem_append.mp hentry with hentry | hentry
  · exact h.queue entry hentry
  · obtain rfl := List.mem_singleton.mp hentry
    exact ha

theorem Each.unmarked (h : w.Each P) : w.unmarked.Each P := by
  refine ⟨h.stored, fun entry hentry => ?_⟩
  obtain ⟨old, hold, rfl⟩ := List.mem_map.mp hentry
  exact h.queue old hold

theorem Each.await (h : w.Each P) (ha : P a) : (w.await a).Each P := by
  refine ⟨h.stored, fun entry hentry => ?_⟩
  rcases List.mem_append.mp hentry with hentry | hentry
  · exact h.unmarked.queue entry hentry
  · obtain rfl := List.mem_singleton.mp hentry
    exact ha

theorem Each.done (h : w.Each P) (applied : Bool) : (w.done applied).Each P := by
  obtain ⟨stored, queue, landed⟩ := w
  cases queue with
  | nil => exact h
  | cons entry rest =>
    have hrest : ∀ entry ∈ rest, P entry.2 := fun e he => h.queue e (List.mem_cons_of_mem _ he)
    cases applied with
    | true => exact ⟨h.queue entry List.mem_cons_self, hrest⟩
    | false => exact ⟨h.stored, hrest⟩

/-! ## The awaited value -/

/-- From an awaited value on, the values to be written satisfy `P`. -/
def Behind (P : α → Prop) : List (Bool × α) → Prop
  | [] => True
  | (awaited, a) :: rest => (awaited = true → P a ∧ ∀ entry ∈ rest, P entry.2) ∧ Behind P rest

theorem behind_concat {queue : List (Bool × α)} (h : Behind P queue) {awaited : Bool} (ha : P a) :
    Behind P (queue ++ [(awaited, a)]) := by
  induction queue with
  | nil => exact ⟨fun _ => ⟨ha, by simp⟩, trivial⟩
  | cons entry rest ih =>
    refine ⟨fun hawaited => ⟨(h.1 hawaited).1, fun e he => ?_⟩, ih h.2⟩
    rcases List.mem_append.mp he with he | he
    · exact (h.1 hawaited).2 e he
    · obtain rfl := List.mem_singleton.mp he
      exact ha

theorem behind_unmarked (queue : List (Bool × α)) :
    Behind P (queue.map fun entry => (false, entry.2)) := by
  induction queue with
  | nil => trivial
  | cons entry rest ih => exact ⟨nofun, ih⟩

/-- When the awaited value has been written, `P` holds of the stored value and of every value to be
written. -/
structure Newer (P : α → Prop) (w : Writer α) : Prop where
  landed : w.landed = true → w.Each P
  behind : Behind P w.queue

theorem behind_mono {Q : α → Prop} (hPQ : ∀ a, P a → Q a) {queue : List (Bool × α)}
    (h : Behind P queue) : Behind Q queue := by
  induction queue with
  | nil => trivial
  | cons entry rest ih =>
    refine ⟨fun hawaited => ?_, ih h.2⟩
    obtain ⟨ha, hrest⟩ := h.1 hawaited
    exact ⟨hPQ _ ha, fun e he => hPQ _ (hrest e he)⟩

theorem Newer.mono {Q : α → Prop} (hPQ : ∀ a, P a → Q a) (h : w.Newer P) : w.Newer Q :=
  ⟨fun hlanded => (h.landed hlanded).mono hPQ, behind_mono hPQ h.behind⟩

theorem Newer.enqueue (h : w.Newer P) (ha : P a) : (w.enqueue a).Newer P :=
  ⟨fun hlanded => (h.landed hlanded).enqueue ha, behind_concat h.behind ha⟩

theorem newer_unmarked : w.unmarked.Newer P :=
  ⟨nofun, behind_unmarked w.queue⟩

theorem newer_await (ha : P a) : (w.await a).Newer P :=
  ⟨nofun, behind_concat (behind_unmarked w.queue) ha⟩

theorem Newer.done (h : w.Newer P) (applied : Bool) : (w.done applied).Newer P := by
  obtain ⟨stored, queue, landed⟩ := w
  cases queue with
  | nil => exact h
  | cons entry rest =>
    obtain ⟨awaited, a⟩ := entry
    cases applied with
    | false =>
      refine ⟨fun hlanded => ⟨(h.landed hlanded).stored, fun e he => ?_⟩, h.behind.2⟩
      exact (h.landed hlanded).queue e (List.mem_cons_of_mem _ he)
    | true =>
      refine ⟨fun hlanded => ?_, h.behind.2⟩
      rcases Bool.or_eq_true_iff.mp hlanded with hlanded | hawaited
      · have hall := h.landed hlanded
        exact ⟨hall.queue (awaited, a) List.mem_cons_self,
          fun e he => hall.queue e (List.mem_cons_of_mem _ he)⟩
      · exact ⟨(h.behind.1 hawaited).1, (h.behind.1 hawaited).2⟩

end Writer

end LinkSuffix.Lib
