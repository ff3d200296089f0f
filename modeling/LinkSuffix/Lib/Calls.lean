import LinkSuffix.Lib.Run

/-!
# Calls over one shared state

Asynchronous calls run over one shared state. A call is suspended before each of its steps; any call
may take its next step, and inputs from outside change the shared state or start a call.

* `CallSystem`: what an input and what a step of a call does.
* `CallSystem.events`: the interleavings, as an event system.
* `next_cases`: everything an event can do.
-/

namespace LinkSuffix.Lib

/-- A call among the others. -/
theorem mem_middle {κ : Type} {before after : List κ} {call other : κ} :
    other ∈ before ++ call :: after ↔ other = call ∨ other ∈ before ++ after := by
  rw [List.mem_append, List.mem_cons, List.mem_append]
  constructor
  · rintro (h | h | h)
    · exact Or.inr (Or.inl h)
    · exact Or.inl h
    · exact Or.inr (Or.inr h)
  · rintro (h | h | h)
    · exact Or.inr (Or.inl h)
    · exact Or.inl h
    · exact Or.inr (Or.inr h)

/-- The shared state and the calls, each at the step it takes next. -/
structure InFlight (σ κ : Type) where
  shared : σ
  calls : List κ

/-- What the inputs and the steps do. `accept` sees the calls, `resume` only the shared state. -/
structure CallSystem (σ κ ι : Type) where
  accept : InFlight σ κ → ι → σ × Option κ
  resume : σ → κ → σ × κ

/-- An input, or the next step of the `n`-th call. -/
inductive CallEvent (ι : Type) where
  | input (i : ι)
  | resume (n : Nat)
  deriving DecidableEq

namespace CallSystem

variable {σ κ ι : Type} (S : CallSystem σ κ ι)

/-- The next step of the `n`-th call. -/
def resumeAt (s : InFlight σ κ) (n : Nat) : InFlight σ κ :=
  match s.calls[n]? with
  | none => s
  | some call => ⟨(S.resume s.shared call).1, s.calls.set n (S.resume s.shared call).2⟩

/-- One event. -/
def step (s : InFlight σ κ) : CallEvent ι → InFlight σ κ
  | .input i => ⟨(S.accept s i).1, s.calls ++ (S.accept s i).2.toList⟩
  | .resume n => S.resumeAt s n

/-- The interleavings. -/
def events : EventSystem (InFlight σ κ) (CallEvent ι) Unit where
  step s e := (S.step s e, ())

/-- **What an event can do**: nothing, an input, or a step of one call. -/
inductive Next (s : InFlight σ κ) : CallEvent ι → InFlight σ κ → Prop
  | idle (n : Nat) : Next s (.resume n) s
  | input (i : ι) : Next s (.input i) ⟨(S.accept s i).1, s.calls ++ (S.accept s i).2.toList⟩
  | resume (n : Nat) (before after : List κ) (call : κ) (hcall : s.calls[n]? = some call)
      (hcalls : s.calls = before ++ call :: after) :
      Next s (.resume n) ⟨(S.resume s.shared call).1, before ++ (S.resume s.shared call).2 :: after⟩

theorem split_set {calls : List κ} {n : Nat} {call : κ} (h : calls[n]? = some call) (call' : κ) :
    ∃ before after, calls = before ++ call :: after ∧
      calls.set n call' = before ++ call' :: after := by
  obtain ⟨hn, rfl⟩ := List.getElem?_eq_some_iff.mp h
  refine ⟨calls.take n, calls.drop (n + 1), ?_, List.set_eq_take_append_cons_drop.trans (if_pos hn)⟩
  rw [List.getElem_cons_drop, List.take_append_drop]

theorem next_cases (s : InFlight σ κ) (e : CallEvent ι) : S.Next s e (S.events.next s e) := by
  cases e with
  | input i => exact .input i
  | resume n =>
    show S.Next s (.resume n) (S.resumeAt s n)
    cases hcall : s.calls[n]? with
    | none =>
      have hidle : S.resumeAt s n = s := by simp [resumeAt, hcall]
      rw [hidle]
      exact .idle n
    | some call =>
      obtain ⟨before, after, hcalls, hset⟩ := split_set hcall (S.resume s.shared call).2
      have hstep : S.resumeAt s n =
          ⟨(S.resume s.shared call).1, before ++ (S.resume s.shared call).2 :: after⟩ := by
        simp [resumeAt, hcall, hset]
      rw [hstep]
      exact .resume n before after call hcall hcalls

variable {S} {s : InFlight σ κ}

/-- A step of a call that is there. -/
theorem next_resume {n : Nat} {call : κ} (h : s.calls[n]? = some call) :
    S.events.next s (.resume n) =
      ⟨(S.resume s.shared call).1, s.calls.set n (S.resume s.shared call).2⟩ := by
  show S.resumeAt s n = _
  simp [resumeAt, h]

/-- Where the call is after its step. -/
theorem next_resume_call {n : Nat} {call : κ} (h : s.calls[n]? = some call) :
    (S.events.next s (.resume n)).calls[n]? = some (S.resume s.shared call).2 := by
  rw [next_resume h]
  exact List.getElem?_set_self (List.getElem?_eq_some_iff.mp h).1

end CallSystem

end LinkSuffix.Lib
