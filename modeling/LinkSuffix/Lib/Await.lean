import LinkSuffix.Lib.Calls

/-!
# Calls suspended at an await

The calls of one single-threaded program over its state. A call is kept at the point where it
awaits; what it awaits answers, and the call then runs to its next await without interruption. That
piece may also start other calls, each run to its first await.

* `AwaitSystem`: what an input and an answer make the program do.
* `AwaitSystem.events`: the interleavings at await points, as an event system.
* `next_cases`: everything an event can do.
-/

namespace LinkSuffix.Lib

/-- What one uninterrupted piece of the program leaves: the state, the calls it suspends, and what
it shows outside. -/
structure Piece (σ κ ρ : Type) where
  state : σ
  calls : List κ := []
  reply : ρ

/-- A program: what it does with an input, and with the answer to a suspended call. -/
structure AwaitSystem (σ κ ι ω ρ : Type) where
  accept : σ → ι → Piece σ κ ρ
  resume : σ → κ → ω → Piece σ κ ρ
  silent : ρ

/-- An input, or the answer to the `n`-th suspended call. -/
inductive AwaitEvent (ι ω : Type) where
  | input (i : ι)
  | answer (n : Nat) (a : ω)

namespace AwaitSystem

variable {σ κ ι ω ρ : Type} (S : AwaitSystem σ κ ι ω ρ)

/-- One event. -/
def step (s : InFlight σ κ) : AwaitEvent ι ω → InFlight σ κ × ρ
  | .input i =>
    let piece := S.accept s.shared i
    (⟨piece.state, s.calls ++ piece.calls⟩, piece.reply)
  | .answer n a =>
    match s.calls[n]? with
    | none => (s, S.silent)
    | some call =>
      let piece := S.resume s.shared call a
      (⟨piece.state, s.calls.eraseIdx n ++ piece.calls⟩, piece.reply)

/-- The interleavings. -/
def events : EventSystem (InFlight σ κ) (AwaitEvent ι ω) ρ where
  step := S.step

/-- **What an event can do**: nothing, an input, or one piece of a suspended call. -/
inductive Next (s : InFlight σ κ) : AwaitEvent ι ω → InFlight σ κ → Prop
  | idle (n : Nat) (a : ω) (h : s.calls[n]? = none) : Next s (.answer n a) s
  | input (i : ι) :
      Next s (.input i) ⟨(S.accept s.shared i).state, s.calls ++ (S.accept s.shared i).calls⟩
  | answer (n : Nat) (a : ω) (call : κ) (hcall : s.calls[n]? = some call) :
      Next s (.answer n a) ⟨(S.resume s.shared call a).state,
        s.calls.eraseIdx n ++ (S.resume s.shared call a).calls⟩

theorem next_cases (s : InFlight σ κ) (e : AwaitEvent ι ω) :
    S.Next s e (S.events.next s e) := by
  cases e with
  | input i => exact .input i
  | answer n a =>
    show S.Next s (.answer n a) (S.step s (.answer n a)).1
    cases hcall : s.calls[n]? with
    | none =>
      have hidle : S.step s (.answer n a) = (s, S.silent) := by simp [step, hcall]
      rw [hidle]
      exact .idle n a hcall
    | some call =>
      have hstep : (S.step s (.answer n a)).1 = ⟨(S.resume s.shared call a).state,
          s.calls.eraseIdx n ++ (S.resume s.shared call a).calls⟩ := by simp [step, hcall]
      rw [hstep]
      exact .answer n a call hcall

variable {S} {s : InFlight σ κ}

theorem next_answer {n : Nat} {a : ω} {call : κ} (h : s.calls[n]? = some call) :
    S.events.next s (.answer n a) = ⟨(S.resume s.shared call a).state,
      s.calls.eraseIdx n ++ (S.resume s.shared call a).calls⟩ := by
  show (S.step s (.answer n a)).1 = _
  simp [step, h]

/-- The calls around the one that was answered. -/
theorem split_eraseIdx {calls : List κ} {n : Nat} {call : κ} (h : calls[n]? = some call) :
    ∃ before after, calls = before ++ call :: after ∧ calls.eraseIdx n = before ++ after := by
  obtain ⟨hn, rfl⟩ := List.getElem?_eq_some_iff.mp h
  refine ⟨calls.take n, calls.drop (n + 1), ?_, List.eraseIdx_eq_take_drop_succ calls n⟩
  rw [List.getElem_cons_drop, List.take_append_drop]

/-- The call that was answered is gone; the others are still suspended. -/
theorem mem_eraseIdx_append {calls : List κ} {n : Nat} {started : List κ} {call : κ}
    (h : call ∈ calls.eraseIdx n ++ started) : call ∈ calls ∨ call ∈ started := by
  rcases List.mem_append.mp h with h | h
  · exact Or.inl (List.mem_of_mem_eraseIdx h)
  · exact Or.inr h

end AwaitSystem

end LinkSuffix.Lib
