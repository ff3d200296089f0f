import Mathlib.Data.List.Induction

/-!
# Runs of an event system

An event system answers every event in every state: a next state and a reply. A run is a list of
events, and every state a run passes through is the end of a shorter run, so a property of every
reachable state is a property of `run s es` for every `es`.

* `Along G s es`: every event of the run fires in a state that meets the guard `G`.
* `run_inv`: the invariant rule under a guard.
* `collect`: what the events of a run contribute, in order (a log read off the run).
* `history_inv`: the invariant rule for a relation between the events so far and the state.
-/

namespace LinkSuffix.Lib

/-- An event system: one outcome for every event in every state. -/
structure EventSystem (σ ε ρ : Type) where
  step : σ → ε → σ × ρ

namespace EventSystem

variable {σ ε ρ : Type} (M : EventSystem σ ε ρ)

/-- The state after one event. -/
def next (s : σ) (e : ε) : σ := (M.step s e).1

/-- The reply to one event. -/
def reply (s : σ) (e : ε) : ρ := (M.step s e).2

/-- The state after a list of events. -/
def run (s : σ) (es : List ε) : σ := es.foldl M.next s

@[simp] theorem run_nil (s : σ) : M.run s [] = s := rfl

@[simp] theorem run_cons (s : σ) (e : ε) (es : List ε) :
    M.run s (e :: es) = M.run (M.next s e) es := rfl

theorem run_append (s : σ) (es fs : List ε) : M.run s (es ++ fs) = M.run (M.run s es) fs :=
  List.foldl_append

@[simp] theorem run_concat (s : σ) (es : List ε) (e : ε) :
    M.run s (es ++ [e]) = M.next (M.run s es) e :=
  M.run_append s es [e]

/-! ## Guarded runs -/

/-- Every event of the run fires in a state that meets the guard. -/
def Along (G : σ → ε → Prop) : σ → List ε → Prop
  | _, [] => True
  | s, e :: es => G s e ∧ Along G (M.next s e) es

instance decidableAlong (G : σ → ε → Prop) [∀ s e, Decidable (G s e)] :
    ∀ s es, Decidable (M.Along G s es)
  | _, [] => isTrue trivial
  | s, e :: es =>
    have := decidableAlong G (M.next s e) es
    inferInstanceAs (Decidable (G s e ∧ Along M G (M.next s e) es))

variable {M}
variable {G H : σ → ε → Prop} {s : σ} {es fs : List ε} {e : ε}

theorem along_append :
    M.Along G s (es ++ fs) ↔ M.Along G s es ∧ M.Along G (M.run s es) fs := by
  induction es generalizing s with
  | nil => simp [Along]
  | cons e es ih => simp only [List.cons_append, Along, ih, run_cons, and_assoc]

theorem along_concat :
    M.Along G s (es ++ [e]) ↔ M.Along G s es ∧ G (M.run s es) e := by
  rw [along_append]
  simp [Along]

theorem Along.mono (hGH : ∀ s e, G s e → H s e) (h : M.Along G s es) : M.Along H s es := by
  induction es generalizing s with
  | nil => trivial
  | cons e es ih => exact ⟨hGH s e h.1, ih h.2⟩

theorem Along.and (hG : M.Along G s es) (hH : M.Along H s es) :
    M.Along (fun s e => G s e ∧ H s e) s es := by
  induction es generalizing s with
  | nil => trivial
  | cons e es ih => exact ⟨⟨hG.1, hH.1⟩, ih hG.2 hH.2⟩

theorem along_true : M.Along (fun _ _ => True) s es := by
  induction es generalizing s with
  | nil => trivial
  | cons e es ih => exact ⟨trivial, ih⟩

/-- The guard holds where an event of the run fires. -/
theorem Along.at (h : M.Along G s (es ++ e :: fs)) : G (M.run s es) e :=
  (along_append.mp h).2.1

theorem Along.before (h : M.Along G s (es ++ fs)) : M.Along G s es :=
  (along_append.mp h).1

/-- A guard met at every split of the run is met along it. -/
theorem along_of_split (h : ∀ pre e post, es = pre ++ e :: post → G (M.run s pre) e) :
    M.Along G s es := by
  induction es generalizing s with
  | nil => trivial
  | cons e es ih =>
    refine ⟨h [] e es rfl, ih fun pre f post he => ?_⟩
    exact h (e :: pre) f post (by rw [he]; rfl)

/-! ## Invariants -/

/-- **The invariant rule**: what every guarded event keeps holds at the end of the run. -/
theorem run_inv {P : σ → Prop} (h0 : P s) (hstep : ∀ s e, P s → G s e → P (M.next s e))
    (h : M.Along G s es) : P (M.run s es) := by
  induction es generalizing s with
  | nil => exact h0
  | cons e es ih => exact ih (hstep s e h0 h.1) h.2

/-- The invariant rule with no guard. -/
theorem run_inv_true {P : σ → Prop} (h0 : P s) (hstep : ∀ s e, P s → P (M.next s e)) :
    P (M.run s es) :=
  have h : M.Along (fun _ _ => True) s es := along_true
  run_inv h0 (fun s e hs _ => hstep s e hs) h

/-- What an invariant implies of every event holds along the run. -/
theorem along_of_inv {P : σ → Prop} (h0 : P s) (hstep : ∀ s e, P s → G s e → P (M.next s e))
    (hP : ∀ s e, P s → G s e → H s e) (h : M.Along G s es) : M.Along H s es := by
  induction es generalizing s with
  | nil => trivial
  | cons e es ih => exact ⟨hP s e h0 h.1, ih (hstep s e h0 h.1) h.2⟩

/-- Under an invariant that the guard keeps, two guards equivalent where it holds select the same
runs. -/
theorem along_iff_of_inv {P : σ → Prop} (h0 : P s)
    (hstep : ∀ s e, P s → G s e → P (M.next s e)) (hiff : ∀ s e, P s → (G s e ↔ H s e)) :
    M.Along G s es ↔ M.Along H s es := by
  induction es generalizing s with
  | nil => rfl
  | cons e es ih =>
    have hhere : G s e ↔ H s e := hiff s e h0
    constructor
    · rintro ⟨hG, hrest⟩
      exact ⟨hhere.mp hG, (ih (hstep s e h0 hG)).mp hrest⟩
    · rintro ⟨hH, hrest⟩
      have hG : G s e := hhere.mpr hH
      exact ⟨hG, (ih (hstep s e h0 hG)).mpr hrest⟩

/-- **The history rule**: a relation between the events so far and the state. -/
theorem history_inv {P : List ε → σ → Prop} (h0 : P [] s)
    (hstep : ∀ es e, M.Along G s (es ++ [e]) → P es (M.run s es) →
      P (es ++ [e]) (M.next (M.run s es) e))
    (h : M.Along G s es) : P es (M.run s es) := by
  induction es using List.reverseRecOn with
  | nil => exact h0
  | append_singleton es e ih =>
    rw [run_concat]
    exact hstep es e h (ih h.before)

/-! ## Logs -/

variable {β : Type}

/-- What the events of a run contribute, in order. -/
def collect (M : EventSystem σ ε ρ) (f : σ → ε → List β) : σ → List ε → List β
  | _, [] => []
  | s, e :: es => f s e ++ collect M f (M.next s e) es

theorem collect_append (f : σ → ε → List β) :
    M.collect f s (es ++ fs) = M.collect f s es ++ M.collect f (M.run s es) fs := by
  induction es generalizing s with
  | nil => rfl
  | cons e es ih => simp only [List.cons_append, collect, ih, run_cons, List.append_assoc]

@[simp] theorem collect_concat (f : σ → ε → List β) :
    M.collect f s (es ++ [e]) = M.collect f s es ++ f (M.run s es) e := by
  rw [collect_append]
  simp [collect]

/-- Every entry of the log was contributed by one event, in the state the run had then. -/
theorem mem_collect {f : σ → ε → List β} {b : β} :
    b ∈ M.collect f s es ↔ ∃ pre e post, es = pre ++ e :: post ∧ b ∈ f (M.run s pre) e := by
  induction es generalizing s with
  | nil => simp [collect]
  | cons e es ih =>
    rw [collect, List.mem_append, ih]
    constructor
    · rintro (h | ⟨pre, g, post, he, h⟩)
      · exact ⟨[], e, es, rfl, h⟩
      · exact ⟨e :: pre, g, post, by rw [he]; rfl, h⟩
    · rintro ⟨pre, g, post, he, h⟩
      cases pre with
      | nil =>
        obtain ⟨rfl, rfl⟩ := List.cons.inj he
        exact Or.inl h
      | cons d pre =>
        obtain ⟨rfl, rfl⟩ := List.cons.inj he
        exact Or.inr ⟨pre, g, post, rfl, h⟩

end EventSystem

end LinkSuffix.Lib
