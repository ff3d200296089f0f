/-!
# Computations that may fail

How a computation in `Except` succeeds.

* `bind_eq_ok`: a sequence succeeds when its first part does and the rest succeeds on its result.
* `map_eq_ok`: a changed result is one of a success.
* `ite_throw_eq_ok`: a check passes, and the rest succeeds.
* `mapM_eq_ok`: a list of computations succeeds when each of them does. `mapM_exists`.
-/

namespace LinkSuffix.Lib

variable {ε α β : Type}

theorem bind_eq_ok {x : Except ε α} {f : α → Except ε β} {b : β} :
    (x >>= f) = .ok b ↔ ∃ a, x = .ok a ∧ f a = .ok b := by
  cases x with
  | error error =>
    constructor
    · intro h
      cases h
    · rintro ⟨a, h, -⟩
      cases h
  | ok a =>
    constructor
    · exact fun h => ⟨a, rfl, h⟩
    · rintro ⟨a', h, hb⟩
      obtain rfl := Except.ok.inj h
      exact hb

theorem pure_eq_ok {a b : α} : (pure a : Except ε α) = .ok b ↔ a = b := by
  constructor
  · intro h
    exact Except.ok.inj h
  · rintro rfl
    rfl

/-- A result that is changed on success. -/
theorem map_eq_ok {x : Except ε α} {f : α → β} {b : β} :
    x.map f = .ok b ↔ ∃ a, x = .ok a ∧ f a = b := by
  cases x with
  | error error =>
    constructor
    · intro h
      cases h
    · rintro ⟨a, h, -⟩
      cases h
  | ok a =>
    constructor
    · exact fun h => ⟨a, rfl, Except.ok.inj h⟩
    · rintro ⟨a', h, rfl⟩
      obtain rfl := Except.ok.inj h
      rfl

/-- A check that throws, and what follows it. -/
theorem ite_throw_eq_ok {c : Prop} [Decidable c] {error : ε} {f : PUnit → Except ε β} {b : β} :
    (if c then throw error >>= f else f ⟨⟩) = .ok b ↔ ¬c ∧ f ⟨⟩ = .ok b := by
  by_cases hc : c
  · rw [if_pos hc]
    constructor
    · intro h
      cases h
    · exact fun h => absurd hc h.1
  · rw [if_neg hc]
    exact ⟨fun h => ⟨hc, h⟩, fun h => h.2⟩

/-- A list of computations succeeds when each of them does. -/
theorem mapM_eq_ok {f : α → Except ε β} {xs : List α} {ys : List β} :
    xs.mapM f = .ok ys ↔ xs.map f = ys.map .ok := by
  induction xs generalizing ys with
  | nil =>
    rw [List.mapM_nil, pure_eq_ok, List.map_nil]
    constructor
    · rintro rfl
      rfl
    · intro h
      exact (List.map_eq_nil_iff.mp h.symm).symm
  | cons x xs ih =>
    rw [List.mapM_cons, bind_eq_ok, List.map_cons]
    constructor
    · rintro ⟨y, hy, hrest⟩
      obtain ⟨zs, hzs, hpure⟩ := bind_eq_ok.mp hrest
      obtain rfl := pure_eq_ok.mp hpure
      rw [hy, ih.mp hzs]
      rfl
    · intro h
      cases ys with
      | nil => cases h
      | cons y zs =>
        obtain ⟨hy, hzs⟩ := List.cons.inj h
        exact ⟨y, hy, bind_eq_ok.mpr ⟨zs, ih.mpr hzs, rfl⟩⟩

/-- What every one of them can give, the list gives. -/
theorem mapM_exists {f : α → Except ε β} {P : β → Prop} {xs : List α}
    (h : ∀ x ∈ xs, ∃ y, f x = .ok y ∧ P y) :
    ∃ ys, xs.mapM f = .ok ys ∧ ys.length = xs.length ∧ ∀ y ∈ ys, P y := by
  induction xs with
  | nil => exact ⟨[], rfl, rfl, nofun⟩
  | cons x xs ih =>
    obtain ⟨y, hy, hP⟩ := h x List.mem_cons_self
    obtain ⟨ys, hys, hlength, hall⟩ := ih fun z hz => h z (List.mem_cons_of_mem _ hz)
    refine ⟨y :: ys, ?_, congrArg (· + 1) hlength, List.forall_mem_cons.mpr ⟨hP, hall⟩⟩
    rw [List.mapM_cons, hy, hys]
    rfl

end LinkSuffix.Lib
