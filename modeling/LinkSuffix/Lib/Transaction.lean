import Mathlib.Logic.Relation

/-!
# Transactions as statement programs

A transaction body is a program of statements (`Prog`). Each statement runs on the transaction's
view of the store and may fail; a failure rolls the transaction back. Two meanings are given:

* `run`: the statements run one after another with nothing in between;
* `wp R`: before every statement, and before the commit, other transactions may have committed
  (READ COMMITTED), which changes the view by any number of steps of the rely relation `R`.

`Serial` puts the second meaning to work: programs that hold one exclusive lock run one at a time,
while lock-free transactions commit freely between their statements. `Serial.reach_inv` is the
rule for an invariant of the committed store.
-/

namespace LinkSuffix.Lib

/-- A transaction body: statements on the view of the store, each able to fail. -/
inductive Prog (σ ε α : Type) : Type 1 where
  | ret (a : α)
  | stmt {β : Type} (f : σ → Except ε (β × σ)) (k : β → Prog σ ε α)

namespace Prog

variable {σ ε α β : Type}

protected def bind : Prog σ ε α → (α → Prog σ ε β) → Prog σ ε β
  | ret a, k => k a
  | stmt f g, k => stmt f fun b => (g b).bind k

instance : Monad (Prog σ ε) where
  pure := ret
  bind := Prog.bind

/-- One statement. -/
def exec (f : σ → Except ε (α × σ)) : Prog σ ε α := stmt f ret

/-- A statement that only reads. -/
def query (f : σ → α) : Prog σ ε α := exec fun s => .ok (f s, s)

/-- A statement that only writes. -/
def update (f : σ → σ) : Prog σ ε Unit := exec fun s => .ok ((), f s)

/-- Throw: the transaction rolls back. -/
def throw (e : ε) : Prog σ ε α := exec fun _ => .error e

/-- The value, or the error thrown. -/
def lift : Except ε α → Prog σ ε α
  | .ok a => ret a
  | .error e => throw e

/-- Throw `e` unless the condition holds. -/
def require (c : Prop) [Decidable c] (e : ε) : Prog σ ε Unit := if c then ret () else throw e

/-! ## Running a program by itself -/

/-- Run the statements one after another; the first failure is the result. -/
def run : Prog σ ε α → σ → Except ε (α × σ)
  | ret a, s => .ok (a, s)
  | stmt f k, s =>
    match f s with
    | .ok (b, s') => (k b).run s'
    | .error e => .error e

theorem run_bind_ok {p : Prog σ ε α} {k : α → Prog σ ε β} {s : σ} {r : β × σ} :
    (p >>= k).run s = .ok r ↔ ∃ a s1, p.run s = .ok (a, s1) ∧ (k a).run s1 = .ok r := by
  show (p.bind k).run s = .ok r ↔ _
  induction p generalizing s with
  | ret a =>
    simp only [Prog.bind, run, Except.ok.injEq, Prod.mk.injEq]
    constructor
    · exact fun h => ⟨a, s, ⟨rfl, rfl⟩, h⟩
    · rintro ⟨_, _, ⟨rfl, rfl⟩, h⟩
      exact h
  | stmt f g ih =>
    simp only [Prog.bind, run]
    cases hf : f s with
    | error e => simp
    | ok bs => exact ih bs.1

/-- A program that fails has failed in its first part or after it. -/
theorem run_bind_error {p : Prog σ ε α} {k : α → Prog σ ε β} {s : σ} {e : ε}
    (h : (p >>= k).run s = .error e) :
    p.run s = .error e ∨ ∃ a s1, p.run s = .ok (a, s1) ∧ (k a).run s1 = .error e := by
  change (p.bind k).run s = .error e at h
  induction p generalizing s with
  | ret a => exact Or.inr ⟨a, s, rfl, h⟩
  | stmt f g ih =>
    simp only [Prog.bind, run] at h ⊢
    cases hf : f s with
    | error e' =>
      rw [hf] at h
      obtain rfl := Except.error.inj h
      exact Or.inl rfl
    | ok bs =>
      rw [hf] at h
      exact ih bs.1 h

@[simp] theorem run_pure (a : α) (s : σ) : (pure a : Prog σ ε α).run s = .ok (a, s) := rfl

@[simp] theorem run_query (f : σ → α) (s : σ) :
    (query f : Prog σ ε α).run s = .ok (f s, s) := rfl

@[simp] theorem run_update (f : σ → σ) (s : σ) :
    (update f : Prog σ ε Unit).run s = .ok ((), f s) := rfl

@[simp] theorem run_throw (e : ε) (s : σ) : (throw e : Prog σ ε α).run s = .error e := rfl

theorem run_lift_ok {r : Except ε α} {a : α} {s s' : σ} :
    (lift r : Prog σ ε α).run s = .ok (a, s') ↔ r = .ok a ∧ s = s' := by
  cases r with
  | error e => simp [lift]
  | ok b => simp [lift, run]

theorem run_exec_ok {f : σ → Except ε (α × σ)} {s : σ} {r : α × σ} :
    (exec f).run s = .ok r ↔ f s = .ok r := by
  simp only [exec, run]
  cases f s with
  | error e => simp
  | ok bs => simp

theorem run_require_ok {c : Prop} [Decidable c] {e : ε} {s : σ} {r : Unit × σ} :
    (require c e : Prog σ ε Unit).run s = .ok r ↔ c ∧ r = ((), s) := by
  unfold require
  split
  · rename_i hc
    simp [run, hc, eq_comm]
  · rename_i hc
    simp [hc]

/-! ## Running a program among other transactions -/

/-- `Q` holds when the program commits, whatever steps of `R` change the view before each
statement and before the commit. -/
def wp (R : σ → σ → Prop) : Prog σ ε α → (α → σ → Prop) → σ → Prop
  | ret a, Q, s => ∀ s', Relation.ReflTransGen R s s' → Q a s'
  | stmt f k, Q, s => ∀ s1, Relation.ReflTransGen R s s1 →
      ∀ b s2, f s1 = .ok (b, s2) → (k b).wp R Q s2

variable {R : σ → σ → Prop} {s : σ}

theorem wp_mono {p : Prog σ ε α} {Q Q' : α → σ → Prop} (hQ : ∀ a s, Q a s → Q' a s)
    (h : p.wp R Q s) : p.wp R Q' s := by
  induction p generalizing s with
  | ret a => exact fun s' hs' => hQ a s' (h s' hs')
  | stmt f k ih => exact fun s1 h1 b s2 hf => ih b (h s1 h1 b s2 hf)

/-- The sequencing rule. -/
theorem wp_bind {p : Prog σ ε α} {k : α → Prog σ ε β} {Q : β → σ → Prop}
    (h : p.wp R (fun a s' => (k a).wp R Q s') s) : (p >>= k).wp R Q s := by
  show (p.bind k).wp R Q s
  induction p generalizing s with
  | ret a => exact h s .refl
  | stmt f g ih => exact fun s1 h1 b s2 hf => ih b (h s1 h1 b s2 hf)

theorem wp_ret {a : α} {Q : α → σ → Prop} (h : (ret a : Prog σ ε α).wp R Q s) : Q a s :=
  h s .refl

theorem wp_stmt {f : σ → Except ε (β × σ)} {k : β → Prog σ ε α} {Q : α → σ → Prop} {b : β}
    {s' : σ} (hf : f s = .ok (b, s')) (h : (stmt f k).wp R Q s) : (k b).wp R Q s' :=
  h s .refl b s' hf

/-- A step of another transaction before the program starts changes nothing. -/
theorem wp_step {p : Prog σ ε α} {Q : α → σ → Prop} {s' : σ} (hs : R s s') (h : p.wp R Q s) :
    p.wp R Q s' := by
  cases p with
  | ret a => exact fun s'' hs'' => h s'' (.head hs hs'')
  | stmt f k => exact fun s1 h1 => h s1 (.head hs h1)

/-- What holds among other transactions holds of the program run by itself. -/
theorem run_of_wp {p : Prog σ ε α} {Q : α → σ → Prop} {a : α} {s' : σ} (h : p.wp R Q s)
    (hr : p.run s = .ok (a, s')) : Q a s' := by
  induction p generalizing s with
  | ret b =>
    obtain ⟨rfl, rfl⟩ := Prod.mk.inj (Except.ok.inj hr)
    exact h s .refl
  | stmt f k ih =>
    simp only [run] at hr
    cases hf : f s with
    | error e => exact absurd hr (by simp [hf])
    | ok bs =>
      rw [hf] at hr
      exact ih bs.1 (h s .refl bs.1 bs.2 hf) hr

/-- A condition the rely relation keeps. -/
def Stable (R : σ → σ → Prop) (P : σ → Prop) : Prop := ∀ s s', R s s' → P s → P s'

theorem Stable.star {P : σ → Prop} (hP : Stable R P) {s s' : σ}
    (h : Relation.ReflTransGen R s s') (hs : P s) : P s' := by
  induction h with
  | refl => exact hs
  | tail _ hst ih => exact hP _ _ hst ih

theorem wp_pure {P : σ → Prop} {Q : α → σ → Prop} {a : α} (hP : Stable R P) (hs : P s)
    (h : ∀ s, P s → Q a s) : (pure a : Prog σ ε α).wp R Q s :=
  fun _ hs' => h _ (hP.star hs' hs)

/-- The statement rule: the precondition is stable, the statement establishes a stable
postcondition. -/
theorem wp_exec {P : σ → Prop} {Q : α → σ → Prop} {f : σ → Except ε (α × σ)} (hP : Stable R P)
    (hQ : ∀ a, Stable R (Q a)) (hs : P s) (h : ∀ s a s', P s → f s = .ok (a, s') → Q a s') :
    (exec f).wp R Q s :=
  fun _ h1 a _ hf _ h3 => (hQ a).star h3 (h _ a _ (hP.star h1 hs) hf)

theorem wp_query {P : σ → Prop} {f : σ → α} (hP : Stable R P) (hs : P s) :
    (query f : Prog σ ε α).wp R (fun _ s' => P s') s :=
  wp_exec hP (fun _ => hP) hs fun s a s' hPs hf => by
    simp only [Except.ok.injEq, Prod.mk.injEq] at hf
    exact hf.2 ▸ hPs

theorem wp_update {P : σ → Prop} {Q : Unit → σ → Prop} {f : σ → σ} (hP : Stable R P)
    (hQ : ∀ a, Stable R (Q a)) (hs : P s) (h : ∀ s, P s → Q () (f s)) :
    (update f : Prog σ ε Unit).wp R Q s :=
  wp_exec hP hQ hs fun s a s' hPs hf => by
    simp only [Except.ok.injEq, Prod.mk.injEq] at hf
    exact hf.2 ▸ h s hPs

theorem wp_lift {P : σ → Prop} {r : Except ε α} (hP : Stable R P) (hs : P s) :
    (lift r : Prog σ ε α).wp R (fun a s' => r = .ok a ∧ P s') s := by
  cases r with
  | ok a => exact fun _ hs' => ⟨rfl, hP.star hs' hs⟩
  | error e => exact fun _ _ _ _ hf => absurd hf (by simp)

theorem wp_throw {Q : α → σ → Prop} {e : ε} : (throw e : Prog σ ε α).wp R Q s :=
  fun _ _ _ _ hf => absurd hf (by simp)

theorem wp_require {P : σ → Prop} {c : Prop} [Decidable c] {e : ε} (hP : Stable R P) (hs : P s) :
    (require c e : Prog σ ε Unit).wp R (fun _ s' => c ∧ P s') s := by
  unfold require
  split
  · rename_i hc
    exact fun _ hs' => ⟨hc, hP.star hs' hs⟩
  · exact wp_throw

/-! ## Programs that keep a condition -/

/-- Whatever other transactions do, the program keeps `I`. -/
def Keeps (R : σ → σ → Prop) (I : σ → Prop) (p : Prog σ ε α) : Prop :=
  ∀ s, I s → p.wp R (fun _ s' => I s') s

variable {I : σ → Prop}

theorem keeps_pure (hI : Stable R I) (a : α) : (pure a : Prog σ ε α).Keeps R I :=
  fun _ hs => wp_pure hI hs fun _ h => h

theorem keeps_bind {p : Prog σ ε α} {k : α → Prog σ ε β} (hp : p.Keeps R I)
    (hk : ∀ a, (k a).Keeps R I) : (p >>= k).Keeps R I :=
  fun s hs => wp_bind (wp_mono (fun a s' hs' => hk a s' hs') (hp s hs))

theorem keeps_query (hI : Stable R I) (f : σ → α) : (query f : Prog σ ε α).Keeps R I :=
  fun _ hs => wp_query hI hs

theorem keeps_exec (hI : Stable R I) {f : σ → Except ε (α × σ)}
    (h : ∀ s a s', I s → f s = .ok (a, s') → I s') : (exec f).Keeps R I :=
  fun _ hs => wp_exec hI (fun _ => hI) hs h

theorem keeps_update (hI : Stable R I) {f : σ → σ} (h : ∀ s, I s → I (f s)) :
    (update f : Prog σ ε Unit).Keeps R I :=
  fun _ hs => wp_update hI (fun _ => hI) hs h

theorem keeps_throw (e : ε) : (throw e : Prog σ ε α).Keeps R I := fun _ _ => wp_throw

theorem keeps_lift (hI : Stable R I) (r : Except ε α) : (lift r : Prog σ ε α).Keeps R I :=
  fun _ hs => wp_mono (fun _ _ h => h.2) (wp_lift hI hs)

theorem keeps_require (hI : Stable R I) (c : Prop) [Decidable c] (e : ε) :
    (require c e : Prog σ ε Unit).Keeps R I :=
  fun _ hs => wp_mono (fun _ _ h => h.2) (wp_require hI hs)

theorem keeps_ite {c : Prop} [Decidable c] {p q : Prog σ ε α} (hp : p.Keeps R I)
    (hq : q.Keeps R I) : (if c then p else q).Keeps R I := by
  split
  · exact hp
  · exact hq

/-- The rely relation of a program that runs by itself. -/
def Alone : σ → σ → Prop := fun _ _ => False

theorem stable_alone : Stable Alone I := fun _ _ h => h.elim

/-- A program that keeps `I` keeps it when run by itself. -/
theorem Keeps.run {p : Prog σ ε α} (h : p.Keeps Alone I) {s s' : σ} {a : α} (hs : I s)
    (hr : p.run s = .ok (a, s')) : I s' :=
  run_of_wp (h s hs) hr

end Prog

/-! ## One lock holder among lock-free transactions -/

/-- The committed store, and the transaction holding the lock, if any: the rest of its program
and its own view (the committed store under its uncommitted writes). -/
structure Serial (σ ε α : Type) : Type 1 where
  committed : σ
  holder : Option (Prog σ ε α × σ)

namespace Serial

variable {σ ε α : Type}

/-- One step of the interleaving. A lock-free transaction commits whole; READ COMMITTED shows its
effect to the lock holder's next statement, so it changes both stores. -/
inductive Step (locked : Prog σ ε α → Prop) (free : (σ → σ) → Prop) :
    Serial σ ε α → Serial σ ε α → Prop
  | begin {c : σ} {p : Prog σ ε α} (hp : locked p) : Step locked free ⟨c, none⟩ ⟨c, some (p, c)⟩
  | stmt {c w w' : σ} {β : Type} {b : β} {f : σ → Except ε (β × σ)} {k : β → Prog σ ε α}
      (hf : f w = .ok (b, w')) : Step locked free ⟨c, some (.stmt f k, w)⟩ ⟨c, some (k b, w')⟩
  | rollback {c w : σ} {β : Type} {e : ε} {f : σ → Except ε (β × σ)} {k : β → Prog σ ε α}
      (hf : f w = .error e) : Step locked free ⟨c, some (.stmt f k, w)⟩ ⟨c, none⟩
  | commit {c w : σ} {a : α} : Step locked free ⟨c, some (.ret a, w)⟩ ⟨w, none⟩
  | free {c : σ} {T : σ → σ} (hT : free T) : Step locked free ⟨c, none⟩ ⟨T c, none⟩
  | freeUnder {c w : σ} {p : Prog σ ε α} {T : σ → σ} (hT : free T) :
      Step locked free ⟨c, some (p, w)⟩ ⟨T c, some (p, T w)⟩

/-- The states of the interleavings from a committed store. -/
def Reach (locked : Prog σ ε α → Prop) (free : (σ → σ) → Prop) (c : σ) : Serial σ ε α → Prop :=
  Relation.ReflTransGen (Step locked free) ⟨c, none⟩

/-- **The invariant rule.** What every lock-free transaction keeps, and every locked program keeps
in the presence of lock-free transactions, holds of every committed store. -/
theorem reach_inv {locked : Prog σ ε α → Prop} {free : (σ → σ) → Prop} {I : σ → Prop} {c : σ}
    (h0 : I c) (hfree : ∀ T, free T → ∀ s, I s → I (T s))
    (hlocked : ∀ p, locked p → ∀ s, I s →
      p.wp (fun s s' => ∃ T, free T ∧ s' = T s) (fun _ s' => I s') s)
    {x : Serial σ ε α} (hx : Reach locked free c x) : I x.committed := by
  suffices h : I x.committed ∧ ∀ p w, x.holder = some (p, w) →
      p.wp (fun s s' => ∃ T, free T ∧ s' = T s) (fun _ s' => I s') w from h.1
  induction hx with
  | refl => exact ⟨h0, fun p w h => absurd h (by simp)⟩
  | tail _ hst ih =>
    obtain ⟨hc, hp⟩ := ih
    cases hst with
    | begin hl =>
      refine ⟨hc, fun p w h => ?_⟩
      obtain ⟨rfl, rfl⟩ := Prod.mk.inj (Option.some.inj h)
      exact hlocked _ hl _ hc
    | stmt hf =>
      refine ⟨hc, fun p w h => ?_⟩
      obtain ⟨rfl, rfl⟩ := Prod.mk.inj (Option.some.inj h)
      exact Prog.wp_stmt hf (hp _ _ rfl)
    | rollback => exact ⟨hc, fun p w h => absurd h (by simp)⟩
    | commit => exact ⟨Prog.wp_ret (hp _ _ rfl), fun p w h => absurd h (by simp)⟩
    | free hT => exact ⟨hfree _ hT _ hc, fun p w h => absurd h (by simp)⟩
    | freeUnder hT =>
      refine ⟨hfree _ hT _ hc, fun p w h => ?_⟩
      obtain ⟨rfl, rfl⟩ := Prod.mk.inj (Option.some.inj h)
      exact Prog.wp_step ⟨_, hT, rfl⟩ (hp _ _ rfl)

variable {locked : Prog σ ε α → Prop} {free : (σ → σ) → Prop}

/-- A locked program run by itself is one of the interleavings. -/
theorem steps_of_run {p : Prog σ ε α} (hp : locked p) {c w : σ} {a : α}
    (h : p.run c = .ok (a, w)) :
    Relation.ReflTransGen (Step locked free) ⟨c, none⟩ ⟨w, none⟩ := by
  have hrest : ∀ (q : Prog σ ε α) (v : σ), q.run v = .ok (a, w) →
      Relation.ReflTransGen (Step locked free) ⟨c, some (q, v)⟩ ⟨w, none⟩ := by
    intro q
    induction q with
    | ret b =>
      intro v hv
      obtain ⟨rfl, rfl⟩ := Prod.mk.inj (Except.ok.inj hv)
      exact .single .commit
    | stmt f k ih =>
      intro v hv
      simp only [Prog.run] at hv
      cases hf : f v with
      | error e => exact absurd hv (by simp [hf])
      | ok bs =>
        rw [hf] at hv
        exact .head (.stmt hf) (ih bs.1 bs.2 hv)
  exact .head (.begin hp) (hrest p c h)

/-- **The rule for facts that stay.** What no lock-free transaction changes, and every locked
program keeps in the presence of lock-free transactions, stays true of the committed store. -/
theorem reach_stays {P : σ → Prop} {c : σ} (hfree : ∀ T, free T → ∀ s, P (T s) ↔ P s)
    (hlocked : ∀ p, locked p → p.Keeps (fun s s' => ∃ T, free T ∧ s' = T s) P)
    {x y : Serial σ ε α} (hx : Reach locked free c x)
    (hxy : Relation.ReflTransGen (Step locked free) x y) (hP : P x.committed) :
    P y.committed := by
  -- A running holder commits `P` if it holds of the committed store.
  have hstep : ∀ {y z : Serial σ ε α}, Step locked free y z →
      (P y.committed → ∀ p w, y.holder = some (p, w) →
        p.wp (fun s s' => ∃ T, free T ∧ s' = T s) (fun _ s' => P s') w) →
      (P z.committed → ∀ p w, z.holder = some (p, w) →
        p.wp (fun s s' => ∃ T, free T ∧ s' = T s) (fun _ s' => P s') w)
      ∧ (P y.committed → P z.committed) := by
    intro y z hst h
    cases hst with
    | begin hl =>
      refine ⟨fun hc p w hw => ?_, id⟩
      obtain ⟨rfl, rfl⟩ := Prod.mk.inj (Option.some.inj hw)
      exact hlocked _ hl _ hc
    | stmt hf =>
      refine ⟨fun hc p w hw => ?_, id⟩
      obtain ⟨rfl, rfl⟩ := Prod.mk.inj (Option.some.inj hw)
      exact Prog.wp_stmt hf (h hc _ _ rfl)
    | rollback => exact ⟨fun _ p w hw => absurd hw (by simp), id⟩
    | commit => exact ⟨fun _ p w hw => absurd hw (by simp), fun hc => Prog.wp_ret (h hc _ _ rfl)⟩
    | free hT => exact ⟨fun _ p w hw => absurd hw (by simp), (hfree _ hT _).mpr⟩
    | freeUnder hT =>
      refine ⟨fun hc p w hw => ?_, (hfree _ hT _).mpr⟩
      obtain ⟨rfl, rfl⟩ := Prod.mk.inj (Option.some.inj hw)
      exact Prog.wp_step ⟨_, hT, rfl⟩ (h ((hfree _ hT _).mp hc) _ _ rfl)
  have hholder : P x.committed → ∀ p w, x.holder = some (p, w) →
      p.wp (fun s s' => ∃ T, free T ∧ s' = T s) (fun _ s' => P s') w := by
    clear hxy hP
    induction hx with
    | refl => exact fun _ p w hw => absurd hw (by simp)
    | tail _ hst ih => exact (hstep hst ih).1
  suffices h : P y.committed ∧ (P y.committed → ∀ p w, y.holder = some (p, w) →
      p.wp (fun s s' => ∃ T, free T ∧ s' = T s) (fun _ s' => P s') w) from h.1
  induction hxy with
  | refl => exact ⟨hP, hholder⟩
  | tail _ hst ih => exact ⟨(hstep hst ih.2).2 ih.1, (hstep hst ih.2).1⟩

end Serial

-- Outside, `wp` is used through its rules only: unfolding it would run the program.
attribute [irreducible] Prog.wp

end LinkSuffix.Lib
