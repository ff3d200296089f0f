import LinkSuffix.Lib.Transaction

/-!
# A lock holder that has locked a row

Programs that hold one exclusive lock run one at a time. The first statement of such a program may
also lock a row (`SELECT … FOR UPDATE`), until it ends. The other transactions commit whole and
freely between its statements, but for those that lock the same row. A condition on what commits
under a locked row singles out some of the interleavings.

* `RowSerial`: the committed store and the holder, with the row it has locked.
* `Rely`: what the others may do to the view of a holder.
* `reach_commit`: the invariant rule, and what a holder that commits had when it began.
* `step_cases`: every step that changes the committed store.
* `steps_of_runAmong`: a program run with given transactions between its statements.
-/

namespace LinkSuffix.Lib

/-- A program that holds the lock: the row it has locked, the rest of it, and its view. -/
structure Holder (σ ε α κ : Type) : Type 1 where
  row : Option κ
  rest : Prog σ ε α
  view : σ

/-- The committed store, and the holder of the lock. -/
structure RowSerial (σ ε α κ : Type) : Type 1 where
  committed : σ
  holder : Option (Holder σ ε α κ)

namespace RowSerial

variable {σ ε α κ : Type}

/-- One step of the interleaving. `locked r p` says that `p` takes the lock, and its first statement
the row `r`; `free r T` that `T` takes no lock but the row `r`; `under k T s` is the condition on a
`T` that commits in `s` under the locked row `k`. -/
inductive Step (locked : Option κ → Prog σ ε α → Prop) (free : Option κ → (σ → σ) → Prop)
    (under : κ → (σ → σ) → σ → Prop) : RowSerial σ ε α κ → RowSerial σ ε α κ → Prop
  | begin {c : σ} {r : Option κ} {p : Prog σ ε α} (hp : locked r p) :
      Step locked free under ⟨c, none⟩ ⟨c, some ⟨r, p, c⟩⟩
  | stmt {c w w' : σ} {r : Option κ} {β : Type} {b : β} {f : σ → Except ε (β × σ)}
      {k : β → Prog σ ε α} (hf : f w = .ok (b, w')) :
      Step locked free under ⟨c, some ⟨r, .stmt f k, w⟩⟩ ⟨c, some ⟨r, k b, w'⟩⟩
  | rollback {c w : σ} {r : Option κ} {β : Type} {e : ε} {f : σ → Except ε (β × σ)}
      {k : β → Prog σ ε α} (hf : f w = .error e) :
      Step locked free under ⟨c, some ⟨r, .stmt f k, w⟩⟩ ⟨c, none⟩
  | commit {c w : σ} {r : Option κ} {a : α} :
      Step locked free under ⟨c, some ⟨r, .ret a, w⟩⟩ ⟨w, none⟩
  | free {c : σ} {r : Option κ} {T : σ → σ} (hT : free r T) :
      Step locked free under ⟨c, none⟩ ⟨T c, none⟩
  | freeUnder {c w : σ} {row r : Option κ} {p : Prog σ ε α} {T : σ → σ} (hT : free r T)
      (hc : ∀ k, row = some k → r ≠ some k ∧ under k T c)
      (hw : ∀ k, row = some k → r ≠ some k ∧ under k T w) :
      Step locked free under ⟨c, some ⟨row, p, w⟩⟩ ⟨T c, some ⟨row, p, T w⟩⟩

/-- The states of the interleavings from a committed store. -/
def Reach (locked : Option κ → Prog σ ε α → Prop) (free : Option κ → (σ → σ) → Prop)
    (under : κ → (σ → σ) → σ → Prop) (c : σ) : RowSerial σ ε α κ → Prop :=
  Relation.ReflTransGen (Step locked free under) ⟨c, none⟩

/-- What the others may do to a view, under a locked row. -/
def Rely (free : Option κ → (σ → σ) → Prop) (under : κ → (σ → σ) → σ → Prop) (row : Option κ)
    (s s' : σ) : Prop :=
  ∃ r T, free r T ∧ (∀ k, row = some k → r ≠ some k ∧ under k T s) ∧ s' = T s

variable {locked : Option κ → Prog σ ε α → Prop} {free : Option κ → (σ → σ) → Prop}
  {under : κ → (σ → σ) → σ → Prop} {x y : RowSerial σ ε α κ}

/-- A running holder began in a store `s` that met the invariant; since then the others have made the
committed store of it, and the holder will commit what `D s` allows. -/
def Begun (free : Option κ → (σ → σ) → Prop) (under : κ → (σ → σ) → σ → Prop) (I : σ → Prop)
    (D : σ → σ → Prop) (c : σ) (h : Holder σ ε α κ) : Prop :=
  ∃ s, I s ∧ Relation.ReflTransGen (Rely free under h.row) s c ∧
    h.rest.wp (Rely free under h.row) (fun _ w => I w ∧ D s w) h.view

variable {I : σ → Prop} {D : σ → σ → Prop} {c : σ}

/-- **The invariant rule.** Where the free transactions keep `I`, and a locked program begun in a
store `s` commits what meets `I` and `D s`, every committed store meets `I`, and every holder has
begun in one. -/
theorem reach_commit (h0 : I c) (hfree : ∀ r T s, free r T → I s → I (T s))
    (hlocked : ∀ row p, locked row p → ∀ s, I s →
      p.wp (Rely free under row) (fun _ w => I w ∧ D s w) s)
    (hx : Reach locked free under c x) :
    I x.committed ∧ ∀ h, x.holder = some h → Begun free under I D x.committed h := by
  induction hx with
  | refl => exact ⟨h0, fun h hh => absurd hh (by simp)⟩
  | tail _ hst ih =>
    obtain ⟨hc, hbegun⟩ := ih
    cases hst with
    | begin hp =>
      refine ⟨hc, fun h hh => ?_⟩
      obtain rfl := Option.some.inj hh
      exact ⟨_, hc, .refl, hlocked _ _ hp _ hc⟩
    | stmt hf =>
      refine ⟨hc, fun h hh => ?_⟩
      obtain rfl := Option.some.inj hh
      obtain ⟨s, hs, hchain, hwp⟩ := hbegun _ rfl
      exact ⟨s, hs, hchain, Prog.wp_stmt hf hwp⟩
    | rollback => exact ⟨hc, fun h hh => absurd hh (by simp)⟩
    | commit =>
      obtain ⟨s, -, -, hwp⟩ := hbegun _ rfl
      exact ⟨(Prog.wp_ret hwp).1, fun h hh => absurd hh (by simp)⟩
    | free hT => exact ⟨hfree _ _ _ hT hc, fun h hh => absurd hh (by simp)⟩
    | freeUnder hT hcommitted hview =>
      refine ⟨hfree _ _ _ hT hc, fun h hh => ?_⟩
      obtain rfl := Option.some.inj hh
      obtain ⟨s, hs, hchain, hwp⟩ := hbegun _ rfl
      exact ⟨s, hs, hchain.tail ⟨_, _, hT, hcommitted, rfl⟩,
        Prog.wp_step ⟨_, _, hT, hview, rfl⟩ hwp⟩

/-- **The steps that change the committed store**: a free transaction, and a commit of what the
holder's begin allows. -/
theorem step_cases (hbegun : ∀ h, x.holder = some h → Begun free under I D x.committed h)
    (hst : Step locked free under x y) :
    y.committed = x.committed ∨ (∃ r T, free r T ∧ y.committed = T x.committed) ∨
      ∃ row s, I s ∧ Relation.ReflTransGen (Rely free under row) s x.committed ∧
        D s y.committed := by
  cases hst with
  | begin => exact Or.inl rfl
  | stmt => exact Or.inl rfl
  | rollback => exact Or.inl rfl
  | commit =>
    obtain ⟨s, hs, hchain, hwp⟩ := hbegun _ rfl
    exact Or.inr (Or.inr ⟨_, s, hs, hchain, (Prog.wp_ret hwp).2⟩)
  | free hT => exact Or.inr (Or.inl ⟨_, _, hT, rfl⟩)
  | freeUnder hT => exact Or.inr (Or.inl ⟨_, _, hT, rfl⟩)

/-! ## A given interleaving -/

/-- Run a program with a transaction, or none, before each of its first statements and its commit. -/
def runAmong : List (Option (σ → σ)) → Prog σ ε α → σ → Except ε (α × σ)
  | [], p, s => p.run s
  | T :: Ts, .ret a, s => runAmong Ts (.ret a) ((T.getD id) s)
  | T :: Ts, .stmt f k, s =>
    match f ((T.getD id) s) with
    | .ok (b, s') => runAmong Ts (k b) s'
    | .error e => .error e

/-- A transaction that may commit in every state, under the locked row. -/
def Passes (free : Option κ → (σ → σ) → Prop) (under : κ → (σ → σ) → σ → Prop) (row : Option κ)
    (T : σ → σ) : Prop :=
  ∃ r, free r T ∧ ∀ k, row = some k → r ≠ some k ∧ ∀ s, under k T s

/-- The committed store after some transactions. -/
def passed (Ts : List (Option (σ → σ))) (c : σ) : σ := Ts.foldl (fun c T => (T.getD id) c) c

/-- The interleaving, up to the commit. -/
theorem steps_of_runAmong {row : Option κ} {p : Prog σ ε α} (hp : locked row p) {w : σ} {a : α}
    {Ts : List (Option (σ → σ))} (hfree : ∀ T, some T ∈ Ts → Passes free under row T)
    (h : runAmong Ts p c = .ok (a, w)) :
    Relation.ReflTransGen (Step locked free under) ⟨c, none⟩
      ⟨passed Ts c, some ⟨row, .ret a, w⟩⟩ := by
  have hother : ∀ (T : Option (σ → σ)) (c v : σ) (q : Prog σ ε α),
      (∀ T', T = some T' → Passes free under row T') →
      Relation.ReflTransGen (Step locked free under) ⟨c, some ⟨row, q, v⟩⟩
        ⟨(T.getD id) c, some ⟨row, q, (T.getD id) v⟩⟩ := by
    intro T c v q hT
    cases T with
    | none => exact .refl
    | some T =>
      obtain ⟨r, hfree, hrow⟩ := hT T rfl
      exact .single (.freeUnder hfree (fun k hk => ⟨(hrow k hk).1, (hrow k hk).2 c⟩)
        fun k hk => ⟨(hrow k hk).1, (hrow k hk).2 v⟩)
  have hrest : ∀ (Ts : List (Option (σ → σ))) (q : Prog σ ε α) (c v : σ),
      (∀ T, some T ∈ Ts → Passes free under row T) → runAmong Ts q v = .ok (a, w) →
      Relation.ReflTransGen (Step locked free under) ⟨c, some ⟨row, q, v⟩⟩
        ⟨passed Ts c, some ⟨row, .ret a, w⟩⟩ := by
    intro Ts
    induction Ts with
    | nil =>
      intro q
      induction q with
      | ret b =>
        intro c v _ hv
        obtain ⟨rfl, rfl⟩ := Prod.mk.inj (Except.ok.inj hv)
        exact .refl
      | stmt f k ih =>
        intro c v hTs hv
        simp only [runAmong, Prog.run] at hv
        cases hf : f v with
        | error e => exact absurd hv (by simp [hf])
        | ok bs =>
          rw [hf] at hv
          exact .head (.stmt hf) (ih bs.1 c bs.2 hTs hv)
    | cons T Ts ih =>
      intro q c v hTs hv
      have hnow := hother T c v q fun T' hT' => hTs T' (hT' ▸ List.mem_cons_self)
      have hlater : ∀ T, some T ∈ Ts → Passes free under row T :=
        fun T' hT' => hTs T' (List.mem_cons_of_mem _ hT')
      cases q with
      | ret b => exact hnow.trans (ih (.ret b) _ _ hlater hv)
      | stmt f k =>
        simp only [runAmong] at hv
        cases hf : f ((T.getD id) v) with
        | error e => exact absurd hv (by simp [hf])
        | ok bs =>
          rw [hf] at hv
          exact hnow.trans (.head (.stmt hf) (ih (k bs.1) _ bs.2 hlater hv))
  exact .head (.begin hp) (hrest Ts p c c hfree h)

/-- The interleaving, and the commit. -/
theorem steps_of_commit {row : Option κ} {p : Prog σ ε α} (hp : locked row p) {w : σ} {a : α}
    {Ts : List (Option (σ → σ))} (hfree : ∀ T, some T ∈ Ts → Passes free under row T)
    (h : runAmong Ts p c = .ok (a, w)) :
    Relation.ReflTransGen (Step locked free under) ⟨c, none⟩ ⟨w, none⟩ :=
  (steps_of_runAmong hp hfree h).tail .commit

/-- A program with nothing between its statements. -/
theorem steps_of_run {row : Option κ} {p : Prog σ ε α} (hp : locked row p) {w : σ} {a : α}
    (h : p.run c = .ok (a, w)) :
    Relation.ReflTransGen (Step locked free under) ⟨c, none⟩ ⟨w, none⟩ :=
  steps_of_commit hp (fun _ hT => absurd hT List.not_mem_nil)
    (show runAmong [] p c = .ok (a, w) from h)

end RowSerial

end LinkSuffix.Lib
