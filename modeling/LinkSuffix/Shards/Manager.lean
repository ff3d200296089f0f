import LinkSuffix.Store.Effect
import Mathlib.Data.Set.Subsingleton

/-!
# One manager per shard

A shard serves the campaigns of one manager account. `bindFleetShardManager` is the only writer of
the binding, and every writer of a target's shard calls it for the shard it writes. The enrolment
transactions hold one advisory lock; a pause and a removal do not, and may commit between any two
of their statements.

* `Locked`, `Unlocked`: the transactions that hold the lock, and those that do not.
* `OneManager`, `Bound`: the invariant, and what a binding establishes.
* `bindFleetShardManager_binds`: the specification of the binding.
* **`shard_manager`**: one manager per shard in every interleaving, and a binding stays.
-/

namespace LinkSuffix

open Lib

variable {cfg : Config} {s s' : Store} {shardId m : String} {R : Store → Store → Prop}

/-! ## Identifiers -/

/-- A manager id that is digits already is its own normal form. -/
theorem normalizeFleetManagerId_digits (h : isDigits 10 10 m = true) :
    normalizeFleetManagerId m = .ok m := by
  have hd := h
  unfold isDigits at hd
  simp only [Bool.and_eq_true, List.all_eq_true, decide_eq_true_eq] at hd
  have hdigits := hd.1.1
  have htrim : trim m = m := trim_eq fun c hc => digit_not_space (hdigits c hc)
  have hfilter : (m.toList.filter fun c => !(isJsSpace c || decide (c = '-'))) = m.toList := by
    refine List.filter_eq_self.mpr fun c hc => ?_
    have hd := hdigits c hc
    have hne : c ≠ '-' := by
      rintro rfl
      exact absurd hd (by decide)
    simp [digit_not_space hd, hne]
  have hne : m ≠ "" := by
    rintro rfl
    exact absurd h (by decide)
  have hall : (m.toList.all fun c => c.isDigit || isJsSpace c || c = '-') = true :=
    List.all_eq_true.mpr fun c hc => by simp [hdigits c hc]
  unfold normalizeFleetManagerId
  simp only [htrim, hfilter, String.ofList_toList]
  exact if_pos ⟨hne, hall, h⟩

theorem normalizeFleetManagerId_ok {x : String} (hx : normalizeFleetManagerId m = .ok x) :
    isDigits 10 10 x = true := by
  unfold normalizeFleetManagerId at hx
  simp only at hx
  split at hx
  · rename_i hck
    obtain rfl := Except.ok.inj hx
    exact hck.2.2
  · exact absurd hx (by simp)

/-! ## The transactions -/

/-- A program whose result is not used. -/
def Prog.discard {α : Type} (p : StoreProg α) : StoreProg Unit := do
  let _ ← p
  return ()

/-- The transactions that take the `fleet-enrollment-assignment` lock. -/
inductive Locked (cfg : Config) : StoreProg Unit → Prop
  | upsert (input : BridgeTargetInput) : Locked cfg (Prog.discard (upsertBridgeTarget cfg input))
  | register (shardId rawToken requestedManager : String) :
      Locked cfg (Prog.discard (registerBridgeShard cfg shardId rawToken requestedManager))
  | retire (shardId confirmedShardId randomToken : String) (now dateNow : Nat) :
      Locked cfg (Prog.discard
        (deleteBridgeShard cfg shardId confirmedShardId randomToken now dateNow))
  | resume (campaignRecordId : String) : Locked cfg (setBridgeTargetEnabled campaignRecordId true)

/-- What a transaction leaves: its result, or the store it found if it fails. -/
def afterWork {α : Type} (work : Work α) (s : Store) : Store :=
  match work s with
  | .ok (_, s') => s'
  | .error _ => s

/-- The transactions that take no lock. -/
inductive Unlocked : (Store → Store) → Prop
  | pause (campaignRecordId : String) :
      Unlocked (afterWork (setBridgeTargetEnabled campaignRecordId false).run)
  | remove (input : DeleteTargetInput) : Unlocked (afterWork (deleteBridgeTarget input))

/-- What other transactions can do to the view of a lock holder. -/
def Others (s s' : Store) : Prop := ∃ T, Unlocked T ∧ s' = T s

/-! ## The invariant -/

/-- The managers of a shard: its binding, and the non-empty manager ids of its targets that are not
archived. -/
def Store.managersOfShard (s : Store) (shardId : String) : Set String :=
  {m | s.binding shardId = some m ∨ (m ≠ "" ∧ m ∈ s.assignedManagers shardId)}

/-- Every shard has one manager at most, and manager ids are normalized. -/
structure OneManager (s : Store) : Prop where
  one : ∀ shardId, (s.managersOfShard shardId).Subsingleton
  target_digits : ∀ t ∈ s.targets, isDigits 10 10 t.managerCustomerId = true
  bound_digits : ∀ b ∈ s.shardManagers, isDigits 10 10 b.managerCustomerId = true

/-- The shard is bound to the manager, and serves no other. -/
def Bound (shardId m : String) (s : Store) : Prop :=
  s.binding shardId = some m ∧ ∀ x ∈ s.assignedManagers shardId, x = m

/-- Targets only leave shards, and bindings are the same. -/
structure Frees (s s' : Store) : Prop where
  shardManagers : s'.shardManagers = s.shardManagers
  targets : ∀ t' ∈ s'.targets, ∃ t ∈ s.targets, t'.shardId = t.shardId
    ∧ t'.managerCustomerId = t.managerCustomerId ∧ t'.archivedAt = t.archivedAt

theorem mem_assignedManagers {x : String} : x ∈ s.assignedManagers shardId ↔
    ∃ t ∈ s.targets, t.shardId = shardId ∧ t.archivedAt = none ∧ t.managerCustomerId = x := by
  unfold Store.assignedManagers
  simp only [List.mem_dedup, List.mem_map, List.mem_filter, decide_eq_true_eq]
  constructor
  · rintro ⟨t, ⟨ht, hshard, harchived⟩, rfl⟩
    exact ⟨t, ht, hshard, harchived, rfl⟩
  · rintro ⟨t, ht, hshard, harchived, rfl⟩
    exact ⟨t, ⟨ht, hshard, harchived⟩, rfl⟩

theorem Frees.binding (h : Frees s s') : s'.binding shardId = s.binding shardId := by
  unfold Store.binding
  rw [h.shardManagers]

theorem Frees.assigned (h : Frees s s') {x : String} (hx : x ∈ s'.assignedManagers shardId) :
    x ∈ s.assignedManagers shardId := by
  obtain ⟨t', ht', hshard, harchived, hm⟩ := mem_assignedManagers.mp hx
  obtain ⟨t, ht, h1, h2, h3⟩ := h.targets t' ht'
  exact mem_assignedManagers.mpr
    ⟨t, ht, h1.symm.trans hshard, h3.symm.trans harchived, h2.symm.trans hm⟩

theorem OneManager.frees (hI : OneManager s) (h : Frees s s') : OneManager s' where
  one := fun shardId => (hI.one shardId).anti fun x hx =>
    hx.imp (fun hb => h.binding.symm.trans hb) fun ha => ⟨ha.1, h.assigned ha.2⟩
  target_digits := by
    intro t' ht'
    obtain ⟨t, ht, -, hm, -⟩ := h.targets t' ht'
    rw [hm]
    exact hI.target_digits t ht
  bound_digits := by
    rw [h.shardManagers]
    exact hI.bound_digits

theorem Bound.frees (hb : Bound shardId m s) (h : Frees s s') : Bound shardId m s' :=
  ⟨h.binding.trans hb.1, fun x hx => hb.2 x (h.assigned hx)⟩

/-! ## What frees targets -/

theorem frees_refl (s : Store) : Frees s s := ⟨rfl, fun t ht => ⟨t, ht, rfl, rfl, rfl⟩⟩

theorem Frees.trans {s'' : Store} (h : Frees s s') (h' : Frees s' s'') : Frees s s'' where
  shardManagers := h'.shardManagers.trans h.shardManagers
  targets := by
    intro t'' ht''
    obtain ⟨t', ht', h1, h2, h3⟩ := h'.targets t'' ht''
    obtain ⟨t, ht, k1, k2, k3⟩ := h.targets t' ht'
    exact ⟨t, ht, h1.trans k1, h2.trans k2, h3.trans k3⟩

theorem setEnabled_frees {record : String} {enabled : Bool} {ids : List String}
    (h : setEnabled record enabled s = .ok (ids, s')) : Frees s s' := by
  unfold setEnabled at h
  simp only at h
  obtain ⟨-, rfl⟩ := Prod.mk.inj (Except.ok.inj h)
  refine ⟨rfl, fun t' ht' => ?_⟩
  obtain ⟨t, ht, ⟨-, rfl⟩ | ⟨-, rfl⟩⟩ := mem_updateWhere.mp ht'
  · exact ⟨t, ht, rfl, rfl, rfl⟩
  · exact ⟨t', ht, rfl, rfl, rfl⟩

/-- The flag of a target is written by a program that keeps what freeing targets keeps. -/
theorem writeEnabled_keeps {I : Store → Prop} (hI : Prog.Stable R I)
    (hfrees : ∀ s s', Frees s s' → I s → I s') (record : String) (enabled : Bool) :
    (writeEnabled record enabled).Keeps R I := by
  unfold writeEnabled
  refine Prog.keeps_bind (Prog.keeps_exec hI fun s ids s' hs h =>
    hfrees s s' (setEnabled_frees h) hs) fun updated => ?_
  split
  · refine Prog.keeps_ite (Prog.keeps_pure hI _) (Prog.keeps_update hI fun s hs => ?_)
    exact hfrees s _ ⟨rfl, fun t ht => ⟨t, ht, rfl, rfl, rfl⟩⟩ hs
  · exact Prog.keeps_throw _

theorem removeTarget_frees (id : String) (s : Store) : Frees s (removeTarget id s) :=
  ⟨rfl, fun t ht => ⟨t, (List.mem_filter.mp ht).1, rfl, rfl, rfl⟩⟩

/-- A pause and a removal only free targets. -/
theorem unlocked_frees {T : Store → Store} (hT : Unlocked T) (s : Store) : Frees s (T s) := by
  cases hT with
  | pause record =>
    unfold afterWork
    split
    · rename_i s' hrun
      have hkeeps : (setBridgeTargetEnabled record false).Keeps Prog.Alone (Frees s) :=
        Prog.keeps_bind (Prog.keeps_pure Prog.stable_alone ()) fun _ =>
          writeEnabled_keeps Prog.stable_alone (fun _ _ h hs => hs.trans h) record false
      exact hkeeps.run (frees_refl s) hrun
    · exact frees_refl s
  | remove input =>
    unfold afterWork
    split
    · rename_i s' hrun
      rcases deleteBridgeTarget_ok hrun with rfl | ⟨t, -, -, rfl⟩
      · exact frees_refl _
      · exact removeTarget_frees _ _
    · exact frees_refl s

/-- What freeing targets keeps is stable for a lock holder. -/
theorem stable_others {P : Store → Prop} (h : ∀ s s', Frees s s' → P s → P s') :
    Prog.Stable Others P := by
  rintro s _ ⟨T, hT, rfl⟩ hs
  exact h s (T s) (unlocked_frees hT s) hs

theorem stable_oneManager : Prog.Stable Others OneManager :=
  stable_others fun _ _ h hs => hs.frees h

theorem stable_bound : Prog.Stable Others fun s => OneManager s ∧ Bound shardId m s :=
  stable_others fun _ _ h hs => ⟨hs.1.frees h, hs.2.frees h⟩

/-! ## Binding a shard -/

theorem mapM_ok {α ε : Type} {f : α → Except ε α} {rows : List α} (h : ∀ x ∈ rows, f x = .ok x) :
    rows.mapM f = .ok rows := by
  induction rows with
  | nil => rfl
  | cons x rows ih =>
    rw [List.mapM_cons, h x (by simp), ih fun y hy => h y (by simp [hy])]
    rfl

/-- Normalized rows are collected as they are. -/
theorem collectManagers_digits {rows : List String} (h : ∀ x ∈ rows, isDigits 10 10 x = true) :
    collectManagers rows m = .ok (if m = "" then rows else rows ++ [m]).dedup := by
  have hne : rows.filter (· ≠ "") = rows := by
    refine List.filter_eq_self.mpr fun x hx => ?_
    have hd := h x hx
    have : x ≠ "" := by
      rintro rfl
      exact absurd hd (by decide)
    simpa using this
  unfold collectManagers
  rw [hne, mapM_ok fun x hx => normalizeFleetManagerId_digits (h x hx)]
  rfl

/-- One manager collected: every row names it, and so does the request, if there is one. -/
theorem collectManagers_one {rows managers : List String} {x : String}
    (h : ∀ x ∈ rows, isDigits 10 10 x = true) (hm : m ≠ "" → isDigits 10 10 m = true)
    (hc : collectManagers rows m = .ok managers) (hlen : managers.length ≤ 1)
    (hhead : managers.head? = some x) :
    (∀ y ∈ rows, y = x) ∧ (m ≠ "" → m = x) ∧ isDigits 10 10 x = true := by
  rw [collectManagers_digits h] at hc
  obtain rfl := Except.ok.inj hc
  obtain ⟨tail, htail⟩ := List.head?_eq_some_iff.mp hhead
  rw [htail, List.length_cons] at hlen
  have hnil : tail = [] := List.eq_nil_of_length_eq_zero (by omega)
  have hall : ∀ y, y ∈ (if m = "" then rows else rows ++ [m]) ↔ y = x := by
    intro y
    rw [← List.mem_dedup, htail, hnil, List.mem_singleton]
  by_cases hmm : m = ""
  · simp only [if_pos hmm] at hall
    exact ⟨fun y hy => (hall y).mp hy, fun hne => absurd hmm hne, h x ((hall x).mpr rfl)⟩
  · simp only [if_neg hmm, List.mem_append, List.mem_singleton] at hall
    have hx := (hall m).mp (Or.inr rfl)
    exact ⟨fun y hy => (hall y).mp (Or.inl hy), fun _ => hx, hx ▸ hm hmm⟩

/-- With a request there is always a manager. -/
theorem collectManagers_none {rows managers : List String}
    (h : ∀ x ∈ rows, isDigits 10 10 x = true) (hc : collectManagers rows m = .ok managers)
    (hhead : managers.head? = none) : m = "" := by
  rw [collectManagers_digits h] at hc
  obtain rfl := Except.ok.inj hc
  by_contra hne
  rw [if_neg hne, List.head?_eq_none_iff, List.dedup_eq_nil] at hhead
  simp at hhead

theorem binding_mem (h : s.binding shardId = some m) :
    ∃ b ∈ s.shardManagers, b.shardId = shardId ∧ b.managerCustomerId = m := by
  obtain ⟨b, hb, rfl⟩ := Option.map_eq_some_iff.mp h
  obtain ⟨hmem, hkey⟩ := find?_key_some hb
  exact ⟨b, hmem, hkey, rfl⟩

/-- A new binding is the last row. -/
theorem binding_append {shard : String} (h : s.binding shardId = none) :
    ({ s with shardManagers := s.shardManagers ++ [⟨shardId, m⟩] } : Store).binding shard
      = if shard = shardId then some m else s.binding shard := by
  unfold Store.binding at h ⊢
  rw [List.find?_append]
  split
  · rename_i heq
    subst heq
    rw [Option.map_eq_none_iff.mp h]
    simp
  · rename_i hne
    have : ([⟨shardId, m⟩] : List ShardManager).find? (fun b => decide (b.shardId = shard)) = none := by
      simp [Ne.symm hne]
    rw [this, Option.or_none]

/-- The view the saved binding is checked against: what the two queries returned is still all there
is. -/
structure Bindable (shardId m : String) (s : Store) : Prop where
  inv : OneManager s
  bound : ∀ x, s.binding shardId = some x → x = m
  assigned : ∀ x ∈ s.assignedManagers shardId, x = m

/-- The binding is saved, and every other shard keeps its own. -/
theorem saveBinding_binds {n : Nat} (h : Bindable shardId m s) (hm : isDigits 10 10 m = true)
    (hsave : saveBinding shardId m s = .ok (n, s')) : OneManager s' ∧ Bound shardId m s' := by
  unfold saveBinding at hsave
  split at hsave
  · rename_i hnone
    obtain ⟨-, rfl⟩ := Prod.mk.inj (Except.ok.inj hsave)
    refine ⟨⟨fun shard => ?_, h.inv.target_digits, ?_⟩, ?_, h.assigned⟩
    · by_cases hs : shard = shardId
      · -- The bound shard: its binding and its campaigns are all of the manager.
        subst hs
        rintro x hx y hy
        have hall : ∀ z, (z ∈ ({ s with shardManagers := s.shardManagers ++ [⟨shard, m⟩] }
            : Store).managersOfShard shard) → z = m := by
          rintro z (hz | ⟨-, hz⟩)
          · rw [binding_append hnone, if_pos rfl] at hz
            exact (Option.some.inj hz).symm
          · exact h.assigned z hz
        rw [hall x hx, hall y hy]
      · refine (h.inv.one shard).anti fun x hx => hx.imp (fun hb => ?_) id
        rwa [binding_append hnone, if_neg hs] at hb
    · intro b hb
      rcases List.mem_append.mp hb with hb | hb
      · exact h.inv.bound_digits b hb
      · rw [List.mem_singleton.mp hb]
        exact hm
    · rw [binding_append hnone, if_pos rfl]
  · rename_i x hx
    obtain ⟨-, rfl⟩ := Prod.mk.inj (Except.ok.inj hsave)
    obtain rfl := h.bound x hx
    exact ⟨h.inv, hx, h.assigned⟩

theorem OneManager.assigned_digits (h : OneManager s) {x : String}
    (hx : x ∈ s.assignedManagers shardId) : isDigits 10 10 x = true := by
  obtain ⟨t, ht, -, -, rfl⟩ := mem_assignedManagers.mp hx
  exact h.target_digits t ht

theorem OneManager.binding_digits (h : OneManager s) {x : String}
    (hx : s.binding shardId = some x) : isDigits 10 10 x = true := by
  obtain ⟨b, hb, -, rfl⟩ := binding_mem hx
  exact h.bound_digits b hb

/-- What the two queries of the binding returned is still all there is. -/
structure Seen (shardId : String) (bound assigned : List String) (s : Store) : Prop where
  inv : OneManager s
  binding_eq : (s.binding shardId).toList = bound
  assigned_mem : ∀ x ∈ s.assignedManagers shardId, x ∈ assigned
  digits : ∀ x ∈ bound ++ assigned, isDigits 10 10 x = true

theorem stable_seen {bound assigned : List String} :
    Prog.Stable Others (Seen shardId bound assigned) :=
  stable_others fun _ _ hf h =>
    ⟨h.inv.frees hf, hf.binding ▸ h.binding_eq, fun x hx => h.assigned_mem x (hf.assigned hx),
      h.digits⟩

theorem Seen.bindable {bound assigned : List String} (h : Seen shardId bound assigned s)
    (hall : ∀ x ∈ bound ++ assigned, x = m) : Bindable shardId m s where
  inv := h.inv
  bound := fun x hx => hall x (List.mem_append_left _ (h.binding_eq ▸ Option.mem_toList.mpr hx))
  assigned := fun x hx => hall x (List.mem_append_right _ (h.assigned_mem x hx))

/-- The part of `bindFleetShardManager` after its queries. -/
theorem bindCollected_binds {bound assigned : List String} (hs : Seen shardId bound assigned s)
    (hm : m ≠ "" → isDigits 10 10 m = true) {managers : List String}
    (hc : collectManagers (bound ++ assigned) m = .ok managers) (hlen : managers.length ≤ 1) :
    (match managers.head? with
      | none => (return "" : StoreProg String)
      | some managerCustomerId => do
        let saved ← Prog.exec (saveBinding shardId managerCustomerId)
        Prog.require (saved = 1) (fail "Fleet shard belongs to a different MCC.")
        return managerCustomerId).wp Others
      (fun _ s' => OneManager s' ∧ (m ≠ "" → Bound shardId m s')) s := by
  cases hhead : managers.head? with
  | none =>
    have hempty := collectManagers_none hs.digits hc hhead
    exact Prog.wp_pure stable_oneManager hs.inv fun s' hs' => ⟨hs', fun h => absurd hempty h⟩
  | some manager =>
    obtain ⟨hall, hrequest, hdigits⟩ := collectManagers_one hs.digits hm hc hlen hhead
    have hsaved : (Prog.exec (saveBinding shardId manager)).wp Others
        (fun _ s' => OneManager s' ∧ Bound shardId manager s') s :=
      Prog.wp_exec stable_seen (fun _ => stable_bound) hs
        fun s n s' hs hsave => saveBinding_binds (hs.bindable hall) hdigits hsave
    refine Prog.wp_bind (Prog.wp_mono (fun saved s1 hs1 => ?_) hsaved)
    refine Prog.wp_bind (Prog.wp_mono (fun _ s2 hs2 => ?_) (Prog.wp_require stable_bound hs1))
    exact Prog.wp_pure stable_bound hs2.2 fun s' hs' => ⟨hs'.1, fun hne => hrequest hne ▸ hs'.2⟩

/-- **`bindFleetShardManager`.** Whatever is freed meanwhile, the shard ends bound to the requested
manager, and serves no other. -/
theorem bindFleetShardManager_binds (hs : OneManager s) (hm : m ≠ "" → isDigits 10 10 m = true) :
    (bindFleetShardManager shardId m).wp Others
      (fun _ s' => OneManager s' ∧ (m ≠ "" → Bound shardId m s')) s := by
  have hstable : ∀ bound, Prog.Stable Others fun s =>
      OneManager s ∧ (s.binding shardId).toList = bound :=
    fun _ => stable_others fun _ _ hf h => ⟨h.1.frees hf, hf.binding ▸ h.2⟩
  have hbound : ∀ s1, OneManager s1 →
      (Prog.query fun s => (s.binding shardId).toList : StoreProg (List String)).wp Others
        (fun bound s => OneManager s ∧ (s.binding shardId).toList = bound) s1 := by
    refine fun s1 hs1 => Prog.wp_exec stable_oneManager hstable hs1 fun s b s' hs hq => ?_
    obtain ⟨rfl, rfl⟩ := Prod.mk.inj (Except.ok.inj hq)
    exact ⟨hs, rfl⟩
  have hassigned : ∀ bound s1, OneManager s1 ∧ (s1.binding shardId).toList = bound →
      (Prog.query fun s => s.assignedManagers shardId : StoreProg (List String)).wp Others
        (fun assigned => Seen shardId bound assigned) s1 := by
    refine fun bound s1 hs1 => Prog.wp_exec (hstable bound) (fun _ => stable_seen) hs1
      fun s a s' hs hq => ?_
    obtain ⟨rfl, rfl⟩ := Prod.mk.inj (Except.ok.inj hq)
    refine ⟨hs.1, hs.2, fun x hx => hx, fun x hx => ?_⟩
    rcases List.mem_append.mp hx with hx | hx
    · rw [← hs.2, Option.mem_toList] at hx
      exact hs.1.binding_digits hx
    · exact hs.1.assigned_digits hx
  unfold bindFleetShardManager
  refine Prog.wp_bind (Prog.wp_mono (fun _ s1 hs1 => ?_)
    (assertShardNotDeleted_keeps stable_oneManager shardId s hs))
  refine Prog.wp_bind (Prog.wp_mono (fun bound s2 hs2 => ?_) (hbound s1 hs1))
  refine Prog.wp_bind (Prog.wp_mono (fun assigned s3 hs3 => ?_) (hassigned bound s2 hs2))
  refine Prog.wp_bind (Prog.wp_mono (fun managers s4 hs4 => ?_) (Prog.wp_lift stable_seen hs3))
  refine Prog.wp_bind (Prog.wp_mono (fun _ s5 hs5 => ?_) (Prog.wp_require stable_seen hs4.2))
  exact bindCollected_binds hs5.2 hm hs4.1 hs5.1

/-! ## The transactions keep the invariant -/

theorem bindFleetShardManager_oneManager (hm : m ≠ "" → isDigits 10 10 m = true) :
    (bindFleetShardManager shardId m).Keeps Others OneManager :=
  fun _ hs => Prog.wp_mono (fun _ _ h => h.1) (bindFleetShardManager_binds hs hm)

/-- Every writer of a target's shard has bound it to the target's manager. -/
theorem assignShard_binds {e : Enrolment} (hs : OneManager s)
    (hm : isDigits 10 10 e.managerCustomerId = true) :
    (assignShard e).wp Others
      (fun assigned s' => OneManager s' ∧ Bound assigned e.managerCustomerId s') s := by
  have hne : e.managerCustomerId ≠ "" := by
    intro h
    rw [h] at hm
    exact absurd hm (by decide)
  have hpreferred : (bindPreferred e).Keeps Others OneManager := by
    refine Prog.keeps_bind (Prog.keeps_query stable_oneManager _) fun retired =>
      Prog.keeps_ite ?_ (Prog.keeps_pure stable_oneManager _)
    exact Prog.keeps_bind (bindFleetShardManager_oneManager fun _ => hm) fun _ =>
      Prog.keeps_pure stable_oneManager _
  have hoccupants := checkOccupants_keeps stable_oneManager e
  refine Prog.wp_bind (Prog.wp_mono (fun retired s1 hs1 => ?_) (hpreferred s hs))
  refine Prog.wp_bind (Prog.wp_mono (fun occupied s2 hs2 => ?_) (hoccupants s1 hs1))
  refine Prog.wp_bind (Prog.wp_mono (fun assigned s3 hs3 => ?_)
    (chooseShard_keeps stable_oneManager e occupied retired s2 hs2))
  refine Prog.wp_bind (Prog.wp_mono (fun _ s4 hs4 => ?_)
    (bindFleetShardManager_binds hs3 fun _ => hm))
  exact Prog.wp_pure stable_bound ⟨hs4.1, hs4.2 hne⟩ fun _ h => h

/-- A row written for a bound shard keeps the invariant. -/
theorem OneManager.write (h : OneManager s) (hb : Bound shardId m s)
    (hm : isDigits 10 10 m = true) {rows : List CampaignTarget}
    (hrows : ∀ t ∈ rows, t ∈ s.targets ∨ (t.shardId = shardId ∧ t.managerCustomerId = m)) :
    OneManager { s with targets := rows } where
  one := by
    intro shard
    have hassigned : ∀ x ∈ ({ s with targets := rows } : Store).assignedManagers shard,
        x ∈ s.assignedManagers shard ∨ (shard = shardId ∧ x = m) := by
      intro x hx
      obtain ⟨t, ht, hshard, harchived, hx⟩ := mem_assignedManagers.mp hx
      rcases hrows t ht with hold | ⟨h1, h2⟩
      · exact Or.inl (mem_assignedManagers.mpr ⟨t, hold, hshard, harchived, hx⟩)
      · exact Or.inr ⟨hshard.symm.trans h1, hx.symm.trans h2⟩
    by_cases hs : shard = shardId
    · subst hs
      have hall : ∀ x ∈ ({ s with targets := rows } : Store).managersOfShard shard, x = m := by
        rintro x (hx | ⟨-, hx⟩)
        · exact Option.some.inj (hx.symm.trans hb.1)
        · rcases hassigned x hx with hx | ⟨-, hx⟩
          · exact hb.2 x hx
          · exact hx
      intro x hx y hy
      rw [hall x hx, hall y hy]
    · refine (h.one shard).anti fun x hx => hx.imp id fun ⟨hne, hx⟩ => ⟨hne, ?_⟩
      rcases hassigned x hx with hx | ⟨heq, -⟩
      · exact hx
      · exact absurd heq hs
  target_digits := by
    intro t ht
    rcases hrows t ht with hold | ⟨-, h2⟩
    · exact h.target_digits t hold
    · rw [h2]
      exact hm
  bound_digits := h.bound_digits

theorem saveTarget_oneManager {e : Enrolment}
    (hs : OneManager s ∧ Bound shardId e.managerCustomerId s)
    (hm : isDigits 10 10 e.managerCustomerId = true) :
    (saveTarget cfg e shardId).wp Others (fun _ s' => OneManager s') s := by
  unfold saveTarget
  refine Prog.wp_bind (Prog.wp_mono (fun owner s1 hs1 => ?_) (Prog.wp_query stable_bound hs))
  refine Prog.wp_bind (Prog.wp_mono (fun record s2 hs2 => ?_) (Prog.wp_query stable_bound hs1))
  refine Prog.wp_bind (Prog.wp_mono (fun _ s3 hs3 => ?_) (Prog.wp_require stable_bound hs2))
  refine Prog.wp_bind (Prog.wp_mono (fun _ s4 hs4 => ?_) (Prog.wp_require stable_bound hs3.2))
  split
  · refine Prog.wp_exec stable_bound (fun _ => stable_oneManager) hs4.2 fun s _ s' hs h => ?_
    unfold updateTarget at h
    split at h
    · exact absurd h (by simp)
    · obtain ⟨-, rfl⟩ := Prod.mk.inj (Except.ok.inj h)
      refine hs.1.write hs.2 hm fun t ht => ?_
      obtain ⟨t0, ht0, ⟨-, rfl⟩ | ⟨-, rfl⟩⟩ := mem_updateWhere.mp ht
      · exact Or.inr ⟨rfl, rfl⟩
      · exact Or.inl ht0
  · refine Prog.wp_update stable_bound (fun _ => stable_oneManager) hs4.2 fun s hs => ?_
    refine hs.1.write hs.2 hm fun t ht => ?_
    rcases List.mem_append.mp ht with ht | ht
    · exact Or.inl ht
    · rw [List.mem_singleton.mp ht]
      exact Or.inr ⟨rfl, rfl⟩

theorem saveShard_frees (id tokenHash : String) (s : Store) : Frees s (saveShard id tokenHash s) := by
  unfold saveShard
  split
  · exact ⟨rfl, fun t ht => ⟨t, ht, rfl, rfl, rfl⟩⟩
  · exact ⟨rfl, fun t ht => ⟨t, ht, rfl, rfl, rfl⟩⟩

theorem keeps_discard {α : Type} {I : Store → Prop} (hI : Prog.Stable R I) {p : StoreProg α}
    (h : p.Keeps R I) : (Prog.discard p).Keeps R I :=
  Prog.keeps_bind h fun _ => Prog.keeps_pure hI ()

theorem upsertBridgeTarget_oneManager (input : BridgeTargetInput) :
    (upsertBridgeTarget cfg input).Keeps Others OneManager := by
  intro s hs
  refine Prog.wp_bind (Prog.wp_mono (fun e s1 hs1 => ?_) (Prog.wp_lift stable_oneManager hs))
  have hm := (checkEnrolment_ok hs1.1).2.2
  refine Prog.wp_bind (Prog.wp_mono (fun shardId s2 hs2 => ?_) (assignShard_binds hs1.2 hm))
  refine Prog.wp_bind (Prog.wp_mono (fun _ s3 hs3 => ?_) (saveTarget_oneManager hs2 hm))
  exact Prog.wp_pure stable_oneManager hs3 fun _ h => h

/-- `registerBridgeShard` keeps what a binding of a normalized manager and freeing targets keep. -/
theorem registerBridgeShard_keeps {I : Store → Prop} (hI : Prog.Stable Others I)
    (hfrees : ∀ s s', Frees s s' → I s → I s')
    (hbind : ∀ shardId m, (m ≠ "" → isDigits 10 10 m = true) →
      (bindFleetShardManager shardId m).Keeps Others I) (shardId rawToken m : String) :
    (registerBridgeShard cfg shardId rawToken m).Keeps Others I := by
  intro s hs
  refine Prog.wp_bind (Prog.wp_mono (fun id s1 hs1 => ?_) (Prog.wp_lift hI hs))
  refine Prog.wp_bind (Prog.wp_mono (fun _ s2 hs2 => ?_) (Prog.wp_require hI hs1.2))
  refine Prog.wp_bind (Prog.wp_mono (fun manager s3 hs3 => ?_) (Prog.wp_lift hI hs2.2))
  have hdigits : manager ≠ "" → isDigits 10 10 manager = true := by
    intro hne
    have hok := hs3.1
    split at hok
    · exact absurd (Except.ok.inj hok).symm hne
    · exact normalizeFleetManagerId_ok hok
  refine Prog.wp_bind (Prog.wp_mono (fun bound s4 hs4 => ?_) (hbind id manager hdigits s3 hs3.2))
  refine Prog.wp_bind (Prog.wp_mono (fun _ s5 hs5 => ?_)
    (Prog.keeps_update hI (fun s hs => hfrees s _ (saveShard_frees _ _ s) hs) s4 hs4))
  exact Prog.wp_pure hI hs5 fun _ h => h

/-- `deleteBridgeShard` writes shards only. -/
theorem deleteBridgeShard_keeps {I : Store → Prop} (hI : Prog.Stable Others I)
    (hfrees : ∀ s s', Frees s s' → I s → I s') (shardId confirmed token : String)
    (now dateNow : Nat) :
    (deleteBridgeShard cfg shardId confirmed token now dateNow).Keeps Others I :=
  deleteBridgeShard_writes hI (fun s _ hs => hfrees s _ ⟨rfl, fun t ht => ⟨t, ht, rfl, rfl, rfl⟩⟩ hs)
    shardId confirmed token now dateNow

/-- Resuming binds the target's shard before it writes the flag. -/
theorem setBridgeTargetEnabled_keeps {I : Store → Prop} (hI : Prog.Stable Others I)
    (hfrees : ∀ s s', Frees s s' → I s → I s')
    (hbind : ∀ shardId m, (m ≠ "" → isDigits 10 10 m = true) →
      (bindFleetShardManager shardId m).Keeps Others I) (record : String) :
    (setBridgeTargetEnabled record true).Keeps Others I := by
  have hcheck : (checkResume record true).Keeps Others I := by
    refine Prog.keeps_bind (Prog.keeps_query hI _) fun target => ?_
    cases target with
    | none => exact Prog.keeps_throw _
    | some t =>
      intro s hs
      refine Prog.wp_bind (Prog.wp_mono (fun manager s1 hs1 => ?_) (Prog.wp_lift hI hs))
      refine Prog.wp_bind (Prog.wp_mono (fun _ s2 hs2 => ?_)
        (hbind t.shardId manager (fun _ => normalizeFleetManagerId_ok hs1.1) s1 hs1.2))
      exact Prog.wp_pure hI hs2 fun _ h => h
  exact Prog.keeps_bind hcheck fun _ => writeEnabled_keeps hI hfrees record true

/-- Every lock holder keeps the invariant among pauses and removals. -/
theorem locked_oneManager {p : StoreProg Unit} (hp : Locked cfg p) : p.Keeps Others OneManager := by
  have hI := stable_oneManager
  have hfrees : ∀ s s', Frees s s' → OneManager s → OneManager s' := fun _ _ hf h => h.frees hf
  have hbind : ∀ shardId m, (m ≠ "" → isDigits 10 10 m = true) →
      (bindFleetShardManager shardId m).Keeps Others OneManager :=
    fun _ _ => bindFleetShardManager_oneManager
  cases hp with
  | upsert input => exact keeps_discard hI (upsertBridgeTarget_oneManager input)
  | register shardId token m =>
    exact keeps_discard hI (registerBridgeShard_keeps hI hfrees hbind shardId token m)
  | retire shardId confirmed token now dateNow =>
    refine keeps_discard hI ?_
    exact deleteBridgeShard_keeps hI hfrees shardId confirmed token now dateNow
  | resume record => exact setBridgeTargetEnabled_keeps hI hfrees hbind record

/-! ## A binding stays -/

/-- The shard is bound to this manager. -/
def BoundTo (shardId m : String) (s : Store) : Prop := s.binding shardId = some m

theorem BoundTo.frees (h : BoundTo shardId m s) (hf : Frees s s') : BoundTo shardId m s' :=
  hf.binding.trans h

theorem stable_boundTo (shardId m : String) : Prog.Stable Others (BoundTo shardId m) :=
  stable_others fun _ _ hf h => h.frees hf

/-- A saved binding is a new row of an unbound shard, or none. -/
theorem saveBinding_stays {shard manager : String} {n : Nat} (h : BoundTo shardId m s)
    (hsave : saveBinding shard manager s = .ok (n, s')) : BoundTo shardId m s' := by
  unfold saveBinding at hsave
  split at hsave
  · rename_i hnone
    obtain ⟨-, rfl⟩ := Prod.mk.inj (Except.ok.inj hsave)
    have hne : shardId ≠ shard := by
      rintro rfl
      exact absurd (h.symm.trans hnone) (by simp)
    unfold BoundTo
    rw [binding_append hnone, if_neg hne]
    exact h
  · obtain ⟨-, rfl⟩ := Prod.mk.inj (Except.ok.inj hsave)
    exact h

/-- No lock holder changes a binding. -/
theorem locked_boundTo {p : StoreProg Unit} (hp : Locked cfg p) :
    p.Keeps Others (BoundTo shardId m) := by
  have hI := stable_boundTo shardId m
  have hfrees : ∀ s s', Frees s s' → BoundTo shardId m s → BoundTo shardId m s' :=
    fun _ _ hf h => h.frees hf
  have hbind : ∀ shard manager, (manager ≠ "" → isDigits 10 10 manager = true) →
      (bindFleetShardManager shard manager).Keeps Others (BoundTo shardId m) :=
    fun shard manager _ => bindFleetShardManager_keeps hI shard manager
      fun _ _ _ _ hs hsave => saveBinding_stays hs hsave
  cases hp with
  | upsert input =>
    refine keeps_discard hI (Prog.keeps_bind (Prog.keeps_lift hI _) fun e => ?_)
    refine Prog.keeps_bind (assignShard_keeps hI e
      fun _ _ _ _ _ hs hsave => saveBinding_stays hs hsave) fun shard => ?_
    exact Prog.keeps_bind (saveTarget_keeps hI (fun _ _ hs => hs) e shard) fun _ =>
      Prog.keeps_pure hI _
  | register shard token manager =>
    exact keeps_discard hI (registerBridgeShard_keeps hI hfrees hbind shard token manager)
  | retire shard confirmed token now dateNow =>
    refine keeps_discard hI ?_
    exact deleteBridgeShard_keeps hI hfrees shard confirmed token now dateNow
  | resume record => exact setBridgeTargetEnabled_keeps hI hfrees hbind record

/-! ## Every interleaving -/

theorem oneManager_empty : OneManager {} where
  one := by
    rintro shardId x (hx | ⟨-, hx⟩)
    · exact absurd hx (by simp [Store.binding])
    · exact absurd hx (by simp [Store.assignedManagers])
  target_digits := by simp
  bound_digits := by simp

/-- **One manager per shard.** In every interleaving, the binding of a shard and the manager ids of
its campaigns that are not archived are one manager at most, and a shard once bound stays bound to
its manager. -/
theorem shard_manager (cfg : Config) {x : Serial Store StoreError Unit}
    (hx : Serial.Reach (Locked cfg) Unlocked {} x) :
    (∀ shardId, (x.committed.managersOfShard shardId).Subsingleton) ∧
    ∀ y, Relation.ReflTransGen (Serial.Step (Locked cfg) Unlocked) x y →
      ∀ shardId m, x.committed.binding shardId = some m → y.committed.binding shardId = some m := by
  constructor
  · have hinv : OneManager x.committed :=
      Serial.reach_inv oneManager_empty (fun T hT s hs => hs.frees (unlocked_frees hT s))
        (fun p hp s hs => locked_oneManager hp s hs) hx
    exact hinv.one
  · intro y hxy shardId m hm
    have hfree : ∀ T, Unlocked T → ∀ s, BoundTo shardId m (T s) ↔ BoundTo shardId m s := by
      intro T hT s
      unfold BoundTo
      rw [(unlocked_frees hT s).binding]
    exact Serial.reach_stays hfree (fun p hp => locked_boundTo hp) hx hxy hm

/-- A shard that a first enrolment has bound. -/
theorem shard_manager_enrolled : ∃ x : Serial Store StoreError Unit,
    Serial.Reach (Locked Config.sample) Unlocked {} x
    ∧ x.committed.binding Sample.shard = some "1111111111"
    ∧ (x.committed.managersOfShard Sample.shard).Subsingleton
    ∧ ∀ y, Relation.ReflTransGen (Serial.Step (Locked Config.sample) Unlocked) x y →
      y.committed.binding Sample.shard = some "1111111111" := by
  have hrun : ((Prog.discard (upsertBridgeTarget Config.sample Sample.target)).run {}).toOption.map
      (fun r => r.2.binding Sample.shard) = some (some "1111111111") := by decide +kernel
  obtain ⟨⟨u, w⟩, hok, hbound⟩ := Option.map_eq_some_iff.mp hrun
  have hok : (Prog.discard (upsertBridgeTarget Config.sample Sample.target)).run {} = .ok (u, w) := by
    revert hok
    cases (Prog.discard (upsertBridgeTarget Config.sample Sample.target)).run {} with
    | error e => simp [Except.toOption]
    | ok r => simp [Except.toOption]
  have hreach : Serial.Reach (Locked Config.sample) Unlocked {} ⟨w, none⟩ :=
    Serial.steps_of_run (.upsert Sample.target) hok
  have h := shard_manager Config.sample hreach
  exact ⟨_, hreach, hbound, h.1 _, fun y hy => h.2 y hy _ _ hbound⟩

end LinkSuffix
