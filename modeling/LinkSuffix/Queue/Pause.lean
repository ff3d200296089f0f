import LinkSuffix.Queue.Grants

/-!
# Pause and removal

A paused target is disabled and a removed one is gone. `enqueueBridgeCapture` starts by registering
its target again, and a registration enables the row or inserts it, so a capture that was still in
flight undoes a pause or a removal that nobody asked to undo.

* `Event.stops`, `Event.resumes`: the operator's pause or removal, and the actions that ask back.
* `Event.reregisters`: the registration an enqueue runs.
* **`stopped_run`**: without it a stopped target stays off and is not leased until it is asked for.
* **`enqueue_resumes_paused`**: with it a paused target is enabled again.
-/

namespace LinkSuffix

open Lib

variable {cfg : Config} {f : Fleet} {e : Event} {s s' : Store} {es : List Event} {T : String}

/-! ## Events on a target -/

/-- The event committed. -/
def Event.commits (cfg : Config) (f : Fleet) (e : Event) : Bool :=
  match (fleet cfg).reply f e with
  | .ok _ => true
  | .error _ => false

/-- The event pauses or removes the target, and commits. -/
def Event.stops (cfg : Config) (f : Fleet) (e : Event) (T : String) : Bool :=
  e.commits cfg f && (e.pauses f T || e.deletes f T)

/-- The operator asks for the target, and the action commits. -/
def Event.resumes (cfg : Config) (f : Fleet) (e : Event) (T : String) : Bool :=
  e.commits cfg f && match e.call with
    | .setBridgeTargetEnabled record enabled =>
      enabled && f.store.targets.any fun t => t.targetId = T && t.campaignRecordId = record
    | .upsertBridgeTarget input => targetId cfg input = T
    | _ => false

/-- An enqueue registers the target, and its first transaction commits. -/
def Event.reregisters (cfg : Config) (f : Fleet) (e : Event) (T : String) : Bool :=
  e.commits cfg f && match e.call with
    | .beginEnqueue input _ => targetId cfg input.toBridgeTargetInput = T
    | _ => false

/-- The target is disabled or absent. -/
def Off (T : String) (s : Store) : Prop := ∀ t ∈ s.targets, t.targetId = T → t.enabled = false

instance : Decidable (Off T s) := by
  unfold Off
  infer_instance

/-- No lease of the target is handed out. -/
def NotLeased (cfg : Config) (T : String) (f : Fleet) (e : Event) : Prop :=
  ∀ l ∈ leasesIn ((fleet cfg).reply f e), ∀ k ∈ ((fleet cfg).next f e).store.jobs,
    k.jobId = l.jobId → k.targetId ≠ T

instance : Decidable (NotLeased cfg T f e) := by
  unfold NotLeased
  infer_instance

theorem commits_or_same (cfg : Config) (f : Fleet) (e : Event) :
    e.commits cfg f = true ∨ ((fleet cfg).next f e).store = f.store := by
  unfold Event.commits
  rcases next_store cfg f e with ⟨r, hc⟩ | h
  · unfold Commits at hc
    rw [hc]
    exact Or.inl rfl
  · exact Or.inr h

theorem enrols_id {en : Enrolment} (h : e.enrols cfg en) :
    (∃ input, e.call = .upsertBridgeTarget input ∧ targetId cfg input = en.id)
      ∨ ∃ input dateNow, e.call = .beginEnqueue input dateNow
        ∧ targetId cfg input.toBridgeTargetInput = en.id := by
  rcases h with ⟨input, he, hck⟩ | ⟨input, dateNow, he, hck⟩
  · exact Or.inl ⟨input, he, (checkEnrolment_ok hck).1.symm⟩
  · exact Or.inr ⟨input, dateNow, he, (checkEnrolment_ok hck).1.symm⟩

/-! ## A stopped target -/

theorem off_of_pauses {r : Reply} (hc : Commits cfg f e r) (h : e.pauses f T = true) :
    Off T ((fleet cfg).next f e).store := by
  unfold Event.pauses at h
  split at h
  swap
  · exact absurd h (by simp)
  rename_i record enabled he
  simp only [Bool.and_eq_true, Bool.not_eq_true'] at h
  obtain ⟨rfl, hany⟩ := h
  obtain ⟨t, ht, hp⟩ := List.any_eq_true.mp hany
  simp only [Bool.and_eq_true, decide_eq_true_eq] at hp
  have hw := hc.work.2
  simp only [Event.work, he] at hw
  obtain ⟨⟨⟩, hrun, -⟩ := Work.reply_ok.mp hw
  obtain ⟨t', ht', hr', -, htargets, -⟩ :=
    (setBridgeTargetEnabled_ok (store_unique f) hrun).target
  -- Records are unique, so the row the pause wrote is the target's.
  obtain rfl := key_unique (store_unique f).target_record ht' ht (hr'.trans hp.2.symm)
  intro u hu huT
  rw [htargets] at hu
  obtain ⟨i, -, ⟨-, rfl⟩ | ⟨hne, rfl⟩⟩ := mem_updateWhere.mp hu
  · rfl
  · exact absurd (huT.trans hp.1.symm) (by simpa using hne)

/-- A removal that selects a row removes one it selects. -/
theorem deleteBridgeTarget_selected {input : DeleteTargetInput} {res : Option CampaignTarget}
    {t : CampaignTarget} (h : deleteBridgeTarget input s = .ok (res, s')) (ht : t ∈ s.targets)
    (hsel : input.selects t = true) :
    ∃ t' ∈ s.targets, input.selects t' = true ∧ s' = removeTarget t'.targetId s := by
  unfold deleteBridgeTarget at h
  simp only at h
  split at h
  · exact absurd h (by simp)
  split at h
  · exact absurd h (by simp)
  split at h
  · exact absurd h (by simp)
  split at h
  · rename_i hnone
    exact absurd hsel (List.find?_eq_none.mp hnone t ht)
  · rename_i t' ht'
    simp only [Except.ok.injEq, Prod.mk.injEq] at h
    exact ⟨t', List.mem_of_find?_eq_some ht', List.find?_some ht', h.2.symm⟩

theorem off_of_deletes {r : Reply} (hc : Commits cfg f e r) (h : e.deletes f T = true) :
    Off T ((fleet cfg).next f e).store := by
  unfold Event.deletes at h
  split at h
  swap
  · exact absurd h (by simp)
  rename_i input he
  obtain ⟨t, ht, hp⟩ := List.any_eq_true.mp h
  simp only [Bool.and_eq_true, decide_eq_true_eq] at hp
  have hw := hc.work.2
  simp only [Event.work, he] at hw
  obtain ⟨res, hrun, -⟩ := Work.reply_ok.mp hw
  obtain ⟨t', ht', hsel, hs'⟩ := deleteBridgeTarget_selected hrun ht hp.2
  have htt : t'.targetId = t.targetId := by
    unfold DeleteTargetInput.selects at hsel hp
    simp only at hsel hp
    split at hsel
    · rename_i hne
      rw [if_pos hne] at hp
      exact (of_decide_eq_true hsel).trans (of_decide_eq_true hp.2).symm
    · rename_i hne
      rw [if_neg hne] at hp
      have hrecord := (of_decide_eq_true hsel).trans (of_decide_eq_true hp.2).symm
      rw [key_unique (store_unique f).target_record ht' ht hrecord]
  intro u hu huT
  rw [hs'] at hu
  have hne := (List.mem_filter.mp hu).2
  exact absurd (huT.trans (hp.1.symm.trans htt.symm)) (by simpa using hne)

/-- **A pause or a removal takes effect.** -/
theorem off_of_stops (h : e.stops cfg f T = true) : Off T ((fleet cfg).next f e).store := by
  unfold Event.stops Event.commits at h
  rw [Bool.and_eq_true, Bool.or_eq_true] at h
  obtain ⟨hcommits, h⟩ := h
  cases hr : (fleet cfg).reply f e with
  | error error => simp [hr] at hcommits
  | ok r => exact h.elim (off_of_pauses hr) (off_of_deletes hr)

/-- **Only an operator, or an enqueue's registration, turns a stopped target on.** -/
theorem off_step (h : Off T f.store) (hres : e.resumes cfg f T = false)
    (hreg : e.reregisters cfg f T = false) : Off T ((fleet cfg).next f e).store := by
  rcases commits_or_same cfg f e with hcommits | hsame
  swap
  · rwa [hsame]
  have henrols : ∀ {en : Enrolment}, e.enrols cfg en → en.id = T → False := by
    intro en he hid
    rcases enrols_id he with ⟨input, hcall, hinput⟩ | ⟨input, dateNow, hcall, hinput⟩
    · unfold Event.resumes at hres
      rw [hcommits, hcall] at hres
      simp [hinput, hid] at hres
    · unfold Event.reregisters at hreg
      rw [hcommits, hcall] at hreg
      simp [hinput, hid] at hreg
  intro u hu huT
  rcases target_before hu with ⟨t, ht, hm⟩ | hborn
  · have htT := hm.targetId.symm.trans huT
    cases hm with
    | keep => exact h u ht huT
    | enrolled he hid => exact (henrols he huT).elim
    | @switched record enabled _ he hr =>
      unfold Event.resumes at hres
      rw [hcommits, he] at hres
      cases enabled with
      | false => rfl
      | true =>
        simp only [Bool.true_and] at hres
        have hnone := List.any_eq_false.mp hres t ht
        simp [htT, hr] at hnone
    | applied => exact h t ht htT
  · cases hborn with
    | mk he => exact (henrols he huT).elim

/-- A target that is off is not leased. -/
theorem notLeased_of_off (h : Off T f.store) : NotLeased cfg T f e := by
  intro l hl k hk hkl hkT
  obtain ⟨g, req, c, hrow, hrows⟩ := leasesIn_row hl
  have htarget : c.target.targetId = T :=
    hrow.grants.targetId.trans ((hrows k hk hkl).symm.trans hkT)
  have hwanted := hrow.grants.wanted
  unfold LeaseRequest.wants at hwanted
  rw [h c.target hrow.grants.target htarget] at hwanted
  exact absurd hwanted (by simp)

/-! ## Runs -/

/-- **Pause and removal stick**: after a pause or a removal of the target commits, and until an
operator action that asks for it commits, the target stays disabled or absent and is not leased, in
every run in which no enqueue's registration of it commits meanwhile. -/
theorem stopped_run (cfg : Config) (T : String) (pre : List Event) (e : Event)
    (mid : List Event)
    (hstops : e.stops cfg ((fleet cfg).run Fleet.initial pre) T = true)
    (huntil : (fleet cfg).Along (fun f e => e.resumes cfg f T = false)
      ((fleet cfg).run Fleet.initial (pre ++ [e])) mid)
    (hreg : (fleet cfg).Along (fun f e => e.reregisters cfg f T = false)
      ((fleet cfg).run Fleet.initial (pre ++ [e])) mid) :
    Off T ((fleet cfg).run Fleet.initial (pre ++ e :: mid)).store
      ∧ (fleet cfg).Along (NotLeased cfg T) ((fleet cfg).run Fleet.initial (pre ++ [e])) mid := by
  have hoff : Off T ((fleet cfg).run Fleet.initial (pre ++ [e])).store := by
    rw [EventSystem.run_concat]
    exact off_of_stops hstops
  have hstep : ∀ f e, Off T f.store →
      e.resumes cfg f T = false ∧ e.reregisters cfg f T = false →
      Off T ((fleet cfg).next f e).store := fun f e h ⟨hres, hreg⟩ => off_step h hres hreg
  have hrun : (fleet cfg).run Fleet.initial (pre ++ e :: mid) =
      (fleet cfg).run ((fleet cfg).run Fleet.initial (pre ++ [e])) mid := by
    rw [← EventSystem.run_append, List.append_assoc, List.singleton_append]
  refine ⟨?_, ?_⟩
  · rw [hrun]
    exact EventSystem.run_inv (P := fun f => Off T f.store) hoff hstep (huntil.and hreg)
  · exact EventSystem.along_of_inv (P := fun f => Off T f.store) hoff hstep
      (fun f e h _ => notLeased_of_off h) (huntil.and hreg)

/-- A campaign with a capture to deliver. -/
def queued : List Event := Sample.register 1 :: Sample.enqueue 2 "a=1" 1 1 "job1"

theorem stopped_run_paused :
    Off Sample.id ((fleet Config.sample).run Fleet.initial
      (queued ++ Sample.setEnabled 3 false :: [Sample.lease 4 "token1"])).store := by
  -- The conditions are evaluated together: they share the run.
  refine (fun h : _ ∧ _ ∧ _ => (stopped_run Config.sample Sample.id queued
    (Sample.setEnabled 3 false) [Sample.lease 4 "token1"] h.1 h.2.1 h.2.2).1) ?_
  decide +kernel

/-- **An enqueue enables a paused target again**, with no operator action in between. -/
theorem enqueue_resumes_paused :
    ¬ ∀ (cfg : Config) (T : String) (pre mid : List Event) (e : Event),
      e.stops cfg ((fleet cfg).run Fleet.initial pre) T = true →
      (fleet cfg).Along (fun f e => e.resumes cfg f T = false)
        ((fleet cfg).run Fleet.initial (pre ++ [e])) mid →
      Off T ((fleet cfg).run Fleet.initial (pre ++ e :: mid)).store := by
  intro h
  refine (fun hrun : _ ∧ _ ∧ ¬_ => hrun.2.2 (h Config.sample Sample.id queued
    (Sample.enqueue 4 "a=2" 2 2 "job2") (Sample.setEnabled 3 false) hrun.1 hrun.2.1)) ?_
  decide +kernel

end LinkSuffix
