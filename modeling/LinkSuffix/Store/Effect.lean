import LinkSuffix.Store.Frame
import LinkSuffix.Store.LeaseEffect

/-!
# What one event does

The inversion lemmas of the Fleet: what an event can do to each row, with the checks that guard it.
Every invariant is derived from these and from no definition of a call.

* `Effect`, **`next_effect`**: the effect of an event, one constructor a kind of call.
* `JobMove`, `JobBorn`, **`next_jobs`**: the job rows, and `job_before`, `job_after`.
* **`next_captures`**, **`next_targets`**: the capture rows and the target rows.
-/

namespace LinkSuffix

open Lib

variable {cfg : Config} {f : Fleet} {e : Event} {s s' : Store} {r : Except StoreError Reply}

/-! ## Job rows -/

/-- The capture the second transaction of an enqueue writes. -/
def CaptureTicket.writes (ticket : CaptureTicket) (nextval : Nat) (s : Store) : Nat :=
  ((s.captures.find? ticket.names).map (·.captureId)).getD nextval

/-- The jobs an event inserts. -/
inductive JobBorn (s s' : Store) (e : Event) : DeliveryJob → Prop
  | enqueued {ticket : CaptureTicket} {nextval : Nat} {jobId : String}
      (he : e.call = .enqueueCapture ticket nextval jobId)
      (hj : s.jobOf ticket.targetId (ticket.writes nextval s) = none)
      (hs' : s'.captures = (saveCapture ticket nextval e.now s).2.captures) :
      JobBorn s s' e (newJob jobId ticket.targetId (ticket.writes nextval s) e.now)
  | queued {record jobId : String} {t : CampaignTarget} {c : SuffixCapture}
      (he : e.call = .queueLatestBridgeCapture record jobId) (ht : t ∈ s.targets)
      (hen : t.enabled = true) (hc : s.newestCapture t.targetId = some c)
      (hj : s.jobOf t.targetId c.captureId = none) (hs' : s'.captures = s.captures) :
      JobBorn s s' e (newJob jobId t.targetId c.captureId e.now)
  | missing {req : LeaseRequest} {j : DeliveryJob} (he : e.call = .leaseBridgeJobs req)
      (hm : Missing s req e.now j) (hs' : s'.captures = s.captures) : JobBorn s s' e j

/-- The row an acknowledgement reads, and the lease it presents. -/
structure AckRow (cfg : Config) (input : AckInput) (s : Store) (j : DeliveryJob)
    (c : SuffixCapture) (t : CampaignTarget) : Prop where
  job : j ∈ s.jobs
  jobId : j.jobId = input.jobId
  capture : c ∈ s.captures
  captureId : c.captureId = j.captureId
  target : t ∈ s.targets
  targetId : t.targetId = j.targetId
  shard : t.shardId = input.shardId
  held : j.heldBy cfg input.workerId input.leaseToken = true
  leased : j.state = .leased

/-- What an event with reply `r` does to a job row, and the checks that let it. -/
inductive JobMove (cfg : Config) (s s' : Store) (e : Event) (r : Except StoreError Reply) :
    DeliveryJob → DeliveryJob → Prop
  | keep (j : DeliveryJob) : JobMove cfg s s' e r j j
  | replaced {ticket : CaptureTicket} {nextval : Nat} {jobId : String} {j : DeliveryJob}
      (he : e.call = .enqueueCapture ticket nextval jobId) (ht : j.targetId = ticket.targetId)
      (hw : j.state.waiting = true) (hc : j.captureId ≠ ticket.writes nextval s)
      (hs' : s'.captures = (saveCapture ticket nextval e.now s).2.captures) :
      JobMove cfg s s' e r j j.supersede
  | revived {ticket : CaptureTicket} {nextval : Nat} {jobId : String} {j : DeliveryJob}
      (he : e.call = .enqueueCapture ticket nextval jobId) (ht : j.targetId = ticket.targetId)
      (hc : j.captureId = ticket.writes nextval s) (hd : j.state = .dead)
      (hs' : s'.captures = (saveCapture ticket nextval e.now s).2.captures) :
      JobMove cfg s s' e r j { j with state := .pending }
  | outdated {record jobId : String} {t : CampaignTarget} {c : SuffixCapture} {j : DeliveryJob}
      (he : e.call = .queueLatestBridgeCapture record jobId) (ht : j.targetId = t.targetId)
      (hn : s.newestCapture t.targetId = some c) (hw : j.state.waiting = true)
      (hc : j.captureId ≠ c.captureId) : JobMove cfg s s' e r j j.supersede
  | requeued {record jobId : String} {t : CampaignTarget} {c : SuffixCapture} {j : DeliveryJob}
      (he : e.call = .queueLatestBridgeCapture record jobId) (htm : t ∈ s.targets)
      (hen : t.enabled = true) (ht : j.targetId = t.targetId)
      (hn : s.newestCapture t.targetId = some c) (hc : j.captureId = c.captureId)
      (hd : j.state = .dead ∨ j.state = .superseded) : JobMove cfg s s' e r j (j.requeue e.now)
  | leased {req : LeaseRequest} {ls : List BridgeLease} {j k : DeliveryJob}
      (he : e.call = .leaseBridgeJobs req) (hr : r = .ok (.leases ls))
      (hm : LeaseMove cfg s s' req e.now ls j k) : JobMove cfg s s' e r j k
  | verified {input : AckInput} {j : DeliveryJob} {c : SuffixCapture} {t : CampaignTarget}
      (he : e.call = .acknowledgeBridgeJob input) (hrow : AckRow cfg input s j c t)
      (hx : input.exactMatch cfg c = true) (hr : r = .ok (.ack ⟨true, "applied", none, false⟩)) :
      JobMove cfg s s' e r j (j.verify e.now c.suffixHash)
  | refused {input : AckInput} {j : DeliveryJob} {c : SuffixCapture} {t : CampaignTarget}
      {error : String} (he : e.call = .acknowledgeBridgeJob input)
      (hrow : AckRow cfg input s j c t) (hx : input.exactMatch cfg c = false) :
      JobMove cfg s s' e r j (j.refuse cfg e.now error)
  | renewed {input : RenewInput} {lease : LeaseRef} {j : DeliveryJob}
      (he : e.call = .renewBridgeLeases input) (hj : j.jobId = lease.jobId)
      (hm : lease ∈ input.leases)
      (hh : j.heldBy cfg input.workerId lease.leaseToken = true) (hl : j.state = .leased) :
      JobMove cfg s s' e r j (j.renew cfg e.now)
  | paused {record : String} {t : CampaignTarget} {j : DeliveryJob}
      (he : e.call = .setBridgeTargetEnabled record false) (htm : t ∈ s.targets)
      (hrec : t.campaignRecordId = record) (ht : j.targetId = t.targetId)
      (hw : j.state.waiting = true ∨ j.state = .leased) : JobMove cfg s s' e r j j.supersede

theorem LeaseMove.key {req : LeaseRequest} {now : Nat} {ls : List BridgeLease}
    {j k : DeliveryJob} (h : LeaseMove cfg s s' req now ls j k) : k.key = j.key := by
  cases h with
  | swept h => exact h.key.symm
  | killed => rfl
  | granted => rfl

/-- No event changes the identity of a job. -/
theorem JobMove.key {j k : DeliveryJob} (h : JobMove cfg s s' e r j k) : k.key = j.key := by
  cases h with
  | leased he hr hm => exact hm.key
  | requeued => exact DeliveryJob.key_requeue j
  | _ => rfl

/-! ## One call at a time -/

theorem saveCapture_fst (ticket : CaptureTicket) (nextval now : Nat) (s : Store) :
    (saveCapture ticket nextval now s).1 = ticket.writes nextval s := by
  unfold saveCapture CaptureTicket.writes
  split
  · rename_i h
    rw [h]
    rfl
  · rename_i c h
    rw [h]
    rfl

theorem saveCapture_frame (ticket : CaptureTicket) (nextval now : Nat) (s : Store) :
    (saveCapture ticket nextval now s).2 =
      { s with captures := (saveCapture ticket nextval now s).2.captures } := by
  unfold saveCapture
  split <;> rfl

/-- The upsert of a job: a new row, or the conflict action on the row of that capture. -/
theorem upsertJob_rows (R : DeliveryJob → DeliveryJob → Prop)
    (onConflict : DeliveryJob → DeliveryJob) (jobId targetId : String) (captureId now : Nat)
    (s : Store) (hkeep : ∀ j, R j j)
    (hconflict : ∀ j, j.targetId = targetId → j.captureId = captureId → R j (onConflict j)) :
    ∃ born, (∀ j ∈ born, j = newJob jobId targetId captureId now ∧ s.jobOf targetId captureId = none)
      ∧ List.Forall₂ R (s.jobs ++ born) (upsertJob onConflict jobId targetId captureId now s).2.jobs := by
  unfold upsertJob
  split
  · rename_i h
    refine ⟨[newJob jobId targetId captureId now], fun j hj => ⟨List.mem_singleton.mp hj, h⟩, ?_⟩
    exact forall₂_refl hkeep
  · refine ⟨[], fun j hj => absurd hj List.not_mem_nil, ?_⟩
    rw [List.append_nil]
    refine forall₂_updateWhere (fun j _ hp => ?_) fun j _ _ => hkeep j
    simp only [Bool.and_eq_true, decide_eq_true_eq] at hp
    exact hconflict j hp.1 hp.2

theorem jobOf_eq_none_iff {targetId : String} {captureId : Nat} :
    s.jobOf targetId captureId = none ↔
      ∀ j ∈ s.jobs, ¬ (j.targetId = targetId ∧ j.captureId = captureId) := by
  simp [Store.jobOf]

theorem supersedeOthers_rows {R : DeliveryJob → DeliveryJob → Prop} {targetId : String}
    {captureId : Nat} (hkeep : ∀ j, R j j)
    (h : ∀ j, j.targetId = targetId → j.state.waiting = true → j.captureId ≠ captureId →
      R j j.supersede) :
    List.Forall₂ R s.jobs (supersedeOthers targetId captureId s).jobs := by
  refine forall₂_updateWhere (fun j _ hp => ?_) fun j _ _ => hkeep j
  simp only [Bool.and_eq_true, decide_eq_true_eq] at hp
  exact h j hp.1.1 hp.1.2 hp.2

theorem supersedeOthers_jobOf {targetId t : String} {captureId c : Nat} :
    (supersedeOthers targetId captureId s).jobOf t c = none ↔ s.jobOf t c = none := by
  have hrows : List.Forall₂ (fun j k : DeliveryJob => k.key = j.key) s.jobs
      (supersedeOthers targetId captureId s).jobs :=
    supersedeOthers_rows (fun _ => rfl) fun j _ _ _ => j.key_supersede
  rw [jobOf_eq_none_iff, jobOf_eq_none_iff]
  constructor
  · intro h j hj
    obtain ⟨k, hk, hkey⟩ := forall₂_mem_left hrows hj
    rw [← targetId_of_key hkey, ← captureId_of_key hkey]
    exact h k hk
  · intro h k hk
    obtain ⟨j, hj, hkey⟩ := forall₂_mem_right hrows hk
    rw [targetId_of_key hkey, captureId_of_key hkey]
    exact h j hj

/-- Superseding the other captures' jobs and upserting the job of one capture, in a row. -/
theorem supersede_upsert_rows (R : DeliveryJob → DeliveryJob → Prop)
    (onConflict : DeliveryJob → DeliveryJob) (jobId targetId : String) (captureId now : Nat)
    (s : Store) (hkeep : ∀ j, R j j)
    (hsupersede : ∀ j, j.targetId = targetId → j.state.waiting = true →
      j.captureId ≠ captureId → R j j.supersede)
    (hconflict : ∀ j, j.targetId = targetId → j.captureId = captureId → R j (onConflict j)) :
    ∃ born, (∀ j ∈ born, j = newJob jobId targetId captureId now ∧ s.jobOf targetId captureId = none)
      ∧ List.Forall₂ R (s.jobs ++ born) (upsertJob onConflict jobId targetId captureId now
        (supersedeOthers targetId captureId s)).2.jobs := by
  obtain ⟨born, hborn, hrows⟩ := upsertJob_rows
    (fun j k => k = j ∨ (j.targetId = targetId ∧ j.captureId = captureId ∧ k = onConflict j))
    onConflict jobId targetId captureId now (supersedeOthers targetId captureId s) (fun j => Or.inl rfl) fun j ht hc => Or.inr ⟨ht, hc, rfl⟩
  refine ⟨born, fun j hj => ⟨(hborn j hj).1, supersedeOthers_jobOf.mp (hborn j hj).2⟩, ?_⟩
  have hfirst : List.Forall₂ (fun j k => k = j ∨ (j.targetId = targetId ∧ j.state.waiting = true
      ∧ j.captureId ≠ captureId ∧ k = j.supersede)) (s.jobs ++ born)
      ((supersedeOthers targetId captureId s).jobs ++ born) :=
    List.rel_append (supersedeOthers_rows (fun j => Or.inl rfl)
      fun j ht hw hc => Or.inr ⟨ht, hw, hc, rfl⟩) (forall₂_refl fun j => Or.inl rfl)
  refine forall₂_comp hfirst hrows fun i j k hij hjk => ?_
  rcases hij with rfl | ⟨ht, hw, hc, rfl⟩
  · rcases hjk with rfl | ⟨ht, hc, rfl⟩
    · exact hkeep _
    · exact hconflict _ ht hc
  · rcases hjk with rfl | ⟨-, hc', -⟩
    · exact hsupersede i ht hw hc
    · exact absurd hc' hc

/-- The renewal of a list of leases is one update. -/
theorem renewLoop_store (input : RenewInput) (now : Nat) (leases : List LeaseRef) (s : Store) :
    (renewLoop cfg input now leases s).2 = { s with
      jobs := updateWhere (fun j => leases.any fun lease => s.renewable cfg input lease j)
        (DeliveryJob.renew cfg now) s.jobs } := by
  induction leases generalizing s with
  | nil =>
    simp only [List.any_nil, updateWhere_false]
    rfl
  | cons lease leases ih =>
    have hloop : (renewLoop cfg input now (lease :: leases) s).2 =
        (renewLoop cfg input now leases { s with
          jobs := updateWhere (s.renewable cfg input lease) (DeliveryJob.renew cfg now)
            s.jobs }).2 := by
      simp only [renewLoop]
      split <;> rfl
    rw [hloop, ih]
    simp only [List.any_cons]
    congr 1
    -- Renewing changes no column the renewal of a later entry reads.
    exact updateWhere_updateWhere (fun j => rfl) fun j => rfl

/-! ## Acknowledgements -/

/-- What an acknowledgement does: nothing but the shard's health, or it settles a leased job. -/
inductive Acks (cfg : Config) (input : AckInput) (now : Nat) (s s' : Store) : AckResult → Prop
  | unchanged {res : AckResult} (h : s' = { s with shards := s'.shards }) :
      Acks cfg input now s s' res
  | verified {j : DeliveryJob} {c : SuffixCapture} {t : CampaignTarget}
      (hrow : AckRow cfg input s j c t) (hx : input.exactMatch cfg c = true)
      (h : s' = { s with
        jobs := updateKey (·.jobId) input.jobId (DeliveryJob.verify now c.suffixHash) s.jobs
        targets := updateKey (·.targetId) j.targetId
          (fun t => { t with
            lastAppliedAt := some now, lastAppliedSuffixHash := some c.suffixHash }) s.targets
        shards := s'.shards }) : Acks cfg input now s s' ⟨true, "applied", none, false⟩
  | refused {j : DeliveryJob} {c : SuffixCapture} {t : CampaignTarget} {error : String}
      {res : AckResult} (hrow : AckRow cfg input s j c t) (hx : input.exactMatch cfg c = false)
      (h : s' = { s with
        jobs := updateKey (·.jobId) input.jobId (DeliveryJob.refuse cfg now error) s.jobs
        shards := s'.shards }) : Acks cfg input now s s' res

theorem ackRow_some {input : AckInput} {j : DeliveryJob} {c : SuffixCapture}
    (h : s.ackRow input = some (j, c)) :
    j ∈ s.jobs ∧ j.jobId = input.jobId ∧ c ∈ s.captures ∧ c.captureId = j.captureId ∧
      ∃ t ∈ s.targets, t.targetId = j.targetId ∧ t.shardId = input.shardId := by
  unfold Store.ackRow at h
  split at h
  · exact absurd h (by simp)
  · rename_i j' hj
    split at h
    · rename_i c' t hc ht
      split at h
      · rename_i hshard
        obtain ⟨rfl, rfl⟩ := Prod.mk.inj (Option.some.inj h)
        obtain ⟨hj, hid⟩ := job?_some hj
        obtain ⟨hc, hcid⟩ := capture?_some hc
        obtain ⟨ht, htid⟩ := target?_some ht
        exact ⟨hj, hid, hc, hcid, t, ht, htid, hshard⟩
      · exact absurd h (by simp)
    · exact absurd h (by simp)

theorem acknowledgeBridgeJob_ok {input : AckInput} {now : Nat} {res : AckResult}
    (h : acknowledgeBridgeJob cfg input now s = .ok (res, s')) : Acks cfg input now s s' res := by
  unfold acknowledgeBridgeJob at h
  split at h
  · exact absurd h (by simp)
  split at h
  · obtain ⟨-, rfl⟩ := Prod.mk.inj (Except.ok.inj h)
    exact .unchanged rfl
  rename_i j c hrow
  split at h
  · obtain ⟨-, rfl⟩ := Prod.mk.inj (Except.ok.inj h)
    exact .unchanged rfl
  rename_i hheld
  split at h
  · split at h
    · obtain ⟨-, rfl⟩ := Prod.mk.inj (Except.ok.inj h)
      exact .unchanged rfl
    · obtain ⟨-, rfl⟩ := Prod.mk.inj (Except.ok.inj h)
      exact .unchanged rfl
  split at h
  · obtain ⟨-, rfl⟩ := Prod.mk.inj (Except.ok.inj h)
    exact .unchanged rfl
  rename_i hleased
  obtain ⟨hj, hid, hc, hcid, t, ht, htid, hshard⟩ := ackRow_some hrow
  have hack : AckRow cfg input s j c t :=
    ⟨hj, hid, hc, hcid, ht, htid, hshard, not_not.mp hheld, not_not.mp hleased⟩
  unfold acknowledgeLeased at h
  split at h
  · rename_i hx
    obtain ⟨rfl, rfl⟩ := Prod.mk.inj (Except.ok.inj h)
    exact .verified hack hx rfl
  · rename_i hx
    obtain ⟨-, rfl⟩ := Prod.mk.inj (Except.ok.inj h)
    exact .refused hack (by simpa using hx) rfl

/-! ## Job rows, event by event -/

/-- The jobs after an event that removes no target. -/
def JobsMove (cfg : Config) (s s' : Store) (e : Event) (r : Except StoreError Reply) : Prop :=
  ∃ born, (∀ j ∈ born, JobBorn s s' e j)
    ∧ List.Forall₂ (JobMove cfg s s' e r) (s.jobs ++ born) s'.jobs

/-- The target an event removes. -/
def Removes (s s' : Store) (e : Event) (t : CampaignTarget) : Prop :=
  ∃ input, e.call = .deleteBridgeTarget input ∧ t ∈ s.targets ∧ input.selects t = true
    ∧ s' = removeTarget t.targetId s

theorem jobsMove_of_eq (h : s'.jobs = s.jobs) : JobsMove cfg s s' e r := by
  refine ⟨[], fun j hj => absurd hj List.not_mem_nil, ?_⟩
  rw [List.append_nil, h]
  exact forall₂_refl fun j => .keep j

theorem jobsMove_updateWhere {p : DeliveryJob → Bool} {g : DeliveryJob → DeliveryJob}
    (h : s'.jobs = updateWhere p g s.jobs)
    (hmove : ∀ j ∈ s.jobs, p j = true → JobMove cfg s s' e r j (g j)) : JobsMove cfg s s' e r := by
  refine ⟨[], fun j hj => absurd hj List.not_mem_nil, ?_⟩
  rw [List.append_nil, h]
  exact forall₂_updateWhere hmove fun j _ _ => .keep j

theorem enqueueCapture_frame {ticket : CaptureTicket} {nextval now : Nat} {jobId : String}
    {res : EnqueueResult} (h : enqueueCapture ticket nextval jobId now s = .ok (res, s')) :
    s'.captures = (saveCapture ticket nextval now s).2.captures ∧ s'.targets = s.targets := by
  simp only [enqueueCapture, Except.ok.injEq, Prod.mk.injEq] at h
  rw [← h.2, saveCapture_frame]
  unfold upsertJob
  split <;> exact ⟨rfl, rfl⟩

theorem enqueueCapture_jobs {ticket : CaptureTicket} {nextval : Nat} {jobId : String}
    {res : EnqueueResult} (he : e.call = .enqueueCapture ticket nextval jobId)
    (h : enqueueCapture ticket nextval jobId e.now s = .ok (res, s')) : JobsMove cfg s s' e r := by
  have hcaptures := (enqueueCapture_frame h).1
  simp only [enqueueCapture, Except.ok.injEq, Prod.mk.injEq] at h
  obtain ⟨-, hs'⟩ := h
  rw [saveCapture_fst, saveCapture_frame] at hs'
  obtain ⟨born, hborn, hrows⟩ := supersede_upsert_rows (JobMove cfg s s' e r)
    DeliveryJob.revive jobId ticket.targetId (ticket.writes nextval s) e.now
    { s with captures := (saveCapture ticket nextval e.now s).2.captures }
    (fun j => .keep j) (fun j ht hw hc => .replaced he ht hw hc hcaptures) fun j ht hc => by
      unfold DeliveryJob.revive
      split
      · rename_i hd
        exact .revived he ht hc hd hcaptures
      · exact .keep j
  rw [hs'] at hrows
  refine ⟨born, fun j hj => ?_, hrows⟩
  obtain ⟨rfl, hnone⟩ := hborn j hj
  exact .enqueued he hnone hcaptures

theorem queueLatest_frame {record jobId : String} {now : Nat} {res : QueueLatestResult}
    (h : queueLatestBridgeCapture record jobId now s = .ok (res, s')) :
    s'.captures = s.captures ∧ s'.targets = s.targets := by
  unfold queueLatestBridgeCapture at h
  split at h
  · exact absurd h (by simp)
  split at h
  · obtain ⟨-, rfl⟩ := Prod.mk.inj (Except.ok.inj h)
    exact ⟨rfl, rfl⟩
  simp only [Except.ok.injEq, Prod.mk.injEq] at h
  rw [← h.2]
  unfold upsertJob
  split <;> exact ⟨rfl, rfl⟩

theorem queueLatest_jobs {record jobId : String} {res : QueueLatestResult}
    (he : e.call = .queueLatestBridgeCapture record jobId)
    (h : queueLatestBridgeCapture record jobId e.now s = .ok (res, s')) :
    JobsMove cfg s s' e r := by
  have hcaptures := (queueLatest_frame h).1
  unfold queueLatestBridgeCapture at h
  split at h
  · exact absurd h (by simp)
  rename_i t ht
  have htm := List.mem_of_find?_eq_some ht
  have hten : t.enabled = true := by
    have := List.find?_some ht
    simp only [decide_eq_true_eq] at this
    exact this.2
  split at h
  · obtain ⟨-, rfl⟩ := Prod.mk.inj (Except.ok.inj h)
    exact jobsMove_of_eq rfl
  rename_i c hc
  simp only [Except.ok.injEq, Prod.mk.injEq] at h
  obtain ⟨-, hs'⟩ := h
  obtain ⟨born, hborn, hrows⟩ := supersede_upsert_rows (JobMove cfg s s' e r)
    (DeliveryJob.requeue e.now) jobId t.targetId c.captureId e.now s
    (fun j => .keep j) (fun j ht hw hne => .outdated he ht hc hw hne) fun j ht hcj => by
      by_cases hd : j.state = .dead ∨ j.state = .superseded
      · exact .requeued he htm hten ht hc hcj hd
      · unfold DeliveryJob.requeue
        rw [if_neg hd]
        exact .keep j
  rw [hs'] at hrows
  refine ⟨born, fun j hj => ?_, hrows⟩
  obtain ⟨rfl, hnone⟩ := hborn j hj
  exact .queued he htm hten hc hnone hcaptures

theorem ack_jobs {input : AckInput} {res : AckResult}
    (he : e.call = .acknowledgeBridgeJob input) (hr : r = .ok (.ack res)) (hs : s.Unique)
    (h : Acks cfg input e.now s s' res) : JobsMove cfg s s' e r := by
  cases h with
  | unchanged h => exact jobsMove_of_eq (by rw [h])
  | @verified j c t hrow hx h =>
    refine jobsMove_updateWhere (congrArg Store.jobs h) fun k hk hp => ?_
    have hkj : k = j :=
      key_unique hs.job_key hk hrow.job ((of_decide_eq_true hp).trans hrow.jobId.symm)
    subst hkj
    exact .verified he hrow hx hr
  | @refused j c t error res hrow hx h =>
    refine jobsMove_updateWhere (congrArg Store.jobs h) fun k hk hp => ?_
    have hkj : k = j :=
      key_unique hs.job_key hk hrow.job ((of_decide_eq_true hp).trans hrow.jobId.symm)
    subst hkj
    exact .refused he hrow hx

theorem renew_frame {input : RenewInput} {now : Nat} {res : RenewResult}
    (h : renewBridgeLeases cfg input now s = .ok (res, s')) :
    s'.jobs = updateWhere
        (fun j => (input.leases.take maxLeaseJobs).any fun lease => s.renewable cfg input lease j)
        (DeliveryJob.renew cfg now) s.jobs
      ∧ s'.captures = s.captures ∧ s'.targets = s.targets := by
  simp only [renewBridgeLeases, Except.ok.injEq, Prod.mk.injEq] at h
  obtain ⟨-, hs'⟩ := h
  rw [renewLoop_store] at hs'
  subst hs'
  exact ⟨rfl, rfl, rfl⟩

theorem renew_jobs {input : RenewInput} {res : RenewResult}
    (he : e.call = .renewBridgeLeases input)
    (h : renewBridgeLeases cfg input e.now s = .ok (res, s')) : JobsMove cfg s s' e r := by
  refine jobsMove_updateWhere (renew_frame h).1 fun j _ hp => ?_
  obtain ⟨lease, hmem, hrenew⟩ := List.any_eq_true.mp hp
  unfold Store.renewable at hrenew
  simp only [Bool.and_eq_true, decide_eq_true_eq] at hrenew
  exact .renewed he hrenew.1.1.1 (List.mem_of_mem_take hmem) hrenew.2 hrenew.1.2

theorem switch_jobs {record : String} {enabled : Bool}
    (he : e.call = .setBridgeTargetEnabled record enabled) (h : Switches record enabled s s') :
    JobsMove cfg s s' e r := by
  obtain ⟨t, ht, hr, -, -, hjobs⟩ := h.target
  cases enabled with
  | true => exact jobsMove_of_eq hjobs
  | false =>
    refine jobsMove_updateWhere hjobs fun j _ hp => ?_
    simp only [Bool.and_eq_true, Bool.or_eq_true, decide_eq_true_eq] at hp
    exact .paused he ht hr hp.1 hp.2

theorem lease_jobs {req : LeaseRequest} {leases : List BridgeLease}
    (he : e.call = .leaseBridgeJobs req) (hr : r = .ok (.leases leases))
    (h : Leases cfg req e.now leases s s') : JobsMove cfg s s' e r := by
  obtain ⟨born, hborn, hrows⟩ := h.jobs
  exact ⟨born, fun j hj => .missing he (hborn j hj) h.captures, hrows.imp fun j k hm => .leased he hr hm⟩

/-! ## The effect of an event -/

/-- The enrolment an event asks for, explicitly or by enqueueing a capture. -/
def Event.enrols (cfg : Config) (e : Event) (en : Enrolment) : Prop :=
  (∃ input, e.call = .upsertBridgeTarget input ∧ checkEnrolment cfg input = .ok en)
    ∨ ∃ input dateNow, e.call = .beginEnqueue input dateNow
      ∧ checkEnrolment cfg input.toBridgeTargetInput = .ok en

/-- What an event with reply `r` did to the store. -/
inductive Effect (cfg : Config) (f : Fleet) (e : Event) (r : Except StoreError Reply)
    (s' : Store) : Prop
  | idle (h : s' = f.store)
  | enrols {en : Enrolment} {shardId : String} (he : e.enrols cfg en)
      (h : Enrols cfg en shardId f.store s')
  | shards (h : ShardsOnly f.store s')
  | enqueues {ticket : CaptureTicket} {nextval : Nat} {jobId : String} {res : EnqueueResult}
      (he : e.call = .enqueueCapture ticket nextval jobId) (hm : ticket ∈ f.inFlight)
      (h : enqueueCapture ticket nextval jobId e.now f.store = .ok (res, s'))
  | queues {record jobId : String} {res : QueueLatestResult}
      (he : e.call = .queueLatestBridgeCapture record jobId)
      (h : queueLatestBridgeCapture record jobId e.now f.store = .ok (res, s'))
  | leases {req : LeaseRequest} {ls : List BridgeLease} (he : e.call = .leaseBridgeJobs req)
      (hr : r = .ok (.leases ls)) (h : Leases cfg req e.now ls f.store s')
  | acks {input : AckInput} {res : AckResult} (he : e.call = .acknowledgeBridgeJob input)
      (hr : r = .ok (.ack res)) (h : Acks cfg input e.now f.store s' res)
  | renews {input : RenewInput} {res : RenewResult} (he : e.call = .renewBridgeLeases input)
      (hr : r = .ok (.renewed res)) (h : renewBridgeLeases cfg input e.now f.store = .ok (res, s'))
  | switches {record : String} {enabled : Bool}
      (he : e.call = .setBridgeTargetEnabled record enabled)
      (h : Switches record enabled f.store s')
  | removes {t : CampaignTarget} (h : Removes f.store s' e t)

theorem deleteBridgeTarget_ok {input : DeleteTargetInput} {res : Option CampaignTarget}
    (h : deleteBridgeTarget input s = .ok (res, s')) :
    s' = s ∨ ∃ t ∈ s.targets, input.selects t = true ∧ s' = removeTarget t.targetId s := by
  unfold deleteBridgeTarget at h
  simp only at h
  split at h
  · exact absurd h (by simp)
  split at h
  · exact absurd h (by simp)
  split at h
  · exact absurd h (by simp)
  split at h
  · obtain ⟨-, rfl⟩ := Prod.mk.inj (Except.ok.inj h)
    exact Or.inl rfl
  · rename_i t ht
    simp only [Except.ok.injEq, Prod.mk.injEq] at h
    exact Or.inr ⟨t, List.mem_of_find?_eq_some ht, List.find?_some ht, h.2.symm⟩

/-- **The effect of an event.** -/
theorem next_effect (cfg : Config) (f : Fleet) (e : Event) :
    Effect cfg f e ((fleet cfg).reply f e) ((fleet cfg).next f e).store := by
  rcases next_store cfg f e with ⟨r, hc⟩ | h
  swap
  · exact .idle h
  obtain ⟨hen, hw⟩ := hc.work
  unfold Commits at hc
  rw [hc]
  have hs := store_unique f
  have hs' := store_unique ((fleet cfg).next f e)
  generalize ((fleet cfg).next f e).store = s' at hw hs' ⊢
  cases he : e.call with
  | upsertBridgeTarget input =>
    simp only [Event.work, he] at hw
    obtain ⟨a, h, -⟩ := Work.reply_ok.mp hw
    obtain ⟨en, hck, -, henrols⟩ := upsertBridgeTarget_ok hs h
    exact .enrols (Or.inl ⟨input, he, hck⟩) henrols
  | beginEnqueue input dateNow =>
    simp only [Event.work, he] at hw
    obtain ⟨ticket, h, -⟩ := Work.reply_ok.mp hw
    obtain ⟨en, hck, henrols, -⟩ := beginEnqueue_ok hs h
    exact .enrols (Or.inr ⟨input, dateNow, he, hck⟩) henrols
  | enqueueCapture ticket nextval jobId =>
    simp only [Event.work, he] at hw
    obtain ⟨res, h, -⟩ := Work.reply_ok.mp hw
    have hm : ticket ∈ f.inFlight := by simpa [Event.enabled, he] using hen
    exact .enqueues he hm h
  | queueLatestBridgeCapture record jobId =>
    simp only [Event.work, he] at hw
    obtain ⟨res, h, -⟩ := Work.reply_ok.mp hw
    exact .queues he h
  | registerBridgeShard shardId rawToken m =>
    simp only [Event.work, he] at hw
    obtain ⟨res, h, -⟩ := Work.reply_ok.mp hw
    exact .shards (registerBridgeShard_frame h)
  | deleteBridgeShard shardId confirmed token dateNow =>
    simp only [Event.work, he] at hw
    obtain ⟨res, h, -⟩ := Work.reply_ok.mp hw
    exact .shards (deleteBridgeShard_frame h)
  | leaseBridgeJobs req =>
    simp only [Event.work, he] at hw
    obtain ⟨ls, h, rfl⟩ := Work.reply_ok.mp hw
    exact .leases he rfl (leaseBridgeJobs_ok hs hs' h)
  | acknowledgeBridgeJob input =>
    simp only [Event.work, he] at hw
    obtain ⟨res, h, rfl⟩ := Work.reply_ok.mp hw
    exact .acks he rfl (acknowledgeBridgeJob_ok h)
  | renewBridgeLeases input =>
    simp only [Event.work, he] at hw
    obtain ⟨res, h, rfl⟩ := Work.reply_ok.mp hw
    exact .renews he rfl h
  | setBridgeTargetEnabled record enabled =>
    simp only [Event.work, he] at hw
    obtain ⟨res, h, -⟩ := Work.reply_ok.mp hw
    exact .switches he (setBridgeTargetEnabled_ok hs h)
  | deleteBridgeTarget input =>
    simp only [Event.work, he] at hw
    obtain ⟨res, h, -⟩ := Work.reply_ok.mp hw
    rcases deleteBridgeTarget_ok h with hsame | ⟨t, ht, hsel, hs'⟩
    · exact .idle hsame
    · exact .removes ⟨input, he, ht, hsel, hs'⟩

/-! ## Rows -/

/-- **The jobs after an event**: every row moved as `JobMove` allows, or a target and its rows are
gone. -/
theorem next_jobs (cfg : Config) (f : Fleet) (e : Event) :
    JobsMove cfg f.store ((fleet cfg).next f e).store e ((fleet cfg).reply f e)
      ∨ ∃ t, Removes f.store ((fleet cfg).next f e).store e t := by
  cases next_effect cfg f e with
  | idle h => exact Or.inl (jobsMove_of_eq (by rw [h]))
  | enrols he h => exact Or.inl (jobsMove_of_eq h.jobs)
  | shards h => exact Or.inl (jobsMove_of_eq h.jobs)
  | enqueues he hm h => exact Or.inl (enqueueCapture_jobs he h)
  | queues he h => exact Or.inl (queueLatest_jobs he h)
  | leases he hr h => exact Or.inl (lease_jobs he hr h)
  | acks he hr h => exact Or.inl (ack_jobs he hr (store_unique f) h)
  | renews he hr h => exact Or.inl (renew_jobs he h)
  | switches he h => exact Or.inl (switch_jobs he h)
  | removes h => exact Or.inr ⟨_, h⟩

/-- A job the event inserted, under a new id. -/
structure JobNew (f : Fleet) (s' : Store) (e : Event) (j : DeliveryJob) : Prop where
  born : JobBorn f.store s' e j
  fresh : ∀ i ∈ f.store.jobs, i.jobId ≠ j.jobId

/-- Every job after an event was there before, or the event inserted it. -/
theorem job_before {k : DeliveryJob} (hk : k ∈ ((fleet cfg).next f e).store.jobs) :
    ∃ j, JobMove cfg f.store ((fleet cfg).next f e).store e ((fleet cfg).reply f e) j k
      ∧ (j ∈ f.store.jobs ∨ JobNew f ((fleet cfg).next f e).store e j) := by
  rcases next_jobs cfg f e with ⟨born, hborn, hrows⟩ | ⟨t, input, -, -, -, hs'⟩
  · obtain ⟨j, hj, hm⟩ := forall₂_mem_right hrows hk
    have hfresh := fresh_of_rows
      (forall₂_map_eq hrows fun _ _ h => (jobId_of_key h.key).symm) (store_unique _).job_key
    exact ⟨j, hm, (List.mem_append.mp hj).imp id fun hb =>
      ⟨hborn j hb, fun i hi => hfresh i hi j hb⟩⟩
  · rw [hs'] at hk
    exact ⟨k, .keep k, Or.inl (List.mem_filter.mp hk).1⟩

/-- Every job before an event is there after it, or its target or its capture's target was
removed. -/
theorem job_after (cfg : Config) (e : Event) {j : DeliveryJob} (hj : j ∈ f.store.jobs) :
    (∃ k ∈ ((fleet cfg).next f e).store.jobs,
      JobMove cfg f.store ((fleet cfg).next f e).store e ((fleet cfg).reply f e) j k)
    ∨ ∃ t, Removes f.store ((fleet cfg).next f e).store e t ∧ (j.targetId = t.targetId
      ∨ ∃ c ∈ f.store.captures, c.captureId = j.captureId ∧ c.targetId = t.targetId) := by
  rcases next_jobs cfg f e with ⟨born, hborn, hrows⟩ | ⟨t, hr⟩
  · exact Or.inl (forall₂_mem_left hrows (List.mem_append_left _ hj))
  · obtain ⟨input, -, -, -, hs'⟩ := id hr
    by_cases hgone : j.targetId = t.targetId
        ∨ ∃ c ∈ f.store.captures, c.captureId = j.captureId ∧ c.targetId = t.targetId
    · exact Or.inr ⟨t, hr, hgone⟩
    · push Not at hgone
      refine Or.inl ⟨j, ?_, .keep j⟩
      rw [hs']
      refine List.mem_filter.mpr ⟨hj, ?_⟩
      simp only [List.any_eq_true, Bool.and_eq_true, decide_eq_true_eq]
      exact ⟨hgone.1, fun ⟨c, hc, hcj, hct⟩ => hgone.2 c hc hcj hct⟩

/-- **The captures after an event**: the same, or an enqueue wrote one, or a target was removed. -/
theorem next_captures (cfg : Config) (f : Fleet) (e : Event) :
    ((fleet cfg).next f e).store.captures = f.store.captures
    ∨ (∃ ticket nextval jobId, e.call = .enqueueCapture ticket nextval jobId
        ∧ ticket ∈ f.inFlight ∧ ((fleet cfg).next f e).store.captures =
          (saveCapture ticket nextval e.now f.store).2.captures)
    ∨ ∃ t, Removes f.store ((fleet cfg).next f e).store e t := by
  cases next_effect cfg f e with
  | idle h => exact Or.inl (by rw [h])
  | enrols he h => exact Or.inl h.captures
  | shards h => exact Or.inl h.captures
  | enqueues he hm h =>
    exact Or.inr (Or.inl ⟨_, _, _, he, hm, (enqueueCapture_frame h).1⟩)
  | queues he h => exact Or.inl (queueLatest_frame h).1
  | leases he hr h => exact Or.inl h.captures
  | acks he hr h =>
    cases h with
    | unchanged h => exact Or.inl (by rw [h])
    | verified _ _ h => exact Or.inl (by rw [h])
    | refused _ _ h => exact Or.inl (by rw [h])
  | renews he hr h => exact Or.inl (renew_frame h).2.1
  | switches he h => exact Or.inl h.captures
  | removes h => exact Or.inr (Or.inr ⟨_, h⟩)

/-- What an event does to a capture row. -/
inductive CaptureMove (f : Fleet) (e : Event) : SuffixCapture → SuffixCapture → Prop
  | keep (c : SuffixCapture) : CaptureMove f e c c
  | rewritten {ticket : CaptureTicket} {nextval : Nat} {jobId : String} {c : SuffixCapture}
      (he : e.call = .enqueueCapture ticket nextval jobId) (hm : ticket ∈ f.inFlight)
      (hn : ticket.names c = true) : CaptureMove f e c (ticket.rewrite c)

/-- The capture an event inserts. -/
inductive CaptureBorn (f : Fleet) (s' : Store) (e : Event) : SuffixCapture → Prop
  | mk {ticket : CaptureTicket} {nextval : Nat} {jobId : String}
      (he : e.call = .enqueueCapture ticket nextval jobId) (hm : ticket ∈ f.inFlight)
      (hn : f.store.captures.find? ticket.names = none)
      (hs' : s'.captures = f.store.captures ++ [ticket.row nextval e.now]) :
      CaptureBorn f s' e (ticket.row nextval e.now)

/-- An inserted capture has a new id. -/
theorem CaptureBorn.fresh {d : SuffixCapture} (h : CaptureBorn f s' e d) (hs' : s'.Unique) :
    ∀ c ∈ f.store.captures, c.captureId ≠ d.captureId := by
  cases h with
  | mk he hm hn hcaptures =>
    intro c hc hid
    have hkey := hs'.capture_key
    rw [hcaptures, List.map_append, List.nodup_append] at hkey
    exact hkey.2.2 _ (List.mem_map_of_mem hc) _ (List.mem_singleton.mpr rfl) hid

/-- The columns of a capture that no event changes. -/
theorem CaptureMove.key {c d : SuffixCapture} (h : CaptureMove f e c d) :
    d.captureId = c.captureId ∧ d.targetId = c.targetId ∧ d.version = c.version
      ∧ d.capturedAt = c.capturedAt := by
  cases h with
  | keep => exact ⟨rfl, rfl, rfl, rfl⟩
  | rewritten => exact ⟨rfl, rfl, rfl, rfl⟩

theorem CaptureMove.age {c d : SuffixCapture} (h : CaptureMove f e c d) : d.age = c.age := by
  unfold SuffixCapture.age
  rw [h.key.1, h.key.2.2.2]

/-- Every capture after an event was there before, or the event inserted it. -/
theorem capture_before {d : SuffixCapture} (hd : d ∈ ((fleet cfg).next f e).store.captures) :
    (∃ c ∈ f.store.captures, CaptureMove f e c d)
      ∨ CaptureBorn f ((fleet cfg).next f e).store e d := by
  rcases next_captures cfg f e with h | ⟨ticket, nextval, jobId, he, hm, h⟩
      | ⟨t, input, -, -, -, h⟩
  · exact Or.inl ⟨d, h ▸ hd, .keep d⟩
  · unfold saveCapture at h
    split at h
    · rename_i hnone
      rw [h] at hd
      rcases List.mem_append.mp hd with hd | hd
      · exact Or.inl ⟨d, hd, .keep d⟩
      · rw [List.mem_singleton.mp hd]
        exact Or.inr (.mk he hm hnone h)
    · rw [h] at hd
      obtain ⟨c, hc, ⟨hn, rfl⟩ | ⟨-, rfl⟩⟩ := mem_updateWhere.mp hd
      · exact Or.inl ⟨c, hc, .rewritten he hm hn⟩
      · exact Or.inl ⟨d, hc, .keep d⟩
  · rw [h] at hd
    exact Or.inl ⟨d, (List.mem_filter.mp hd).1, .keep d⟩

/-- Every capture before an event is there after it, or its target was removed. -/
theorem capture_after (cfg : Config) (e : Event) {c : SuffixCapture} (hc : c ∈ f.store.captures) :
    (∃ d ∈ ((fleet cfg).next f e).store.captures, CaptureMove f e c d)
    ∨ ∃ t, Removes f.store ((fleet cfg).next f e).store e t ∧ c.targetId = t.targetId := by
  rcases next_captures cfg f e with h | ⟨ticket, nextval, jobId, he, hm, h⟩ | ⟨t, hr⟩
  · exact Or.inl ⟨c, h ▸ hc, .keep c⟩
  · refine Or.inl ?_
    rw [h]
    unfold saveCapture
    split
    · exact ⟨c, List.mem_append_left _ hc, .keep c⟩
    · cases hn : ticket.names c with
      | true => exact ⟨_, mem_updateWhere.mpr ⟨c, hc, Or.inl ⟨hn, rfl⟩⟩, .rewritten he hm hn⟩
      | false => exact ⟨_, mem_updateWhere.mpr ⟨c, hc, Or.inr ⟨hn, rfl⟩⟩, .keep c⟩
  · by_cases ht : c.targetId = t.targetId
    · exact Or.inr ⟨t, hr, ht⟩
    · obtain ⟨input, -, -, -, h⟩ := hr
      refine Or.inl ⟨c, ?_, .keep c⟩
      rw [h]
      exact List.mem_filter.mpr ⟨hc, by simpa using ht⟩

/-- What an event does to the target rows. -/
inductive TargetsMove (cfg : Config) (s s' : Store) (e : Event) : Prop
  | same (h : s'.targets = s.targets)
  | enrolled {en : Enrolment} {shardId : String} (he : e.enrols cfg en)
      (h : Enrols cfg en shardId s s')
  | switched {record : String} {enabled : Bool}
      (he : e.call = .setBridgeTargetEnabled record enabled) (h : Switches record enabled s s')
  | applied {input : AckInput} {j : DeliveryJob} {c : SuffixCapture} {t : CampaignTarget}
      (he : e.call = .acknowledgeBridgeJob input) (hrow : AckRow cfg input s j c t)
      (hx : input.exactMatch cfg c = true)
      (h : s'.targets = updateKey (·.targetId) j.targetId (fun t => { t with
        lastAppliedAt := some e.now, lastAppliedSuffixHash := some c.suffixHash }) s.targets)
      (hjobs : j.verify e.now c.suffixHash ∈ s'.jobs)
  | removed {t : CampaignTarget} (h : Removes s s' e t)

/-- **The targets after an event.** -/
theorem next_targets (cfg : Config) (f : Fleet) (e : Event) :
    TargetsMove cfg f.store ((fleet cfg).next f e).store e := by
  cases next_effect cfg f e with
  | idle h => exact .same (by rw [h])
  | enrols he h => exact .enrolled he h
  | shards h => exact .same h.targets
  | enqueues he hm h => exact .same (enqueueCapture_frame h).2
  | queues he h => exact .same (queueLatest_frame h).2
  | leases he hr h => exact .same h.targets
  | acks he hr h =>
    cases h with
    | unchanged h => exact .same (by rw [h])
    | verified hrow hx h =>
      refine .applied he hrow hx (by rw [h]) ?_
      rw [h]
      exact mem_updateWhere.mpr ⟨_, hrow.job, Or.inl ⟨decide_eq_true hrow.jobId, rfl⟩⟩
    | refused _ _ h => exact .same (by rw [h])
  | renews he hr h => exact .same (renew_frame h).2.2
  | switches he h => exact .switched he h
  | removes h => exact .removed h

/-- What an event does to a target row. -/
inductive TargetMove (cfg : Config) (s s' : Store) (e : Event) :
    CampaignTarget → CampaignTarget → Prop
  | keep (t : CampaignTarget) : TargetMove cfg s s' e t t
  | enrolled {en : Enrolment} {shardId : String} {t : CampaignTarget} (he : e.enrols cfg en)
      (ht : t.targetId = en.id) : TargetMove cfg s s' e t (en.row cfg shardId (some t))
  | switched {record : String} {enabled : Bool} {t : CampaignTarget}
      (he : e.call = .setBridgeTargetEnabled record enabled) (hr : t.campaignRecordId = record) :
      TargetMove cfg s s' e t { t with enabled := enabled }
  | applied {input : AckInput} {j : DeliveryJob} {c : SuffixCapture} {t : CampaignTarget}
      (he : e.call = .acknowledgeBridgeJob input) (hrow : AckRow cfg input s j c t)
      (hx : input.exactMatch cfg c = true) (hjobs : j.verify e.now c.suffixHash ∈ s'.jobs) :
      TargetMove cfg s s' e t { t with
        lastAppliedAt := some e.now, lastAppliedSuffixHash := some c.suffixHash }

/-- The target an event inserts. -/
inductive TargetBorn (cfg : Config) (s : Store) (e : Event) : CampaignTarget → Prop
  | mk {en : Enrolment} {shardId : String} (he : e.enrols cfg en) (hn : s.target? en.id = none) :
      TargetBorn cfg s e (en.row cfg shardId none)

theorem TargetMove.targetId {t u : CampaignTarget} (h : TargetMove cfg s s' e t u) :
    u.targetId = t.targetId := by
  cases h with
  | enrolled he ht => exact ht.symm
  | _ => rfl

/-- One keyed update of a target row. -/
theorem target_updateKey {R : CampaignTarget → CampaignTarget → Prop} {targetId : String}
    {g : CampaignTarget → CampaignTarget} (hkeep : ∀ t, R t t)
    (h : ∀ t ∈ s.targets, t.targetId = targetId → R t (g t)) :
    List.Forall₂ R s.targets (updateKey (·.targetId) targetId g s.targets) :=
  forall₂_updateWhere (fun t ht hp => h t ht (of_decide_eq_true hp)) fun t _ _ => hkeep t

/-- The targets after an event, row by row. -/
theorem next_targets_rows (cfg : Config) (f : Fleet) (e : Event) :
    (∃ kept born, ((fleet cfg).next f e).store.targets = kept ++ born
      ∧ List.Forall₂ (TargetMove cfg f.store ((fleet cfg).next f e).store e) f.store.targets kept
      ∧ ∀ t ∈ born, TargetBorn cfg f.store e t)
    ∨ ∃ t, Removes f.store ((fleet cfg).next f e).store e t := by
  have hu := store_unique f
  have hnil : ∀ t ∈ ([] : List CampaignTarget), TargetBorn cfg f.store e t :=
    fun t ht => absurd ht List.not_mem_nil
  cases next_targets cfg f e with
  | same h =>
    refine Or.inl ⟨_, [], h.trans (List.append_nil _).symm, ?_, hnil⟩
    exact forall₂_refl fun t => .keep t
  | enrolled he h =>
    rcases h.targets with ⟨old, hold, h⟩ | ⟨hnone, h⟩
    · refine Or.inl ⟨_, [], h.trans (List.append_nil _).symm, ?_, hnil⟩
      refine target_updateKey (fun t => .keep t) fun t ht hid => ?_
      obtain rfl : old = t := Option.some.inj
        (hold.symm.trans ((target?_eq_some_iff hu).mpr ⟨ht, hid⟩))
      exact .enrolled he hid
    · refine Or.inl ⟨_, _, h, forall₂_refl fun t => .keep t, fun t ht => ?_⟩
      rw [List.mem_singleton.mp ht]
      exact .mk he hnone
  | switched he h =>
    obtain ⟨t, ht, hr, -, htargets, -⟩ := h.target
    refine Or.inl ⟨_, [], htargets.trans (List.append_nil _).symm, ?_, hnil⟩
    refine target_updateKey (fun t => .keep t) fun u hu' hid => ?_
    obtain rfl := key_unique hu.target_key hu' ht hid
    exact .switched he hr
  | applied he hrow hx h hjobs =>
    refine Or.inl ⟨_, [], h.trans (List.append_nil _).symm, ?_, hnil⟩
    refine target_updateKey (fun t => .keep t) fun u hu' hid => ?_
    obtain rfl := key_unique hu.target_key hu' hrow.target (hid.trans hrow.targetId.symm)
    exact .applied he hrow hx hjobs
  | removed h => exact Or.inr ⟨_, h⟩

/-- Every target after an event was there before, or the event inserted it. -/
theorem target_before {u : CampaignTarget} (hu : u ∈ ((fleet cfg).next f e).store.targets) :
    (∃ t ∈ f.store.targets, TargetMove cfg f.store ((fleet cfg).next f e).store e t u)
      ∨ TargetBorn cfg f.store e u := by
  rcases next_targets_rows cfg f e with ⟨kept, born, h, hrows, hborn⟩ | ⟨t, input, -, -, -, h⟩
  · rw [h] at hu
    exact (List.mem_append.mp hu).imp (forall₂_mem_right hrows) (hborn u)
  · rw [h] at hu
    exact Or.inl ⟨u, (List.mem_filter.mp hu).1, .keep u⟩

/-- Every target before an event is there after it, or it was removed. -/
theorem target_after (cfg : Config) (e : Event) {t : CampaignTarget} (ht : t ∈ f.store.targets) :
    (∃ u ∈ ((fleet cfg).next f e).store.targets,
      TargetMove cfg f.store ((fleet cfg).next f e).store e t u)
    ∨ Removes f.store ((fleet cfg).next f e).store e t := by
  rcases next_targets_rows cfg f e with ⟨kept, born, h, hrows, -⟩ | ⟨u, hr⟩
  · obtain ⟨u, hu, hm⟩ := forall₂_mem_left hrows ht
    exact Or.inl ⟨u, h ▸ List.mem_append_left _ hu, hm⟩
  · obtain ⟨input, he, hu, hsel, h⟩ := hr
    by_cases hid : t.targetId = u.targetId
    · obtain rfl := key_unique (store_unique f).target_key ht hu hid
      exact Or.inr ⟨input, he, hu, hsel, h⟩
    · refine Or.inl ⟨t, ?_, .keep t⟩
      rw [h]
      exact List.mem_filter.mpr ⟨ht, by simpa using hid⟩

/-! ## Events on a target -/

/-- The event pauses the target. -/
def Event.pauses (f : Fleet) (e : Event) (T : String) : Bool :=
  match e.call with
  | .setBridgeTargetEnabled record enabled =>
    !enabled && f.store.targets.any fun t => t.targetId = T && t.campaignRecordId = record
  | _ => false

/-- The event asks for the target's removal. -/
def Event.deletes (f : Fleet) (e : Event) (T : String) : Bool :=
  match e.call with
  | .deleteBridgeTarget input => f.store.targets.any fun t => t.targetId = T && input.selects t
  | _ => false

theorem pauses_of_mem {record : String} {t : CampaignTarget}
    (he : e.call = .setBridgeTargetEnabled record false) (ht : t ∈ f.store.targets)
    (hr : t.campaignRecordId = record) : e.pauses f t.targetId = true := by
  unfold Event.pauses
  rw [he]
  simp only [Bool.not_false, Bool.true_and]
  exact List.any_eq_true.mpr ⟨t, ht, by simp [hr]⟩

theorem Removes.deletes {t : CampaignTarget} (h : Removes f.store s' e t) :
    e.deletes f t.targetId = true := by
  obtain ⟨input, he, ht, hsel, -⟩ := h
  unfold Event.deletes
  rw [he]
  exact List.any_eq_true.mpr ⟨t, ht, by simp [hsel]⟩

end LinkSuffix
