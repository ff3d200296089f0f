import LinkSuffix.Store.System

/-!
# What one lease does

`leaseBridgeJobs` row by row. Up to the candidate query a job is kept, superseded as stale, or
taken back as expired (`Swept`); the grant loop then kills or hands out the candidates and touches
no other row. A candidate row is one the sweep kept.

* `Grants`: what holds of a job handed out.
* `leaseBridgeJobs_ok`: the effect on every row of every table, and where each lease comes from.
-/

namespace LinkSuffix

open Lib

variable {cfg : Config} {req : LeaseRequest} {now : Nat} {s s' : Store}

/-! ## Row functions keep the keys -/

/-- The columns no operation writes. -/
def DeliveryJob.key (j : DeliveryJob) : String × String × Nat × Nat :=
  (j.jobId, j.targetId, j.captureId, j.createdAt)

@[simp] theorem DeliveryJob.key_supersede (j : DeliveryJob) : j.supersede.key = j.key := rfl

@[simp] theorem DeliveryJob.key_requeue (j : DeliveryJob) : (j.requeue now).key = j.key := by
  unfold DeliveryJob.requeue
  split <;> rfl

theorem jobId_of_key {j k : DeliveryJob} (h : j.key = k.key) : j.jobId = k.jobId :=
  congrArg (·.1) h

theorem targetId_of_key {j k : DeliveryJob} (h : j.key = k.key) : j.targetId = k.targetId :=
  congrArg (·.2.1) h

theorem captureId_of_key {j k : DeliveryJob} (h : j.key = k.key) : j.captureId = k.captureId :=
  congrArg (·.2.2.1) h

/-! ## Up to the candidate query -/

/-- The missing job of a target the request is for. -/
inductive Missing (s : Store) (req : LeaseRequest) (now : Nat) : DeliveryJob → Prop
  | mk {t : CampaignTarget} {c : SuffixCapture} (ht : t ∈ s.targets) (hw : req.wants t = true)
      (hc : s.newestCapture t.targetId = some c) (hj : s.jobOf t.targetId c.captureId = none) :
      Missing s req now (newJob (req.uuid t.targetId) t.targetId c.captureId now)

/-- What the statements before the candidate query do to a row. -/
inductive Swept (cfg : Config) (s : Store) (now : Nat) : DeliveryJob → DeliveryJob → Prop
  | keep (j : DeliveryJob) : Swept cfg s now j j
  | stale {j : DeliveryJob} (hw : j.state.waiting = true) (hs : s.stale j = true) :
      Swept cfg s now j j.supersede
  | expired {j : DeliveryJob} (he : j.expired now = true) : Swept cfg s now j (j.expire cfg now)

theorem Swept.key {j k : DeliveryJob} (h : Swept cfg s now j k) : j.key = k.key := by
  cases h with
  | keep => rfl
  | stale => rfl
  | expired => rfl

theorem mem_missing {j : DeliveryJob} (h : j ∈ (s.missingJobs req).map fun p =>
    newJob (req.uuid p.1) p.1 p.2 now) : Missing s req now j := by
  obtain ⟨⟨targetId, captureId⟩, hp, rfl⟩ := List.mem_map.mp h
  obtain ⟨t, ht, hsome⟩ := List.mem_filterMap.mp hp
  obtain ⟨ht, hw⟩ := List.mem_filter.mp ht
  split at hsome
  · exact absurd hsome (by simp)
  · rename_i c hc
    split at hsome
    · exact absurd hsome (by simp)
    · rename_i hj
      obtain ⟨rfl, rfl⟩ := Prod.mk.inj (Option.some.inj hsome)
      exact .mk ht hw hc (by simpa using hj)

theorem supersede_not_expired (j : DeliveryJob) : j.supersede.expired now = false := rfl

/-- The sweep: missing rows are inserted, then every row is kept, superseded or taken back. -/
theorem sweep_ok (h : reapExpired cfg now (supersedeStale (insertMissing req now s)) = .ok s') :
    ∃ jobs born, s' = { s with jobs := jobs } ∧ (∀ j ∈ born, Missing s req now j)
      ∧ List.Forall₂ (Swept cfg s now) (s.jobs ++ born) jobs := by
  unfold reapExpired at h
  split at h
  · exact absurd h (by simp)
  · obtain rfl := Except.ok.inj h
    refine ⟨_, _, rfl, fun j hj => mem_missing hj, ?_⟩
    have hstale : List.Forall₂ (Swept cfg s now) (insertMissing req now s).jobs
        (supersedeStale (insertMissing req now s)).jobs := by
      refine forall₂_updateWhere (fun j _ hp => ?_) fun j _ _ => .keep j
      rw [Bool.and_eq_true] at hp
      exact .stale hp.1 hp.2
    have hreap : List.Forall₂ (fun j k => k = j ∨ (j.expired now = true ∧ k = j.expire cfg now))
        (supersedeStale (insertMissing req now s)).jobs
        (updateWhere (DeliveryJob.expired now) (DeliveryJob.expire cfg now)
          (supersedeStale (insertMissing req now s)).jobs) :=
      forall₂_updateWhere (fun j _ hp => Or.inr ⟨hp, rfl⟩) fun j _ _ => Or.inl rfl
    refine forall₂_comp hstale hreap fun i j k hij hjk => ?_
    rcases hjk with rfl | ⟨he, rfl⟩
    · exact hij
    · cases hij with
      | keep => exact .expired he
      | stale => exact absurd he (by simp [supersede_not_expired])
      | expired => exact absurd he (by
          unfold DeliveryJob.expired DeliveryJob.expire
          simp)

/-! ## Candidates -/

theorem expiryDelay_pos (n : Nat) : 0 < DeliveryJob.expiryDelay n := by
  unfold DeliveryJob.expiryDelay
  have := Nat.two_pow_pos n
  omega

/-- A waiting row that is available now was kept by the sweep. -/
theorem Swept.eq_of_waiting {j k : DeliveryJob} (h : Swept cfg s now j k)
    (hw : k.state.waiting = true) (ha : k.availableAt ≤ now) : k = j := by
  cases h with
  | keep => rfl
  | stale => exact absurd hw (by simp [DeliveryJob.supersede, JobState.waiting])
  | expired he =>
    unfold DeliveryJob.expire at hw ha
    simp only at hw ha
    split at hw
    · exact absurd hw (by simp [JobState.waiting])
    · rename_i hlt
      rw [if_neg hlt] at ha
      have := expiryDelay_pos j.attemptCount
      omega

theorem mem_ranked {c : Candidate} (h : c ∈ s.ranked cfg req now) :
    c.job ∈ s.jobs ∧ s.capture? c.job.captureId = some c.capture
      ∧ s.target? c.job.targetId = some c.target
      ∧ s.leasable cfg req now c.job c.target = true := by
  obtain ⟨j, hj, hsome⟩ := List.mem_filterMap.mp h
  split at hsome
  · rename_i capture target hc ht
    split at hsome
    · rename_i hl
      obtain rfl := Option.some.inj hsome
      exact ⟨hj, hc, ht, hl⟩
    · exact absurd hsome (by simp)
  · exact absurd hsome (by simp)

theorem mem_candidates {c : Candidate} (h : c ∈ s.candidates cfg req now) :
    c ∈ s.ranked cfg req now ∧ req.locked c.job.jobId = false := by
  have hf := List.mem_filter.mp (List.mem_of_mem_take h)
  exact ⟨(List.mem_insertionSort _).mp hf.1, by simpa using hf.2⟩

theorem ranked_jobs_sublist (cfg : Config) (req : LeaseRequest) (now : Nat) (s : Store) :
    ((s.ranked cfg req now).map (·.job)).Sublist s.jobs := by
  unfold Store.ranked
  rw [List.map_filterMap]
  induction s.jobs with
  | nil => exact .slnil
  | cons j jobs ih =>
    rw [List.filterMap_cons]
    split
    · exact ih.cons _
    · rename_i k hk
      have : k = j := by
        split at hk
        · split at hk
          · exact (Option.some.inj hk).symm
          · exact absurd hk (by simp)
        · exact absurd hk (by simp)
      exact this ▸ ih.cons_cons _

/-- No job is a candidate twice. -/
theorem candidates_nodup (hs : (s.jobs.map (·.jobId)).Nodup) :
    ((s.candidates cfg req now).map fun c => c.job.jobId).Nodup := by
  have hranked : ((s.ranked cfg req now).map fun c => c.job.jobId).Nodup := by
    have := (ranked_jobs_sublist cfg req now s).map
      fun j => j.jobId
    rw [List.map_map] at this
    exact this.nodup hs
  have hsorted := ((List.perm_insertionSort
    (fun c d => c.turn (s.ranked cfg req now) ≤ d.turn (s.ranked cfg req now))
    (s.ranked cfg req now)).map fun c => c.job.jobId).nodup_iff.mpr hranked
  exact (((List.take_sublist _ _).trans List.filter_sublist).map _).nodup hsorted

/-! ## The grant loop -/

/-- What the loop does to the row of a candidate. -/
def Candidate.outcome (cfg : Config) (req : LeaseRequest) (now : Nat) (c : Candidate)
    (j : DeliveryJob) : DeliveryJob :=
  match deliverySuffixIssue c.capture.exactSuffix with
  | some issue => j.kill issue
  | none => j.grant cfg now (cfg.digest (req.token c.job.jobId)) req.workerId req.shardId

theorem Candidate.key_outcome (c : Candidate) (j : DeliveryJob) :
    (c.outcome cfg req now j).key = j.key := by
  unfold Candidate.outcome
  split <;> rfl

/-- The candidates with a deliverable suffix. -/
def deliverable (cs : List Candidate) : List Candidate :=
  cs.filter fun c => deliverySuffixIssue c.capture.exactSuffix = none

theorem leaseLoop_eq (cs : List Candidate) (s : Store) :
    leaseLoop cfg req now cs s = ((deliverable cs).map req.lease, { s with
      jobs := cs.foldl
        (fun jobs c => updateKey (·.jobId) c.job.jobId (c.outcome cfg req now) jobs) s.jobs }) := by
  induction cs generalizing s with
  | nil => rfl
  | cons c cs ih =>
    rw [leaseLoop, List.foldl_cons]
    cases hi : deliverySuffixIssue c.capture.exactSuffix with
    | some issue =>
      have ho : c.outcome cfg req now = DeliveryJob.kill issue := by
        funext j
        simp only [Candidate.outcome, hi]
      simp only [ih, ho, deliverable, List.filter_cons, hi, reduceCtorEq, decide_false,
        Bool.false_eq_true, if_false]
    | none =>
      have ho : c.outcome cfg req now = DeliveryJob.grant cfg now
          (cfg.digest (req.token c.job.jobId)) req.workerId req.shardId := by
        funext j
        simp only [Candidate.outcome, hi]
      simp only [ih, ho, deliverable, List.filter_cons, hi, decide_true, if_true, List.map_cons]

/-- A job handed out: what the candidate query checked, read in the store the lease found, and
that no other job of the target is leased in the store it leaves. -/
structure Grants (cfg : Config) (s s' : Store) (req : LeaseRequest) (now : Nat) (c : Candidate) :
    Prop where
  waiting : c.job.state.waiting = true
  available : c.job.availableAt ≤ now
  attempts : c.job.attemptCount < cfg.maxAttempts
  newest : s.newestCapture c.job.targetId = some c.capture
  captureId : c.capture.captureId = c.job.captureId
  target : c.target ∈ s.targets
  targetId : c.target.targetId = c.job.targetId
  wanted : req.wants c.target = true
  due : c.target.due now = true
  alone : ∀ k ∈ s'.jobs, k.targetId = c.job.targetId → k.state = .leased → k.jobId = c.job.jobId

/-- What a lease does to a row; a job handed out is in its reply. -/
inductive LeaseMove (cfg : Config) (s s' : Store) (req : LeaseRequest) (now : Nat)
    (leases : List BridgeLease) : DeliveryJob → DeliveryJob → Prop
  | swept {j k : DeliveryJob} (h : Swept cfg s now j k) : LeaseMove cfg s s' req now leases j k
  | killed {c : Candidate} {issue : String} (hg : Grants cfg s s' req now c)
      (hi : deliverySuffixIssue c.capture.exactSuffix = some issue) :
      LeaseMove cfg s s' req now leases c.job (c.job.kill issue)
  | granted {c : Candidate} (hg : Grants cfg s s' req now c)
      (hi : deliverySuffixIssue c.capture.exactSuffix = none) (hl : req.lease c ∈ leases) :
      LeaseMove cfg s s' req now leases c.job (c.job.grant cfg now
        (cfg.digest (req.token c.job.jobId)) req.workerId req.shardId)

/-- The effect of a committed lease. -/
structure Leases (cfg : Config) (req : LeaseRequest) (now : Nat) (leases : List BridgeLease)
    (s s' : Store) : Prop where
  active : (s.shard? req.shardId).any (fun shard => shard.enabled && shard.deletedAt = none) = true
  targets : s'.targets = s.targets
  captures : s'.captures = s.captures
  shardManagers : s'.shardManagers = s.shardManagers
  jobs : ∃ born, (∀ j ∈ born, Missing s req now j)
    ∧ List.Forall₂ (LeaseMove cfg s s' req now leases) (s.jobs ++ born) s'.jobs
  leases : ∀ l ∈ leases, ∃ c, l = req.lease c ∧ Grants cfg s s' req now c
    ∧ deliverySuffixIssue c.capture.exactSuffix = none
    ∧ (c.job ∈ s.jobs ∨ ∀ j ∈ s.jobs, j.jobId ≠ c.job.jobId)
    ∧ c.job.grant cfg now (cfg.digest (req.token c.job.jobId)) req.workerId req.shardId ∈ s'.jobs

/-- The jobs after the grant loop. -/
def grantRows (cfg : Config) (req : LeaseRequest) (now : Nat) (s : Store) : List DeliveryJob :=
  s.jobs.map (rowUpdate (·.jobId) (fun c : Candidate => c.job.jobId)
    (fun c => c.outcome cfg req now) (s.candidates cfg req now))

theorem leaseLoop_candidates (hs : (s.jobs.map (·.jobId)).Nodup) :
    leaseLoop cfg req now (s.candidates cfg req now) s =
      ((deliverable (s.candidates cfg req now)).map req.lease,
        { s with jobs := grantRows cfg req now s }) := by
  rw [leaseLoop_eq]
  unfold grantRows
  rw [foldl_updateKey (fun c r => jobId_of_key (c.key_outcome r)) (candidates_nodup hs)]

/-- The loop hands a candidate row its outcome and keeps every other row. -/
theorem grantRow_cases (cfg : Config) (req : LeaseRequest) (now : Nat) {s : Store}
    (hs : (s.jobs.map (·.jobId)).Nodup) {j : DeliveryJob} (hj : j ∈ s.jobs) :
    let row := rowUpdate (·.jobId) (fun c : Candidate => c.job.jobId)
      (fun c => c.outcome cfg req now) (s.candidates cfg req now) j
    row = j ∨ ∃ c ∈ s.candidates cfg req now, c.job = j ∧ row = c.outcome cfg req now c.job := by
  intro row
  by_cases h : ∃ c ∈ s.candidates cfg req now, c.job.jobId = j.jobId
  · obtain ⟨c, hc, hid⟩ := h
    have hcj : c.job = j := key_unique hs (mem_ranked (mem_candidates hc).1).1 hj hid
    refine Or.inr ⟨c, hc, hcj, ?_⟩
    rw [hcj]
    exact rowUpdate_of_mem (candidates_nodup hs) hc hid
  · refine Or.inl (rowUpdate_of_notMem fun c hc hid => h ⟨c, hc, hid⟩)

/-- A candidate has no other leased job of its target beside it when the loop ends. -/
theorem candidate_alone (hjobs : (s.jobs.map (·.jobId)).Nodup)
    (hcaptures : (s.jobs.map fun j => (j.targetId, j.captureId)).Nodup) {c : Candidate}
    (hc : c ∈ s.candidates cfg req now) {k : DeliveryJob} (hk : k ∈ grantRows cfg req now s)
    (ht : k.targetId = c.job.targetId) (hl : k.state = .leased) : k.jobId = c.job.jobId := by
  obtain ⟨hcj, -, -, hlc⟩ := mem_ranked (mem_candidates hc).1
  unfold Store.leasable at hlc
  simp only [Bool.and_eq_true, Bool.not_eq_true', Option.any_eq_true, decide_eq_true_eq] at hlc
  obtain ⟨⟨⟨-, newest, hn, hnc⟩, hactive⟩, -⟩ := hlc
  obtain ⟨j, hj, rfl⟩ := List.mem_map.mp hk
  rcases grantRow_cases cfg req now hjobs hj with h | ⟨d, hd, hdj, h⟩
  · rw [h] at ht hl ⊢
    by_contra hne
    have := List.any_eq_false.mp hactive j hj
    simp [ht, hl, hne] at this
  · rw [h, jobId_of_key (d.key_outcome d.job)]
    rw [h, targetId_of_key (d.key_outcome d.job)] at ht
    obtain ⟨hdj', -, -, hld⟩ := mem_ranked (mem_candidates hd).1
    unfold Store.leasable at hld
    simp only [Bool.and_eq_true, Bool.not_eq_true', Option.any_eq_true, decide_eq_true_eq] at hld
    obtain ⟨⟨⟨-, newest', hn', hnc'⟩, -⟩, -⟩ := hld
    rw [ht, hn] at hn'
    obtain rfl := Option.some.inj hn'
    have : d.job = c.job := key_unique hcaptures hdj' hcj
      (Prod.ext ht (hnc'.symm.trans hnc))
    rw [this]

theorem candidate_grants (hjobs : (s.jobs.map (·.jobId)).Nodup)
    (hcaptures : (s.jobs.map fun j => (j.targetId, j.captureId)).Nodup)
    (hkey : (s.captures.map (·.captureId)).Nodup) {c : Candidate}
    (hc : c ∈ s.candidates cfg req now) (hs' : s'.jobs = grantRows cfg req now s) :
    Grants cfg s s' req now c := by
  obtain ⟨-, hcap, htgt, hl⟩ := mem_ranked (mem_candidates hc).1
  unfold Store.leasable at hl
  simp only [Bool.and_eq_true, Bool.not_eq_true', Option.any_eq_true, decide_eq_true_eq] at hl
  obtain ⟨⟨⟨⟨⟨⟨hw, ha⟩, hn⟩, hwants⟩, newest, hnewest, hid⟩, -⟩, hdue⟩ := hl
  have hcapture : newest = c.capture := by
    have hmem := capture?_some hcap
    exact key_unique hkey (newestCapture_mem hnewest).1 hmem.1 (hid.trans hmem.2.symm)
  obtain ⟨htmem, htid⟩ := target?_some htgt
  refine ⟨hw, ha, hn, hcapture ▸ hnewest, hcapture ▸ hid, htmem, htid, hwants, hdue,
    fun k hk ht hst => ?_⟩
  exact candidate_alone hjobs hcaptures hc (hs' ▸ hk) ht hst

/-! ## The whole transaction -/

theorem recordPoll_frame (req : LeaseRequest) (now : Nat) (s : Store) :
    recordPoll req now s = { s with
      shards := (recordPoll req now s).shards
      accountActivity := (recordPoll req now s).accountActivity } := by
  have hfold : ∀ (customers : List String) (s1 : Store), ∃ activity,
      customers.foldl (saveActivity req.shardId req.workerId now) s1 =
        { s1 with accountActivity := activity } := by
    intro customers
    induction customers with
    | nil => exact fun s1 => ⟨_, rfl⟩
    | cons c customers ih =>
      intro s1
      obtain ⟨activity, h⟩ := ih (saveActivity req.shardId req.workerId now s1 c)
      refine ⟨activity, (List.foldl_cons ..).trans (h.trans ?_)⟩
      unfold saveActivity
      split <;> rfl
  unfold recordPoll
  obtain ⟨activity, h⟩ := hfold
    ((updateShard req.shardId (fun shard => { shard with lastPollAt := some now }) s).polledCustomers
      req) (updateShard req.shardId (fun shard => { shard with lastPollAt := some now }) s)
  simp only [h]
  rfl

/-- The sweep and the grant loop, row by row. -/
theorem lease_rows {jobs born : List DeliveryJob} {leases : List BridgeLease}
    (hswept : List.Forall₂ (Swept cfg s now) (s.jobs ++ born) jobs)
    (hjobs : (jobs.map (·.jobId)).Nodup)
    (hgrants : ∀ c ∈ ({ s with jobs := jobs } : Store).candidates cfg req now,
      Grants cfg s s' req now c)
    (hleases : ∀ c ∈ ({ s with jobs := jobs } : Store).candidates cfg req now,
      deliverySuffixIssue c.capture.exactSuffix = none → req.lease c ∈ leases) :
    List.Forall₂ (LeaseMove cfg s s' req now leases) (s.jobs ++ born)
      (grantRows cfg req now { s with jobs := jobs }) := by
  have hgrant : List.Forall₂ (fun j k => k = j ∨
      ∃ c ∈ ({ s with jobs := jobs } : Store).candidates cfg req now, c.job = j ∧
        k = c.outcome cfg req now c.job) jobs (grantRows cfg req now { s with jobs := jobs }) := by
    refine forall₂_map_iff.mpr fun j hj => ?_
    rcases grantRow_cases cfg req now (s := { s with jobs := jobs }) hjobs hj with h | ⟨c, hc, hcj, h⟩
    · exact Or.inl h
    · exact Or.inr ⟨c, hc, hcj, h⟩
  refine forall₂_comp hswept hgrant fun i j k hij hjk => ?_
  rcases hjk with rfl | ⟨c, hc, rfl, rfl⟩
  · exact .swept hij
  · have hg := hgrants c hc
    obtain rfl := hij.eq_of_waiting hg.waiting hg.available
    unfold Candidate.outcome
    cases hi : deliverySuffixIssue c.capture.exactSuffix with
    | some issue => exact .killed hg hi
    | none => exact .granted hg hi (hleases c hc hi)

theorem leaseLoop_key (cfg : Config) (req : LeaseRequest) (now : Nat) (cs : List Candidate)
    (s : Store) :
    (leaseLoop cfg req now cs s).2.jobs.map DeliveryJob.key = s.jobs.map DeliveryJob.key := by
  rw [leaseLoop_eq]
  generalize s.jobs = jobs
  induction cs generalizing jobs with
  | nil => rfl
  | cons c cs ih =>
    rw [List.foldl_cons, ih]
    exact map_updateWhere fun j _ => c.key_outcome j

/-- Job rows with the same keys have the same ids and captures. -/
theorem nodup_of_key {jobs jobs' : List DeliveryJob}
    (h : jobs'.map DeliveryJob.key = jobs.map DeliveryJob.key) (hu : s'.Unique)
    (hs' : s'.jobs = jobs') :
    (jobs.map (·.jobId)).Nodup ∧ (jobs.map fun j => (j.targetId, j.captureId)).Nodup := by
  have hid : jobs'.map (·.jobId) = jobs.map (·.jobId) := by
    simpa [List.map_map, Function.comp_def, DeliveryJob.key] using congrArg (List.map (·.1)) h
  have hcapture : (jobs'.map fun j => (j.targetId, j.captureId)) =
      jobs.map fun j => (j.targetId, j.captureId) := by
    simpa [List.map_map, Function.comp_def, DeliveryJob.key] using
      congrArg (List.map fun k => (k.2.1, k.2.2.1)) h
  rw [← hid, ← hcapture, ← hs']
  exact ⟨hu.job_key, hu.job_capture⟩

/-- Rows that became rows with distinct ids had distinct ids. -/
theorem fresh_of_rows {old born jobs : List DeliveryJob}
    (h : (old ++ born).map (·.jobId) = jobs.map (·.jobId)) (hu : (jobs.map (·.jobId)).Nodup) :
    ∀ j ∈ old, ∀ b ∈ born, j.jobId ≠ b.jobId := by
  rw [← h, List.map_append, List.nodup_append] at hu
  exact fun j hj b hb => hu.2.2 _ (List.mem_map_of_mem hj) _ (List.mem_map_of_mem hb)

/-- **The effect of a committed lease.** -/
theorem leaseBridgeJobs_ok {leases : List BridgeLease} (hs : s.Unique) (hs' : s'.Unique)
    (h : leaseBridgeJobs cfg req now s = .ok (leases, s')) : Leases cfg req now leases s s' := by
  unfold leaseBridgeJobs at h
  split at h
  · exact absurd h (by simp)
  split at h
  · exact absurd h (by simp)
  rename_i hlock
  split at h
  · exact absurd h (by simp)
  rename_i s1 hreap
  obtain ⟨jobs, born, rfl, hborn, hswept⟩ := sweep_ok hreap
  obtain ⟨hleases, hstore⟩ := Prod.mk.inj (Except.ok.inj h)
  rw [recordPoll_frame] at hstore
  have hkeep := congrArg Store.jobs hstore
  simp only at hkeep
  have hnodup := nodup_of_key (leaseLoop_key cfg req now
    (Store.candidates cfg { s with jobs := jobs } req now) { s with jobs := jobs }) hs' hkeep.symm
  rw [leaseLoop_candidates hnodup.1] at hleases hstore hkeep
  simp only at hleases hkeep
  have hgrants : ∀ c ∈ ({ s with jobs := jobs } : Store).candidates cfg req now,
      Grants cfg s s' req now c := by
    intro c hc
    have hg := candidate_grants hnodup.1 hnodup.2 hs.capture_key hc hkeep.symm
    exact ⟨hg.waiting, hg.available, hg.attempts, hg.newest, hg.captureId, hg.target, hg.targetId,
      hg.wanted, hg.due, hg.alone⟩
  have hfresh := fresh_of_rows (forall₂_map_eq hswept fun _ _ h => jobId_of_key h.key) hnodup.1
  have hrows := lease_rows hswept hnodup.1 hgrants fun c hc hi =>
    hleases ▸ List.mem_map_of_mem (List.mem_filter.mpr ⟨hc, decide_eq_true hi⟩)
  rw [hkeep] at hrows
  refine ⟨?_, hstore ▸ rfl, hstore ▸ rfl, hstore ▸ rfl, ⟨born, hborn, hrows⟩, ?_⟩
  · unfold lockActiveShard at hlock
    split at hlock
    · assumption
    · exact absurd hlock (by simp)
  · intro l hl
    rw [← hleases] at hl
    obtain ⟨c, hc, rfl⟩ := List.mem_map.mp hl
    obtain ⟨hc, hi⟩ := List.mem_filter.mp hc
    have hi : deliverySuffixIssue c.capture.exactSuffix = none := of_decide_eq_true hi
    have hg := hgrants c hc
    have hmem : c.job ∈ jobs := (mem_ranked (mem_candidates hc).1).1
    obtain ⟨i, hmem', hij⟩ := forall₂_mem_right hswept hmem
    obtain rfl := hij.eq_of_waiting hg.waiting hg.available
    refine ⟨c, rfl, hg, hi, ?_, ?_⟩
    · exact (List.mem_append.mp hmem').imp id fun hb j hj => hfresh j hj _ hb
    · rw [← hkeep]
      refine List.mem_map.mpr ⟨c.job, hmem, ?_⟩
      rw [rowUpdate_of_mem (candidates_nodup hnodup.1) hc rfl]
      unfold Candidate.outcome
      rw [hi]

end LinkSuffix
