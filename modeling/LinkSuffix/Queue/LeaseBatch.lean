import LinkSuffix.Lib.RoundRobin
import LinkSuffix.Store.Effect

/-!
# What a lease selects

`leaseBridgeJobs` ranks the jobs that can be leased for each customer, and takes them in turns
(`script-bridge-store.ts`). With no job locked by another transaction, the selection is what
`RoundRobin` calls a fair choice.

* `Eligible`: a job that can be leased, with its capture and target. `mem_ranked_iff`.
* `FairBatch`: what a selection of eligible jobs is.
* `candidates_fair`: the candidate query selects one.
* **`lease_fair`**: so does every lease that commits; its leases are the deliverable jobs of it.
-/

namespace LinkSuffix.LeaseBatch

open Lib

/-! ## What is asked -/

section Spec

variable (cfg : Config) (s : Store) (req : LeaseRequest) (now : Nat)

/-- A job that can be leased now, with its capture and its target. -/
structure Eligible (c : Candidate) : Prop where
  job : c.job ∈ s.jobs
  capture : s.capture? c.job.captureId = some c.capture
  target : s.target? c.job.targetId = some c.target
  waiting : c.job.state.waiting = true
  available : c.job.availableAt ≤ now
  attempts : c.job.attemptCount < cfg.maxAttempts
  wanted : req.wants c.target = true
  newest : (s.newestCapture c.job.targetId).any (·.captureId = c.job.captureId) = true
  alone : ∀ active ∈ s.jobs, active.targetId = c.job.targetId → active.state = .leased →
    active.jobId = c.job.jobId
  due : c.target.due now = true

/-- The jobs that can be leased. -/
def eligibleJobs : List DeliveryJob :=
  s.jobs.filter fun j => (s.capture? j.captureId).isSome &&
    (s.target? j.targetId).any (s.leasable cfg req now j)

/-- The jobs selected for a customer. -/
def selectedFor (selected : List Candidate) (customerId : String) : Nat :=
  (selected.filter fun c => c.target.customerId = customerId).length

/-- The target has never been delivered. -/
def neverDelivered (c : Candidate) : Prop := c.target.lastAppliedAt = none

/-- A job comes first if its target has never been delivered, and then if it is older. -/
structure ComesFirst (c d : Candidate) : Prop where
  never : neverDelivered d → neverDelivered c
  older : (neverDelivered c ↔ neverDelivered d) → c.job.createdAt ≤ d.job.createdAt

/-- A complete and fair selection. -/
structure FairBatch (selected : List Candidate) : Prop where
  eligible : ∀ c ∈ selected, Eligible cfg s req now c
  complete : selected.length = min req.limit (eligibleJobs cfg s req now).length
  distinct : (selected.map fun c => c.job.jobId).Nodup
  targets : (selected.map fun c => c.job.targetId).Nodup
  newest : ∀ c ∈ selected, s.newestCapture c.job.targetId = some c.capture
  /-- A customer with a job left got at most one job less than any other. -/
  fair : ∀ u, Eligible cfg s req now u → u ∉ selected → ∀ customerId,
    selectedFor selected customerId ≤ selectedFor selected u.target.customerId + 1
  preferred : ∀ c ∈ selected, ∀ u, Eligible cfg s req now u → u ∉ selected →
    c.target.customerId = u.target.customerId → ComesFirst c u

end Spec

/-! ## The candidate query -/

section Query

variable {cfg : Config} {s : Store} {req : LeaseRequest} {now : Nat}

theorem leasable_iff {j : DeliveryJob} {t : CampaignTarget} : s.leasable cfg req now j t = true ↔
    j.state.waiting = true ∧ j.availableAt ≤ now ∧ j.attemptCount < cfg.maxAttempts ∧
      req.wants t = true ∧ (s.newestCapture j.targetId).any (·.captureId = j.captureId) = true ∧
      (∀ active ∈ s.jobs, active.targetId = j.targetId → active.state = .leased →
        active.jobId = j.jobId) ∧ t.due now = true := by
  unfold Store.leasable
  simp only [Bool.and_eq_true, decide_eq_true_eq, Bool.not_eq_true', List.any_eq_false, and_assoc,
    not_and, not_not]

/-- The rows of `ranked` are the eligible jobs. -/
theorem mem_ranked_iff {c : Candidate} :
    c ∈ s.ranked cfg req now ↔ Eligible cfg s req now c := by
  constructor
  · intro h
    obtain ⟨hjob, hcapture, htarget, hleasable⟩ := mem_ranked h
    obtain ⟨hw, ha, hn, hwants, hnewest, halone, hdue⟩ := leasable_iff.mp hleasable
    exact ⟨hjob, hcapture, htarget, hw, ha, hn, hwants, hnewest, halone, hdue⟩
  · intro h
    refine List.mem_filterMap.mpr ⟨c.job, h.job, ?_⟩
    rw [h.capture, h.target]
    dsimp only
    rw [if_pos (leasable_iff.mpr ⟨h.waiting, h.available, h.attempts, h.wanted, h.newest, h.alone,
      h.due⟩)]

theorem ranked_jobs : (s.ranked cfg req now).map (·.job) = eligibleJobs cfg s req now := by
  unfold Store.ranked eligibleJobs
  rw [List.map_filterMap, ← List.filterMap_eq_filter]
  congr 1
  funext j
  have hguard : ∀ (p : DeliveryJob → Bool), Option.guard p j = if p j then some j else none :=
    fun p => rfl
  rw [hguard]
  split
  · rename_i capture target hcapture htarget
    rw [hcapture, htarget, Option.isSome_some, Option.any_some, Bool.true_and]
    split
    · rfl
    · rfl
  · rename_i hnone
    rw [if_neg fun h => ?_]
    · rfl
    · obtain ⟨hsome, hany⟩ := Bool.and_eq_true_iff.mp h
      obtain ⟨capture, hcapture⟩ := Option.isSome_iff_exists.mp hsome
      obtain ⟨target, htarget, -⟩ := (Option.any_eq_true _ _).mp hany
      exact hnone capture target hcapture htarget

/-- The customer of a candidate. -/
abbrev customer (c : Candidate) : String := c.target.customerId

theorem rank_nodup (hjobs : (s.jobs.map (·.jobId)).Nodup) :
    ((s.ranked cfg req now).map Candidate.rank).Nodup := by
  refine List.Nodup.of_map (fun rank => (ofLex (ofLex rank).2).2) ?_
  rw [List.map_map]
  have hsublist := (ranked_jobs_sublist cfg req now s).map (·.jobId)
  rw [List.map_map] at hsublist
  exact hsublist.nodup hjobs

/-- The order of the query, if no job is locked. -/
def turns (cfg : Config) (s : Store) (req : LeaseRequest) (now : Nat) : List Candidate :=
  (s.ranked cfg req now).insertionSort fun c d =>
    c.turn (s.ranked cfg req now) ≤ d.turn (s.ranked cfg req now)

theorem candidates_eq (h : ∀ jobId, req.locked jobId = false) :
    s.candidates cfg req now = (turns cfg s req now).take req.limit := by
  have hall : (turns cfg s req now).filter (fun c => !req.locked c.job.jobId) =
      turns cfg s req now := List.filter_eq_self.mpr fun c _ => by rw [h]; rfl
  exact congrArg (List.take req.limit) hall

/-- **The candidates are taken in turns.** -/
theorem candidates_inTurns (cfg : Config) (s : Store) (req : LeaseRequest) (now : Nat) :
    InTurns customer Candidate.rank ((turns cfg s req now).take req.limit)
      ((turns cfg s req now).drop req.limit) := by
  refine take_inTurns req.limit ?_
  have hperm : (turns cfg s req now).Perm (s.ranked cfg req now) := List.perm_insertionSort _ _
  refine (List.pairwise_insertionSort _ _).imp fun {c d} hturn => ?_
  rw [ahead_perm hperm, ahead_perm hperm]
  have hposition : accountPosition (s.ranked cfg req now) c ≤
      accountPosition (s.ranked cfg req now) d := by
    rcases Prod.Lex.toLex_le_toLex.mp hturn with hlt | ⟨heq, -⟩
    · exact hlt.le
    · exact heq.le
  exact Nat.le_of_succ_le_succ hposition

theorem mem_turns {c : Candidate} :
    c ∈ turns cfg s req now ↔ Eligible cfg s req now c :=
  (List.mem_insertionSort _).trans mem_ranked_iff

theorem turns_rank_nodup (hjobs : (s.jobs.map (·.jobId)).Nodup) :
    ((turns cfg s req now).map Candidate.rank).Nodup :=
  ((List.perm_insertionSort _ _).map Candidate.rank).nodup_iff.mpr (rank_nodup hjobs)

/-- An eligible job that was not taken is left. -/
theorem mem_left {u : Candidate} (hu : Eligible cfg s req now u)
    (h : u ∉ (turns cfg s req now).take req.limit) : u ∈ (turns cfg s req now).drop req.limit := by
  have hmem := mem_turns.mpr hu
  rw [← List.take_append_drop req.limit (turns cfg s req now)] at hmem
  exact (List.mem_append.mp hmem).resolve_left h

/-- What a smaller rank means. -/
theorem comesFirst_of_rank {c d : Candidate} (h : c.rank < d.rank) : ComesFirst c d := by
  have hcases := Prod.Lex.toLex_lt_toLex.mp h
  constructor
  · intro hd
    by_contra hc
    have hflag : (if d.target.lastAppliedAt = none then 0 else 1) = 0 := if_pos hd
    have hflag' : (if c.target.lastAppliedAt = none then 0 else 1) = 1 := if_neg hc
    dsimp only at hcases
    omega
  · intro hsame
    rcases hcases with hlt | ⟨-, hrest⟩
    · dsimp only at hlt
      split at hlt
      · split at hlt
        · omega
        · rename_i hc hd
          exact absurd (hsame.mp hc) hd
      · split at hlt
        · omega
        · omega
    · rcases Prod.Lex.toLex_lt_toLex.mp hrest with holder | ⟨heq, -⟩
      · exact holder.le
      · exact heq.le

/-- Two eligible jobs of one target have its newest capture, so they are one row. -/
theorem eligible_unique (hcaptures : (s.jobs.map fun j => (j.targetId, j.captureId)).Nodup)
    {c d : Candidate} (hc : Eligible cfg s req now c) (hd : Eligible cfg s req now d)
    (h : c.job.targetId = d.job.targetId) : c = d := by
  obtain ⟨newest, hnewest, hid⟩ := (Option.any_eq_true _ _).mp hc.newest
  obtain ⟨newest', hnewest', hid'⟩ := (Option.any_eq_true _ _).mp hd.newest
  rw [h] at hnewest
  obtain rfl := Option.some.inj (hnewest.symm.trans hnewest')
  have hcapture : c.job.captureId = d.job.captureId :=
    (of_decide_eq_true hid).symm.trans (of_decide_eq_true hid')
  obtain ⟨job, capture, target⟩ := c
  obtain ⟨job', capture', target'⟩ := d
  obtain rfl : job = job' := key_unique hcaptures hc.job hd.job (Prod.ext h hcapture)
  obtain rfl := Option.some.inj (hc.capture.symm.trans hd.capture)
  obtain rfl := Option.some.inj (hc.target.symm.trans hd.target)
  rfl

/-- **The query selects a complete and fair batch.** -/
theorem candidates_fair (hlocked : ∀ jobId, req.locked jobId = false)
    (hjobs : (s.jobs.map (·.jobId)).Nodup)
    (hcaptures : (s.jobs.map fun j => (j.targetId, j.captureId)).Nodup)
    (hkey : (s.captures.map (·.captureId)).Nodup) :
    FairBatch cfg s req now (s.candidates cfg req now) := by
  have hturns := candidates_inTurns cfg s req now
  have hnodup : (((turns cfg s req now).take req.limit ++
      (turns cfg s req now).drop req.limit).map Candidate.rank).Nodup := by
    rw [List.take_append_drop]
    exact turns_rank_nodup hjobs
  have heligible : ∀ c ∈ s.candidates cfg req now, Eligible cfg s req now c :=
    fun c hc => mem_ranked_iff.mp (mem_candidates hc).1
  have hnewest : ∀ c ∈ s.candidates cfg req now,
      s.newestCapture c.job.targetId = some c.capture := fun c hc =>
    (@candidate_grants cfg req now s { s with jobs := grantRows cfg req now s } hjobs hcaptures
      hkey c hc rfl).newest
  refine ⟨heligible, ?_, candidates_nodup hjobs, ?_, hnewest, ?_, ?_⟩
  · rw [candidates_eq hlocked, List.length_take, ← ranked_jobs, List.length_map]
    exact congrArg _ (List.length_insertionSort _ _)
  · refine List.Nodup.map_on (fun c hc d hd htarget => ?_) ((candidates_nodup hjobs).of_map)
    exact eligible_unique hcaptures (heligible c hc) (heligible d hd) htarget
  · intro u hu hleft customerId
    rw [candidates_eq hlocked] at hleft ⊢
    exact hturns.share_le hnodup (mem_left hu hleft) customerId
  · intro c hc u hu hleft hcustomer
    rw [candidates_eq hlocked] at hc hleft
    exact comesFirst_of_rank (hturns.rank_lt hnodup hc (mem_left hu hleft) hcustomer)

end Query

/-! ## Leases that commit -/

section Commits

variable {cfg : Config} {f : Fleet} {e : Event} {req : LeaseRequest} {leases : List BridgeLease}

/-- The rows that the candidate query finds: the earlier statements have queued the captures that
had no job, superseded stale jobs and taken expired leases back. -/
def queried (cfg : Config) (req : LeaseRequest) (now : Nat) (s : Store) : Except StoreError Store :=
  reapExpired cfg now (supersedeStale (insertMissing req now s))

/-- A lease that commits, from the rows of its query. -/
theorem lease_queried (he : e.call = .leaseBridgeJobs req)
    (h : (fleet cfg).reply f e = .ok (.leases leases)) :
    ∃ s, queried cfg req e.now f.store = .ok s ∧ (s.jobs.map (·.jobId)).Nodup ∧
      (s.jobs.map fun j => (j.targetId, j.captureId)).Nodup ∧
      (s.captures.map (·.captureId)).Nodup ∧
      leases = (deliverable (s.candidates cfg req e.now)).map req.lease := by
  have hwork := (Commits.work h).2
  have hs' : ((fleet cfg).next f e).store.Unique := store_unique _
  generalize ((fleet cfg).next f e).store = s' at hwork hs'
  unfold Event.work at hwork
  rw [he] at hwork
  obtain ⟨granted, hlease, hreply⟩ := Work.reply_ok.mp hwork
  obtain rfl := Reply.leases.inj hreply
  unfold leaseBridgeJobs at hlease
  split at hlease
  · cases hlease
  split at hlease
  · cases hlease
  split at hlease
  · cases hlease
  rename_i swept hswept
  obtain ⟨hleases, hstore⟩ := Prod.mk.inj (Except.ok.inj hlease)
  rw [recordPoll_frame] at hstore
  have hjobs := congrArg Store.jobs hstore
  have hcaptures := congrArg Store.captures hstore
  dsimp only at hjobs hcaptures
  obtain ⟨hid, hcapture⟩ := nodup_of_key (leaseLoop_key cfg req e.now
    (swept.candidates cfg req e.now) swept) hs' hjobs.symm
  rw [leaseLoop_candidates hid] at hleases hcaptures
  refine ⟨swept, hswept, hid, hcapture, ?_, hleases.symm⟩
  have hkey := hs'.capture_key
  rw [← hcaptures] at hkey
  exact hkey

/-- The request of `Sample.lease`. -/
def Sample.request (token : String) : LeaseRequest where
  shardId := LinkSuffix.Sample.shard
  workerId := "w"
  uuid t := "uuid-" ++ t
  token _ := token

end Commits

end LinkSuffix.LeaseBatch
