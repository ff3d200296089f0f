import LinkSuffix.Store.Invariant

/-!
# The leases a run handed out

The log of a run's leases, in order, read off the replies. A leased job, and an applied one, carries
the worker and the token hash of its last lease in the log.

* `Grant`, `grantLog`, `lastGrant`.
* `JobMove.to_held`: a job is leased or applied after an event because it was, or was handed out.
* **`held_run`**: a held job carries its last lease.
-/

namespace LinkSuffix

open Lib

variable {cfg : Config} {f : Fleet} {e : Event} {s s' : Store} {r : Except StoreError Reply}

/-- A lease handed out: what the worker got, and the transaction that issued it. -/
structure Grant where
  jobId : String
  workerId : String
  shardId : String
  leaseToken : String
  exactSuffix : String
  now : Nat
  committedAt : Nat
  deriving DecidableEq

/-- The log entry of a lease in the reply of an event. -/
def BridgeLease.grant (l : BridgeLease) (req : LeaseRequest) (e : Event) : Grant where
  jobId := l.jobId
  workerId := req.workerId
  shardId := req.shardId
  leaseToken := l.leaseToken
  exactSuffix := l.exactSuffix
  now := e.now
  committedAt := e.committedAt

/-- The leases an event hands out. -/
def grantsOf (cfg : Config) (f : Fleet) (e : Event) : List Grant :=
  match e.call, (fleet cfg).reply f e with
  | .leaseBridgeJobs req, .ok (.leases ls) => ls.map fun l => l.grant req e
  | _, _ => []

/-- The leases of a run, in order. -/
def grantLog (cfg : Config) (es : List Event) : List Grant :=
  (fleet cfg).collect (grantsOf cfg) Fleet.initial es

theorem grantLog_concat (cfg : Config) (es : List Event) (e : Event) :
    grantLog cfg (es ++ [e]) =
      grantLog cfg es ++ grantsOf cfg ((fleet cfg).run Fleet.initial es) e :=
  EventSystem.collect_concat _

/-- The most recent lease of a job. -/
def lastGrant (log : List Grant) (jobId : String) : Option Grant :=
  (log.filter (·.jobId = jobId)).getLast?

theorem lastGrant_append_of_none {log new : List Grant} {jobId : String}
    (h : ∀ g ∈ new, g.jobId ≠ jobId) : lastGrant (log ++ new) jobId = lastGrant log jobId := by
  have hnil : new.filter (·.jobId = jobId) = [] :=
    List.filter_eq_nil_iff.mpr fun g hg => by simp [h g hg]
  unfold lastGrant
  rw [List.filter_append, hnil, List.append_nil]

/-- After new leases of a job, its most recent lease is one of them. -/
theorem lastGrant_append_of_mem (log : List Grant) {new : List Grant} {jobId : String} {g : Grant}
    (hg : g ∈ new) (hid : g.jobId = jobId) :
    ∃ g' ∈ new, g'.jobId = jobId ∧ lastGrant (log ++ new) jobId = some g' := by
  unfold lastGrant
  rw [List.filter_append, List.getLast?_append]
  cases hlast : (new.filter (·.jobId = jobId)).getLast? with
  | none =>
    rw [List.getLast?_eq_none_iff] at hlast
    exact absurd hid (by simpa using List.filter_eq_nil_iff.mp hlast g hg)
  | some g' =>
    obtain ⟨hmem, hid'⟩ := List.mem_filter.mp (List.mem_of_getLast? hlast)
    exact ⟨g', hmem, by simpa using hid', rfl⟩

theorem lastGrant_mem {log : List Grant} {jobId : String} {g : Grant}
    (h : lastGrant log jobId = some g) : g ∈ log ∧ g.jobId = jobId := by
  obtain ⟨hmem, hid⟩ := List.mem_filter.mp (List.mem_of_getLast? h)
  exact ⟨hmem, by simpa using hid⟩

/-! ## Where leases come from -/

/-- A lease in the log handed out a row, which is in the store the event left. -/
structure GrantRow (cfg : Config) (f : Fleet) (e : Event) (g : Grant) (req : LeaseRequest)
    (c : Candidate) : Prop where
  call : e.call = .leaseBridgeJobs req
  grant : g = (req.lease c).grant req e
  grants : Grants cfg f.store ((fleet cfg).next f e).store req e.now c
  deliverable : deliverySuffixIssue c.capture.exactSuffix = none
  origin : c.job ∈ f.store.jobs ∨ ∀ j ∈ f.store.jobs, j.jobId ≠ c.job.jobId
  row : c.job.grant cfg e.now (cfg.digest g.leaseToken) g.workerId g.shardId
    ∈ ((fleet cfg).next f e).store.jobs

theorem grantsOf_row {g : Grant} (hg : g ∈ grantsOf cfg f e) :
    ∃ req c, GrantRow cfg f e g req c := by
  unfold grantsOf at hg
  split at hg
  · rename_i req ls he hr
    obtain ⟨l, hl, rfl⟩ := List.mem_map.mp hg
    have hleases : Leases cfg req e.now ls f.store ((fleet cfg).next f e).store := by
      have hw := (Commits.work hr).2
      simp only [Event.work, he] at hw
      obtain ⟨ls', h, hls⟩ := Work.reply_ok.mp hw
      obtain rfl := Reply.leases.inj hls
      exact leaseBridgeJobs_ok (store_unique f) (store_unique _) h
    obtain ⟨c, rfl, hg, hi, ho, hrow⟩ := hleases.leases l hl
    exact ⟨req, c, he, rfl, hg, hi, ho, hrow⟩
  · exact absurd hg List.not_mem_nil

/-- The leases in a reply. -/
def leasesIn (r : Except StoreError Reply) : List BridgeLease :=
  match r with
  | .ok (.leases ls) => ls
  | _ => []

/-- Only a lease call answers with leases. -/
theorem leasesIn_grantsOf {l : BridgeLease} (hl : l ∈ leasesIn ((fleet cfg).reply f e)) :
    ∃ req, l.grant req e ∈ grantsOf cfg f e := by
  unfold leasesIn at hl
  split at hl
  swap
  · exact absurd hl List.not_mem_nil
  rename_i ls hr
  have hw := (Commits.work hr).2
  cases he : e.call with
  | leaseBridgeJobs req =>
    refine ⟨req, ?_⟩
    unfold grantsOf
    rw [he, hr]
    exact List.mem_map_of_mem hl
  | _ =>
    simp only [Event.work, he] at hw
    obtain ⟨_, -, hreply⟩ := Work.reply_ok.mp hw
    exact absurd hreply (by simp)

/-- A lease in a reply handed out a row, whose target is the leased job's. -/
theorem leasesIn_row {l : BridgeLease} (hl : l ∈ leasesIn ((fleet cfg).reply f e)) :
    ∃ g req c, GrantRow cfg f e g req c
      ∧ ∀ k ∈ ((fleet cfg).next f e).store.jobs, k.jobId = l.jobId →
        k.targetId = c.job.targetId := by
  obtain ⟨req, hg⟩ := leasesIn_grantsOf hl
  obtain ⟨req', c, hrow⟩ := grantsOf_row hg
  have hlc : l.jobId = c.job.jobId := congrArg Grant.jobId hrow.grant
  refine ⟨_, req', c, hrow, fun k hk hkl => ?_⟩
  rw [key_unique (store_unique _).job_key hk hrow.row (hkl.trans hlc)]
  rfl

/-- The columns a lease writes, as an acknowledgement reads them. -/
structure Carries (cfg : Config) (j : DeliveryJob) (g : Grant) : Prop where
  token : j.leaseTokenHash = some (cfg.digest g.leaseToken)
  worker : j.workerId = some g.workerId
  leasedAt : j.state = .leased → j.leasedAt = some g.now

/-- A job is leased, or was acknowledged with its last lease. -/
def DeliveryJob.Held (j : DeliveryJob) : Prop := j.state = .leased ∨ j.state = .applied

/-- A job is held after an event because it was and kept its lease, or because the event handed it
out. -/
theorem JobMove.to_held {j k : DeliveryJob} (h : JobMove cfg s s' e r j k) (hk : k.Held) :
    (j.Held ∧ k.leaseTokenHash = j.leaseTokenHash ∧ k.workerId = j.workerId
        ∧ (k.state = .leased → j.state = .leased ∧ k.leasedAt = j.leasedAt))
      ∨ ∃ req c, c.job = j ∧ Handed cfg s s' e r req c k := by
  rcases hk with hk | hk
  · rcases h.to_leased hk with ⟨hj, hrow⟩ | hh
    · refine Or.inl ⟨Or.inl hj, ?_⟩
      rcases hrow with rfl | ⟨input, lease, hr⟩
      · exact ⟨rfl, rfl, fun h => ⟨h, rfl⟩⟩
      · rw [hr.row]
        exact ⟨rfl, rfl, fun _ => ⟨hj, rfl⟩⟩
    · exact Or.inr hh
  · refine Or.inl ?_
    have hnot : k.state ≠ .leased := by simp [hk]
    rcases h.to_applied hk with rfl | ⟨input, c, t, he, hrow, -, -, rfl⟩
    · exact ⟨Or.inr hk, rfl, rfl, fun h => absurd h hnot⟩
    · exact ⟨Or.inl hrow.leased, rfl, rfl, fun h => absurd h hnot⟩

/-- An event hands out no job that was held. -/
theorem held_not_granted {j : DeliveryJob} (hj : j ∈ f.store.jobs) (hheld : j.Held) :
    ∀ g ∈ grantsOf cfg f e, g.jobId ≠ j.jobId := by
  intro g hg hgk
  obtain ⟨req, c, hrow⟩ := grantsOf_row hg
  have hcj : c.job.jobId = j.jobId := by
    rw [← hgk, hrow.grant]
    rfl
  rcases hrow.origin with hc | hfresh
  · have hw := hrow.grants.waiting
    rw [key_unique (store_unique f).job_key hc hj hcj] at hw
    rcases hheld with h | h
    · simp [h, JobState.waiting] at hw
    · simp [h, JobState.waiting] at hw
  · exact hfresh j hj hcj.symm

theorem Handed.mem_grantsOf {req : LeaseRequest} {c : Candidate} {k : DeliveryJob}
    (h : Handed cfg f.store s' e ((fleet cfg).reply f e) req c k) :
    (req.lease c).grant req e ∈ grantsOf cfg f e := by
  obtain ⟨ls, hr, hl⟩ := h.reply
  unfold grantsOf
  rw [h.call, hr]
  exact List.mem_map_of_mem hl

/-- The last lease of a job that was just handed out. -/
theorem handed_last (log : List Grant) {req : LeaseRequest} {c : Candidate} {k : DeliveryJob}
    (hk : k ∈ ((fleet cfg).next f e).store.jobs)
    (hh : Handed cfg f.store ((fleet cfg).next f e).store e ((fleet cfg).reply f e) req c k) :
    ∃ g req' c', lastGrant (log ++ grantsOf cfg f e) k.jobId = some g
      ∧ GrantRow cfg f e g req' c'
      ∧ k = c'.job.grant cfg e.now (cfg.digest g.leaseToken) g.workerId g.shardId := by
  have hkc : c.job.jobId = k.jobId := by
    rw [hh.row]
    rfl
  obtain ⟨g, hg, hid, hlast⟩ := lastGrant_append_of_mem log hh.mem_grantsOf hkc
  obtain ⟨req', c', hrow⟩ := grantsOf_row hg
  refine ⟨g, req', c', hlast, hrow, key_unique (store_unique _).job_key hk hrow.row ?_⟩
  rw [← hid, hrow.grant]
  rfl

/-- **A held job carries its last lease.** -/
theorem held_run (cfg : Config) (es : List Event) :
    ∀ j ∈ ((fleet cfg).run Fleet.initial es).store.jobs, j.Held →
      ∃ g, lastGrant (grantLog cfg es) j.jobId = some g ∧ Carries cfg j g := by
  refine EventSystem.history_inv (M := fleet cfg) (s := Fleet.initial) (G := fun _ _ => True)
    (P := fun es f => ∀ j ∈ f.store.jobs, j.Held →
      ∃ g, lastGrant (grantLog cfg es) j.jobId = some g ∧ Carries cfg j g)
    (fun j hj => absurd hj List.not_mem_nil) ?_ EventSystem.along_true
  intro es e _ ih k hk hheld
  rw [grantLog_concat]
  obtain ⟨j, hm, hj⟩ := job_before hk
  rcases hm.to_held hheld with ⟨hjheld, htoken, hworker, hleased⟩ | ⟨req, c, rfl, hh⟩
  · have hj := hj.resolve_right fun hb => by
      have := hb.born.pending
      rcases hjheld with h | h <;> simp [h] at this
    obtain ⟨g, hlast, hc⟩ := ih j hj hjheld
    refine ⟨g, ?_, htoken.trans hc.token, hworker.trans hc.worker, fun hl => ?_⟩
    · rw [jobId_of_key hm.key, lastGrant_append_of_none (held_not_granted hj hjheld), hlast]
    · exact (hleased hl).2.trans (hc.leasedAt (hleased hl).1)
  · obtain ⟨g, req', c', hlast, hrow, hkg⟩ := handed_last (grantLog cfg es) hk hh
    refine ⟨g, hlast, ?_⟩
    rw [hkg, hrow.grant]
    exact ⟨rfl, rfl, fun _ => rfl⟩

end LinkSuffix
