import LinkSuffix.Queue.LeaseToken

/-!
# What was leased is what is verified

A capture row can be rewritten: `ON CONFLICT (target_id,version)` replaces the suffix of a stored
version, and the job of that version is left as it is unless it is dead. While every replay of a
version agrees with the job the version has, a worker verifies the suffix it was handed, an applied
job is evidence for its capture, and an enqueued suffix is delivered or already was.

* `Event.replaysExactly`: the condition on an enqueue.
* `Exact`, **`exact_run`**: what holds of a run that meets it.
* **`rewritten_while_leased`**: a version sent again with another suffix while its job is leased.
-/

namespace LinkSuffix

open Lib

variable {cfg : Config} {f : Fleet} {e : Event} {s s' : Store} {r : Except StoreError Reply}
  {es : List Event}

/-! ## The condition -/

/-- The hash of the suffix last applied to a target. -/
def Store.lastAppliedHash (s : Store) (targetId : String) : Option String :=
  (s.target? targetId).bind (·.lastAppliedSuffixHash)

/-- The enqueue agrees with a job of the capture it rewrites: a leased suffix is not replaced, nor
the suffix of an applied job, and a job that stays closed has nothing left to deliver. -/
def CaptureTicket.agrees (ticket : CaptureTicket) (s : Store) (c : SuffixCapture)
    (j : DeliveryJob) : Bool :=
  match j.state with
  | .leased => c.exactSuffix = ticket.exactSuffix
  | .applied => c.suffixHash = ticket.suffixHash
    && s.lastAppliedHash ticket.targetId = some ticket.suffixHash
  | .superseded => s.lastAppliedHash ticket.targetId = some ticket.suffixHash
  | .pending | .failed | .dead => true

/-- An enqueue of a stored version agrees with the jobs of its capture. -/
def Event.replaysExactly (f : Fleet) (e : Event) : Bool :=
  match e.call with
  | .enqueueCapture ticket _ _ => f.store.captures.all fun c => !ticket.names c
    || f.store.jobs.all fun j => j.captureId ≠ c.captureId || ticket.agrees f.store c j
  | _ => true

theorem agrees_of_replays {ticket : CaptureTicket} {nextval : Nat} {jobId : String}
    {c : SuffixCapture} {j : DeliveryJob} (h : e.replaysExactly f = true)
    (he : e.call = .enqueueCapture ticket nextval jobId) (hc : c ∈ f.store.captures)
    (hn : ticket.names c = true) (hj : j ∈ f.store.jobs) (hjc : j.captureId = c.captureId) :
    ticket.agrees f.store c j = true := by
  unfold Event.replaysExactly at h
  rw [he] at h
  have hall := List.all_eq_true.mp h c hc
  rw [hn, Bool.not_true, Bool.false_or] at hall
  simpa [hjc] using List.all_eq_true.mp hall j hj

/-! ## The suffix of a leased job -/

/-- A leased job's capture has the suffix of the job's last lease. -/
def LeasedExact (log : List Grant) (s : Store) : Prop :=
  ∀ j ∈ s.jobs, j.state = .leased → ∃ g, lastGrant log j.jobId = some g
    ∧ ∀ c ∈ s.captures, c.captureId = j.captureId → c.exactSuffix = g.exactSuffix

theorem leasedExact_step {log : List Grant} (h : LeasedExact log f.store)
    (hrep : e.replaysExactly f = true) :
    LeasedExact (log ++ grantsOf cfg f e) ((fleet cfg).next f e).store := by
  intro k hk hl
  obtain ⟨j, hm, hj⟩ := job_before hk
  rcases hm.to_leased hl with ⟨hjl, -⟩ | ⟨req, c, rfl, hh⟩
  · have hj : j ∈ f.store.jobs := hj.resolve_right fun hb => by simp [hb.born.pending] at hjl
    obtain ⟨g, hlast, hsuffix⟩ := h j hj hjl
    refine ⟨g, ?_, fun d hd hdk => ?_⟩
    · rw [jobId_of_key hm.key, lastGrant_append_of_none (held_not_granted hj (Or.inl hjl)), hlast]
    · obtain ⟨c, hc, hcj⟩ := capture_of_job f hj
      have hdc : d.captureId = c.captureId :=
        hdk.trans ((captureId_of_key hm.key).trans hcj.symm)
      cases capture_moved hc hd hdc with
      | keep => exact hsuffix d hc hcj
      | rewritten he _ hn =>
        have hagrees := agrees_of_replays hrep he hc hn hj hcj.symm
        unfold CaptureTicket.agrees at hagrees
        simp only [hjl, decide_eq_true_eq] at hagrees
        exact hagrees.symm.trans (hsuffix c hc hcj)
  · obtain ⟨g, req', c', hlast, hrow, hkg⟩ := handed_last log hk hh
    refine ⟨g, hlast, fun d hd hdk => ?_⟩
    obtain ⟨hc, -⟩ := newestCapture_mem hrow.grants.newest
    have hdc : d.captureId = c'.capture.captureId := by
      rw [hdk, hkg, hrow.grants.captureId]
      rfl
    cases capture_moved hc hd hdc with
    | keep =>
      rw [hrow.grant]
      rfl
    | rewritten he => exact absurd (he.symm.trans hrow.call) (by simp)

/-! ## The evidence of an applied job -/

/-- An applied job was verified with the hash of its capture. -/
def AppliedExact (s : Store) : Prop :=
  ∀ j ∈ s.jobs, j.state = .applied → ∀ c ∈ s.captures, c.captureId = j.captureId →
    j.verifiedSuffixHash = some c.suffixHash

theorem appliedExact_step (h : AppliedExact f.store) (hrep : e.replaysExactly f = true) :
    AppliedExact ((fleet cfg).next f e).store := by
  intro k hk ha d hd hdk
  obtain ⟨j, hm, hj⟩ := job_before hk
  rcases hm.to_applied ha with rfl | ⟨input, c, t, he, hrow, -, -, rfl⟩
  · have hj : k ∈ f.store.jobs := hj.resolve_right fun hb => by simp [hb.born.pending] at ha
    obtain ⟨c, hc, hck⟩ := capture_of_job f hj
    cases capture_moved hc hd (hdk.trans hck.symm) with
    | keep => exact h k hj ha _ hc hck
    | rewritten he _ hn =>
      have hagrees := agrees_of_replays hrep he hc hn hj hck.symm
      unfold CaptureTicket.agrees at hagrees
      simp only [ha, Bool.and_eq_true, decide_eq_true_eq] at hagrees
      rw [h k hj ha c hc hck, hagrees.1]
      rfl
  · cases capture_moved hrow.capture hd (hdk.trans hrow.captureId.symm) with
    | keep => rfl
    | rewritten he' => exact absurd (he'.symm.trans he) (by simp)

/-! ## The job of an enqueued suffix -/

/-- What a committed enqueue leaves: its suffix was the last one applied, or a job that is still to
be delivered carries it. -/
def EnqueueCarried (cfg : Config) (f : Fleet) (e : Event) : Prop :=
  ∀ ticket nextval jobId res, e.call = .enqueueCapture ticket nextval jobId →
    (fleet cfg).reply f e = .ok (.enqueued res) →
    ((fleet cfg).next f e).store.lastAppliedHash ticket.targetId = some ticket.suffixHash
    ∨ ∃ c ∈ ((fleet cfg).next f e).store.captures, ∃ j ∈ ((fleet cfg).next f e).store.jobs,
      ticket.names c = true ∧ c.exactSuffix = ticket.exactSuffix ∧ j.captureId = c.captureId
        ∧ (j.state = .pending ∨ j.state = .failed ∨ j.state = .leased)

/-- The capture an enqueue wrote. -/
theorem saveCapture_row (ticket : CaptureTicket) (nextval now : Nat) (s : Store) :
    ∃ c ∈ (saveCapture ticket nextval now s).2.captures, c.captureId = ticket.writes nextval s
      ∧ ticket.names c = true ∧ c.exactSuffix = ticket.exactSuffix := by
  have hnames : ∀ id, ticket.names (ticket.row id now) = true := fun id => by
    simp [CaptureTicket.names, CaptureTicket.row]
  unfold saveCapture CaptureTicket.writes
  cases h : s.captures.find? ticket.names with
  | none =>
    exact ⟨_, List.mem_append_right _ (List.mem_singleton_self _), rfl, hnames _, rfl⟩
  | some c =>
    have hn := List.find?_some h
    exact ⟨ticket.rewrite c,
      mem_updateWhere.mpr ⟨c, List.mem_of_find?_eq_some h, Or.inl ⟨hn, rfl⟩⟩, rfl, hn, rfl⟩

/-- The job of an enqueued capture: a new one, or the stored one with its conflict action. -/
theorem enqueueCapture_row {ticket : CaptureTicket} {nextval now : Nat} {jobId : String}
    {res : EnqueueResult} (h : enqueueCapture ticket nextval jobId now s = .ok (res, s')) :
    newJob jobId ticket.targetId (ticket.writes nextval s) now ∈ s'.jobs
      ∨ ∃ j ∈ s.jobs, j.targetId = ticket.targetId ∧ j.captureId = ticket.writes nextval s
        ∧ j.revive ∈ s'.jobs := by
  simp only [enqueueCapture, Except.ok.injEq, Prod.mk.injEq] at h
  obtain ⟨-, rfl⟩ := h
  rw [saveCapture_fst, saveCapture_frame]
  unfold upsertJob
  split
  · exact Or.inl (List.mem_append_right _ (List.mem_singleton_self _))
  · rename_i j hj
    have hmem := List.mem_of_find?_eq_some hj
    have hkey := List.find?_some hj
    simp only [decide_eq_true_eq] at hkey
    obtain ⟨i, hi, ⟨hp, rfl⟩ | ⟨-, rfl⟩⟩ := mem_updateWhere.mp hmem
    · simp only [Bool.and_eq_true, decide_eq_true_eq] at hp
      exact absurd hkey.2 hp.2
    · refine Or.inr ⟨j, hi, hkey.1, hkey.2, mem_updateWhere.mpr ⟨j, hmem, Or.inl ⟨?_, rfl⟩⟩⟩
      simp [hkey]

theorem CaptureMove.names {ticket : CaptureTicket} {c d : SuffixCapture}
    (h : CaptureMove f e c d) : ticket.names d = ticket.names c := by
  unfold CaptureTicket.names
  rw [h.key.2.1, h.key.2.2.1]

theorem enqueue_carried (hrep : e.replaysExactly f = true) :
    EnqueueCarried cfg f e := by
  intro ticket nextval jobId res he hr
  have hw := (Commits.work hr).2
  simp only [Event.work, he] at hw
  obtain ⟨res', hrun, -⟩ := Work.reply_ok.mp hw
  obtain ⟨c, hc, hcid, hn, hsuffix⟩ := saveCapture_row ticket nextval e.now f.store
  obtain ⟨hcaptures, htargets⟩ := enqueueCapture_frame hrun
  rw [← hcaptures] at hc
  rcases enqueueCapture_row hrun with hnew | ⟨j, hj, hjt, hjc, hrevive⟩
  · exact Or.inr ⟨c, hc, _, hnew, hn, hsuffix, hcid.symm, Or.inl rfl⟩
  · have hcarried : ∀ k : DeliveryJob, k ∈ ((fleet cfg).next f e).store.jobs →
        k.captureId = j.captureId → k.state = .pending ∨ k.state = .failed ∨ k.state = .leased →
        ∃ c ∈ ((fleet cfg).next f e).store.captures, ∃ j ∈ ((fleet cfg).next f e).store.jobs,
          ticket.names c = true ∧ c.exactSuffix = ticket.exactSuffix ∧ j.captureId = c.captureId
            ∧ (j.state = .pending ∨ j.state = .failed ∨ j.state = .leased) :=
      fun k hk hkj hs => ⟨c, hc, k, hk, hn, hsuffix, hkj.trans (hjc.trans hcid.symm), hs⟩
    have happlied : ((fleet cfg).next f e).store.lastAppliedHash ticket.targetId =
        f.store.lastAppliedHash ticket.targetId := by
      unfold Store.lastAppliedHash Store.target?
      rw [htargets]
    -- The job is of a stored capture, so the enqueue agrees with it.
    obtain ⟨d, hd, hdj⟩ := capture_of_job f hj
    have hdn : ticket.names d = true :=
      (capture_moved hd hc (hcid.trans (hjc.symm.trans hdj.symm))).names.symm.trans hn
    have hagrees := agrees_of_replays hrep he hd hdn hj hdj.symm
    unfold CaptureTicket.agrees at hagrees
    unfold DeliveryJob.revive at hrevive
    cases hs : j.state with
    | pending =>
      rw [if_neg (by simp [hs])] at hrevive
      exact Or.inr (hcarried j hrevive rfl (Or.inl hs))
    | failed =>
      rw [if_neg (by simp [hs])] at hrevive
      exact Or.inr (hcarried j hrevive rfl (Or.inr (Or.inl hs)))
    | leased =>
      rw [if_neg (by simp [hs])] at hrevive
      exact Or.inr (hcarried j hrevive rfl (Or.inr (Or.inr hs)))
    | dead =>
      rw [if_pos hs] at hrevive
      exact Or.inr (hcarried _ hrevive rfl (Or.inl rfl))
    | applied =>
      simp only [hs, Bool.and_eq_true, decide_eq_true_eq] at hagrees
      exact Or.inl (happlied.trans hagrees.2)
    | superseded =>
      simp only [hs, decide_eq_true_eq] at hagrees
      exact Or.inl (happlied.trans hagrees)

/-! ## The acknowledgement of a leased suffix -/

/-- A leased suffix is deliverable. -/
theorem grantLog_deliverable {g : Grant} (hg : g ∈ grantLog cfg es) :
    deliverySuffixIssue g.exactSuffix = none := by
  obtain ⟨pre, e, post, -, hg⟩ := EventSystem.mem_collect.mp hg
  obtain ⟨req, c, hrow⟩ := grantsOf_row hg
  rw [hrow.grant]
  exact hrow.deliverable

/-- Updates of a job row and a target row that keep their keys keep the constraints. -/
theorem settle_constraints (jobId targetId : String) {g : DeliveryJob → DeliveryJob}
    {h : CampaignTarget → CampaignTarget} (hg : ∀ j, (g j).key = j.key)
    (hh : ∀ t, (h t).targetId = t.targetId ∧ (h t).campaignRecordId = t.campaignRecordId
      ∧ (h t).managerCustomerId = t.managerCustomerId ∧ (h t).customerId = t.customerId
      ∧ (h t).googleCampaignId = t.googleCampaignId
      ∧ (h t).minDeliveryIntervalMs = t.minDeliveryIntervalMs) (d : Database) :
    let s : Store := { d.store with
      jobs := updateKey (·.jobId) jobId g d.store.jobs
      targets := updateKey (·.targetId) targetId h d.store.targets }
    s.Unique ∧ s.References ∧ s.Checks := by
  have hjob : ∀ {β : Type} (col : DeliveryJob → β), (∀ j, col (g j) = col j) →
      (updateKey (·.jobId) jobId g d.store.jobs).map col = d.store.jobs.map col :=
    fun col hcol => map_updateWhere fun j _ => hcol j
  have htarget : ∀ {β : Type} (col : CampaignTarget → β), (∀ t, col (h t) = col t) →
      (updateKey (·.targetId) targetId h d.store.targets).map col = d.store.targets.map col :=
    fun col hcol => map_updateWhere fun t _ => hcol t
  have hids := htarget (·.targetId) fun t => (hh t).1
  have hu := d.unique
  have hr := d.references
  refine ⟨{ hu with
      target_key := ?_, target_record := ?_, target_campaign := ?_, job_key := ?_
      job_capture := ?_ }, { hr with capture_target := ?_, job_target := ?_, job_capture := ?_ },
    { d.checks with interval := ?_ }⟩
  · rw [hids]
    exact hu.target_key
  · rw [htarget (·.campaignRecordId) fun t => (hh t).2.1]
    exact hu.target_record
  · rw [htarget (fun t => (t.managerCustomerId, t.customerId, t.googleCampaignId)) fun t => by
      rw [(hh t).2.2.1, (hh t).2.2.2.1, (hh t).2.2.2.2.1]]
    exact hu.target_campaign
  · rw [hjob (·.jobId) fun j => jobId_of_key (hg j)]
    exact hu.job_key
  · rw [hjob (fun j => (j.targetId, j.captureId)) fun j => by
      rw [targetId_of_key (hg j), captureId_of_key (hg j)]]
    exact hu.job_capture
  · rw [hids]
    exact hr.capture_target
  · intro k hk
    obtain ⟨j, hj, ⟨-, rfl⟩ | ⟨-, rfl⟩⟩ := mem_updateWhere.mp hk
    · rw [hids, targetId_of_key (hg j)]
      exact hr.job_target j hj
    · rw [hids]
      exact hr.job_target k hj
  · intro k hk
    obtain ⟨j, hj, ⟨-, rfl⟩ | ⟨-, rfl⟩⟩ := mem_updateWhere.mp hk
    · rw [captureId_of_key (hg j)]
      exact hr.job_capture j hj
    · exact hr.job_capture k hj
  · intro u hu
    obtain ⟨t, ht, ⟨-, rfl⟩ | ⟨-, rfl⟩⟩ := mem_updateWhere.mp hu
    · rw [(hh t).2.2.2.2.2]
      exact d.checks.interval t ht
    · exact d.checks.interval u ht

/-- The acknowledgement of a leased job with the suffix its capture has is answered with applied. -/
theorem leased_answered {input : AckInput} {j : DeliveryJob} {c : SuffixCapture}
    {suffix : String} (he : e.call = .acknowledgeBridgeJob input) (hj : j ∈ f.store.jobs)
    (hid : j.jobId = input.jobId) (hl : j.state = .leased)
    (hheld : j.heldBy cfg input.workerId input.leaseToken = true) (hc : c ∈ f.store.captures)
    (hcj : c.captureId = j.captureId) (hhash : c.suffixHash = cfg.digest suffix)
    (hissue : deliverySuffixIssue suffix = none) (hok : input.ok = true)
    (hsuffix : input.appliedSuffix = some suffix)
    (hshard : f.store.shardOfJob input.jobId = some input.shardId) :
    (fleet cfg).reply f e = .ok (.ack ⟨true, "applied", none, false⟩) := by
  have hrow : f.store.ackRow input = some (j, c) :=
    ackRow_of_shard hj hid hc hcj hshard
  have hassert : (if input.ok then assertDeliverableSuffix input.appliedSuffix else .ok ()) =
      .ok () := by
    simp only [hok, if_true, hsuffix, assertDeliverableSuffix, hissue]
  have hmatch : input.exactMatch cfg c = true := by
    unfold AckInput.exactMatch
    simp [hok, hsuffix, hhash]
  have hwork : acknowledgeBridgeJob cfg input e.now f.store =
      .ok (acknowledgeLeased cfg input e.now j c f.store) := by
    simp only [acknowledgeBridgeJob, hassert, hrow, hheld, hl, not_true_eq_false, if_false,
      reduceCtorEq, ne_eq]
  unfold acknowledgeLeased at hwork
  rw [if_pos hmatch] at hwork
  obtain ⟨hu, hr, hck⟩ := settle_constraints input.jobId j.targetId
    (g := DeliveryJob.verify e.now c.suffixHash) (fun j => rfl)
    (h := fun t => { t with
      lastAppliedAt := some e.now, lastAppliedSuffixHash := some c.suffixHash })
    (fun t => ⟨rfl, rfl, rfl, rfl, rfl, rfl⟩) f.db
  refine ack_reply he hwork (updateShard_constraints input.shardId ?_ ⟨_, hu, hr, hck⟩)
  exact fun shard => rfl

/-! ## Runs -/

/-- What was leased is what is verified. -/
structure Exact (cfg : Config) (es : List Event) : Prop where
  leased : ∀ j ∈ ((fleet cfg).run Fleet.initial es).store.jobs, j.state = .leased →
    ∃ g, lastGrant (grantLog cfg es) j.jobId = some g
      ∧ (∀ c ∈ ((fleet cfg).run Fleet.initial es).store.captures, c.captureId = j.captureId →
        c.exactSuffix = g.exactSuffix)
      ∧ ∀ e shardId, e.call = .acknowledgeBridgeJob
          { shardId := shardId, workerId := g.workerId, jobId := j.jobId
            leaseToken := g.leaseToken, ok := true, appliedSuffix := some g.exactSuffix } →
        ((fleet cfg).run Fleet.initial es).store.shardOfJob j.jobId = some shardId →
        (fleet cfg).reply ((fleet cfg).run Fleet.initial es) e =
          .ok (.ack ⟨true, "applied", none, false⟩)
  applied : AppliedExact ((fleet cfg).run Fleet.initial es).store
  enqueued : (fleet cfg).Along (EnqueueCarried cfg) Fleet.initial es

/-- **What was leased is what is verified**, in every run whose enqueues of stored versions agree
with the jobs of those versions. -/
theorem exact_run (cfg : Config) (es : List Event)
    (hreplays : (fleet cfg).Along (fun f e => e.replaysExactly f = true) Fleet.initial es) :
    Exact cfg es := by
  refine ⟨fun j hj hl => ?_, ?_, hreplays.mono fun f e h => enqueue_carried h⟩
  · have hlog : LeasedExact (grantLog cfg es) ((fleet cfg).run Fleet.initial es).store := by
      refine EventSystem.history_inv (P := fun es f => LeasedExact (grantLog cfg es) f.store)
        (fun j hj => absurd hj List.not_mem_nil) (fun es e hes ih => ?_) hreplays
      rw [grantLog_concat]
      exact leasedExact_step ih (EventSystem.along_concat.mp hes).2
    obtain ⟨g, hlast, hsuffix⟩ := hlog j hj hl
    refine ⟨g, hlast, hsuffix, fun e shardId he hshard => ?_⟩
    obtain ⟨g', hlast', hcarries⟩ := held_run cfg es j hj (Or.inl hl)
    obtain rfl := Option.some.inj (hlast.symm.trans hlast')
    have hheld : j.heldBy cfg g.workerId g.leaseToken = true := by
      unfold DeliveryJob.heldBy
      simp [hcarries.worker, hcarries.token]
    obtain ⟨c, hc, hcj⟩ := capture_of_job _ hj
    have hhash := (inv_run cfg es).capture_hash c hc
    rw [hsuffix c hc hcj] at hhash
    exact leased_answered he hj rfl hl hheld hc hcj hhash
      (grantLog_deliverable (lastGrant_mem hlast).1) rfl rfl hshard
  · exact EventSystem.run_inv (P := fun f => AppliedExact f.store)
      (fun j hj => absurd hj List.not_mem_nil) (fun f e h hrep => appliedExact_step h hrep) hreplays

/-- A delivery in progress. -/
def delivering : List Event :=
  Sample.register 1 :: Sample.enqueue 2 "a=1" 1 1 "job1" ++ [Sample.lease 3 "token1"]

theorem exact_run_replayed :
    Exact Config.sample (delivering ++ Sample.enqueue 4 "a=1" 1 2 "job2") :=
  exact_run Config.sample _ (by decide +kernel)

/-- **A version sent again with another suffix while its job is leased**: the worker verifies a
suffix its job's capture no longer has. -/
theorem rewritten_while_leased : ¬ ∀ (cfg : Config) (es : List Event), Exact cfg es := by
  intro h
  have hleased := (h Config.sample (delivering ++ Sample.enqueue 4 "a=2" 1 2 "job2")).leased
  have hrow : ∃ j ∈ ((fleet Config.sample).run Fleet.initial
      (delivering ++ Sample.enqueue 4 "a=2" 1 2 "job2")).store.jobs, j.state = .leased
        ∧ ∃ c ∈ ((fleet Config.sample).run Fleet.initial
          (delivering ++ Sample.enqueue 4 "a=2" 1 2 "job2")).store.captures,
          c.captureId = j.captureId ∧ ∀ g ∈ lastGrant (grantLog Config.sample
            (delivering ++ Sample.enqueue 4 "a=2" 1 2 "job2")) j.jobId,
            c.exactSuffix ≠ g.exactSuffix := by
    decide +kernel
  obtain ⟨j, hj, hl, c, hc, hcj, hne⟩ := hrow
  obtain ⟨g, hlast, hsuffix, -⟩ := hleased j hj hl
  exact hne g hlast (hsuffix c hc hcj)

end LinkSuffix
