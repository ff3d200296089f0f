import LinkSuffix.Queue.Grants

/-!
# Lease tokens

A worker reports on a job with the token it was leased with. Only the token of the last lease has an
effect, and only while the job is leased; a token whose lease ended is spent for good.

* `Event.reports`, `Event.presents`: the calls of a worker on its leases, and what they present.
* `Holds`, **`reports_rows`**: a report changes no row but that of a job it holds, and its target.
* `Ended`, `Spent`, **`spent_rows`**: a spent token changes nothing.
* **`leaseTokens_run`**: exclusivity, stale tokens and repeated acknowledgements, over every run.
* **`moved_repeat_stale`**: after a move to another shard a repeated acknowledgement is stale.
-/

namespace LinkSuffix

open Lib

variable {cfg : Config} {f : Fleet} {e : Event} {s s' : Store} {r : Except StoreError Reply}
  {es : List Event}

/-! ## Reports -/

/-- The event acknowledges a job or renews leases. -/
def Event.reports (e : Event) : Bool :=
  match e.call with
  | .acknowledgeBridgeJob _ | .renewBridgeLeases _ => true
  | _ => false

/-- The event presents a token for a job. -/
def Event.presents (e : Event) (jobId workerId leaseToken : String) : Prop :=
  match e.call with
  | .acknowledgeBridgeJob input =>
    input.jobId = jobId ∧ input.workerId = workerId ∧ input.leaseToken = leaseToken
  | .renewBridgeLeases input => input.workerId = workerId ∧ ⟨jobId, leaseToken⟩ ∈ input.leases
  | _ => False

/-- The event presents a token that a leased job's columns accept. -/
def Event.accepted (cfg : Config) (e : Event) (j : DeliveryJob) : Prop :=
  j.state = .leased ∧ ∃ workerId leaseToken, e.presents j.jobId workerId leaseToken
    ∧ j.heldBy cfg workerId leaseToken = true

theorem AckRow.accepted {input : AckInput} {j : DeliveryJob} {c : SuffixCapture}
    {t : CampaignTarget} (he : e.call = .acknowledgeBridgeJob input)
    (h : AckRow cfg input s j c t) : e.accepted cfg j := by
  refine ⟨h.leased, input.workerId, input.leaseToken, ?_, h.held⟩
  unfold Event.presents
  rw [he]
  exact ⟨h.jobId.symm, rfl, rfl⟩

/-- A report changes a job row only if the row accepts its token. -/
theorem JobMove.accepted {j k : DeliveryJob} (hrep : e.reports = true)
    (h : JobMove cfg s s' e r j k) : k = j ∨ e.accepted cfg j := by
  have hcall : ∀ c, e.call = c → Event.reports ⟨e.now, e.committedAt, c⟩ = true := by
    rintro c rfl
    exact hrep
  cases h with
  | keep => exact Or.inl rfl
  | verified he hrow => exact Or.inr (hrow.accepted he)
  | refused he hrow => exact Or.inr (hrow.accepted he)
  | @renewed input lease _ he hj hm hh hl =>
    refine Or.inr ⟨hl, input.workerId, lease.leaseToken, ?_, hh⟩
    unfold Event.presents
    rw [he, hj]
    exact ⟨rfl, hm⟩
  | replaced he => exact absurd (hcall _ he) (by simp [Event.reports])
  | revived he => exact absurd (hcall _ he) (by simp [Event.reports])
  | outdated he => exact absurd (hcall _ he) (by simp [Event.reports])
  | requeued he => exact absurd (hcall _ he) (by simp [Event.reports])
  | leased he => exact absurd (hcall _ he) (by simp [Event.reports])
  | paused he => exact absurd (hcall _ he) (by simp [Event.reports])

/-- A report inserts no job and removes no target. -/
theorem reports_jobs (hrep : e.reports = true) :
    List.Forall₂ (fun j k => k = j ∨ e.accepted cfg j) f.store.jobs
      ((fleet cfg).next f e).store.jobs := by
  unfold Event.reports at hrep
  rcases next_jobs cfg f e with ⟨born, hborn, hrows⟩ | ⟨t, input, he, -⟩
  · have hnil : born = [] := by
      refine List.eq_nil_iff_forall_not_mem.mpr fun j hj => ?_
      cases hborn j hj with
      | enqueued he => simp [he] at hrep
      | queued he => simp [he] at hrep
      | missing he => simp [he] at hrep
    rw [hnil, List.append_nil] at hrows
    exact hrows.imp fun j k hm => hm.accepted hrep
  · simp [he] at hrep

/-- A report changes a target row only if a leased job of it accepts the token. -/
theorem reports_targets (hrep : e.reports = true) :
    List.Forall₂ (fun t u => u = t
        ∨ ∃ j ∈ f.store.jobs, j.targetId = t.targetId ∧ e.accepted cfg j)
      f.store.targets ((fleet cfg).next f e).store.targets := by
  unfold Event.reports at hrep
  cases next_targets cfg f e with
  | same h =>
    rw [h]
    exact forall₂_refl fun t => Or.inl rfl
  | enrolled he =>
    rcases he with ⟨input, he, -⟩ | ⟨input, dateNow, he, -⟩
    · simp [he] at hrep
    · simp [he] at hrep
  | switched he => simp [he] at hrep
  | applied he hrow hx h =>
    rw [h]
    refine target_updateKey (fun t => Or.inl rfl) fun t _ hid => Or.inr ?_
    exact ⟨_, hrow.job, hid.symm, hrow.accepted he⟩
  | removed h =>
    obtain ⟨input, he, -⟩ := h
    simp [he] at hrep

/-! ## The last lease -/

/-- The event presents the worker and the token of a leased job's last lease. -/
def Holds (cfg : Config) (es : List Event) (e : Event) (j : DeliveryJob) : Prop :=
  j.state = .leased ∧ ∃ g, lastGrant (grantLog cfg es) j.jobId = some g
    ∧ e.presents j.jobId g.workerId g.leaseToken

/-- An accepted token is that of the last lease: digests do not collide. -/
theorem holds_of_accepted (hdigest : Function.Injective cfg.digest) {j : DeliveryJob}
    (hj : j ∈ ((fleet cfg).run Fleet.initial es).store.jobs) (h : e.accepted cfg j) :
    Holds cfg es e j := by
  obtain ⟨hl, workerId, leaseToken, hp, hheld⟩ := h
  obtain ⟨g, hlast, hc⟩ := held_run cfg es j hj (Or.inl hl)
  unfold DeliveryJob.heldBy at hheld
  simp only [hc.worker, hc.token, Bool.and_eq_true, decide_eq_true_eq, Option.some.injEq] at hheld
  obtain ⟨hw, htoken⟩ := hheld
  refine ⟨hl, g, hlast, ?_⟩
  rw [hw, hdigest htoken]
  exact hp

/-- What a report leaves: every row as it was, but for a job it holds and the target of one. -/
structure OnlyHolders (cfg : Config) (es : List Event) (e : Event) (s s' : Store) : Prop where
  jobs : List.Forall₂ (fun j k => k = j ∨ Holds cfg es e j) s.jobs s'.jobs
  targets : List.Forall₂ (fun t u => u = t
    ∨ ∃ j ∈ s.jobs, j.targetId = t.targetId ∧ Holds cfg es e j) s.targets s'.targets

/-- **A report changes only what it holds.** -/
theorem reports_rows (hdigest : Function.Injective cfg.digest) (es : List Event)
    (hrep : e.reports = true) :
    OnlyHolders cfg es e ((fleet cfg).run Fleet.initial es).store
      ((fleet cfg).run Fleet.initial (es ++ [e])).store := by
  rw [EventSystem.run_concat]
  constructor
  · refine forall₂_imp_mem (reports_jobs hrep) fun j hj k h => ?_
    exact h.imp id (holds_of_accepted hdigest hj)
  · refine (reports_targets hrep).imp fun t u h => h.imp id ?_
    rintro ⟨j, hj, ht, ha⟩
    exact ⟨j, hj, ht, holds_of_accepted hdigest hj ha⟩

/-! ## Spent tokens -/

/-- No token is drawn twice. -/
def Fresh (cfg : Config) (es : List Event) : Prop :=
  ((grantLog cfg es).map (·.leaseToken)).Nodup

/-- The lease ended: its job was reaped, superseded, failed, applied or leased again. -/
def Ended (cfg : Config) (es : List Event) (g : Grant) : Prop :=
  ∀ j ∈ ((fleet cfg).run Fleet.initial es).store.jobs, j.jobId = g.jobId → j.state = .leased →
    lastGrant (grantLog cfg es) g.jobId ≠ some g

theorem Fresh.before {fs : List Event} (h : Fresh cfg (es ++ fs)) : Fresh cfg es := by
  unfold Fresh grantLog at h
  rw [EventSystem.collect_append, List.map_append] at h
  exact (List.nodup_append.mp h).1

/-- A lease in the log is told from another by its token. -/
theorem Fresh.eq {g g' : Grant} (h : Fresh cfg es) (hg : g ∈ grantLog cfg es)
    (hg' : g' ∈ grantLog cfg es) (htoken : g.leaseToken = g'.leaseToken) : g = g' :=
  key_unique h hg hg' htoken

theorem Fresh.not_again {g : Grant} (h : Fresh cfg (es ++ [e])) (hg : g ∈ grantLog cfg es) :
    g ∉ grantsOf cfg ((fleet cfg).run Fleet.initial es) e := by
  intro hnew
  unfold Fresh at h
  rw [grantLog_concat, List.map_append, List.nodup_append] at h
  exact h.2.2 _ (List.mem_map_of_mem hg) _ (List.mem_map_of_mem hnew) rfl

/-- A job leased after an event that hands it out no lease was leased before. -/
theorem leased_before {k : DeliveryJob} (hk : k ∈ ((fleet cfg).next f e).store.jobs)
    (hl : k.state = .leased) (hnone : ∀ g ∈ grantsOf cfg f e, g.jobId ≠ k.jobId) :
    ∃ j ∈ f.store.jobs, j.jobId = k.jobId ∧ j.state = .leased := by
  obtain ⟨j, hm, hj⟩ := job_before hk
  rcases hm.to_leased hl with ⟨hjl, -⟩ | ⟨req, c, rfl, hh⟩
  · exact ⟨j, hj.resolve_right fun hb => by simp [hb.born.pending] at hjl,
      (jobId_of_key hm.key).symm, hjl⟩
  · exact absurd (jobId_of_key hm.key).symm (hnone _ hh.mem_grantsOf)

theorem ended_step {g : Grant} (hg : g ∈ grantLog cfg es) (h : Ended cfg es g)
    (hfresh : Fresh cfg (es ++ [e])) : Ended cfg (es ++ [e]) g := by
  intro k hk hid hl hlast
  rw [EventSystem.run_concat] at hk
  rw [grantLog_concat] at hlast
  by_cases hnew : ∃ g' ∈ grantsOf cfg ((fleet cfg).run Fleet.initial es) e, g'.jobId = g.jobId
  · obtain ⟨g', hg', hid'⟩ := hnew
    obtain ⟨g'', hg'', -, hlast'⟩ := lastGrant_append_of_mem (grantLog cfg es) hg' hid'
    obtain rfl := Option.some.inj (hlast'.symm.trans hlast)
    exact hfresh.not_again hg hg''
  · push Not at hnew
    rw [lastGrant_append_of_none hnew] at hlast
    obtain ⟨j, hj, hjk, hjl⟩ := leased_before hk hl (hid ▸ hnew)
    exact h j hj (hjk.trans hid) hjl hlast

/-- **An ended lease stays ended.** -/
theorem ended_run {g : Grant} (fs : List Event) (hg : g ∈ grantLog cfg es) (h : Ended cfg es g)
    (hfresh : Fresh cfg (es ++ fs)) : Ended cfg (es ++ fs) g := by
  induction fs using List.reverseRecOn with
  | nil => rwa [List.append_nil]
  | append_singleton fs e ih =>
    rw [← List.append_assoc] at hfresh ⊢
    refine ended_step ?_ (ih hfresh.before) hfresh
    unfold grantLog
    rw [EventSystem.collect_append]
    exact List.mem_append_left _ hg

/-- The token of a lease that ended at some point of the run. -/
def Spent (cfg : Config) (es : List Event) (leaseToken : String) : Prop :=
  ∃ pre post g, es = pre ++ post ∧ g ∈ grantLog cfg pre ∧ g.leaseToken = leaseToken
    ∧ Ended cfg pre g

/-- The rows of the two tables a report writes are the same. -/
def SameRows (s s' : Store) : Prop := s'.jobs = s.jobs ∧ s'.targets = s.targets

/-- **A report that presents only spent tokens changes nothing.** -/
theorem spent_rows (hdigest : Function.Injective cfg.digest) (hfresh : Fresh cfg es)
    (hrep : e.reports = true)
    (hspent : ∀ jobId workerId leaseToken, e.presents jobId workerId leaseToken →
      Spent cfg es leaseToken) :
    SameRows ((fleet cfg).run Fleet.initial es).store
      ((fleet cfg).run Fleet.initial (es ++ [e])).store := by
  have hnone : ∀ j ∈ ((fleet cfg).run Fleet.initial es).store.jobs, ¬ Holds cfg es e j := by
    rintro j hj ⟨hl, g, hlast, hp⟩
    obtain ⟨pre, post, g', rfl, hg', htoken, hended⟩ := hspent _ _ _ hp
    obtain ⟨hg, hid⟩ := lastGrant_mem hlast
    have hg'' : g' ∈ grantLog cfg (pre ++ post) := by
      unfold grantLog
      rw [EventSystem.collect_append]
      exact List.mem_append_left _ hg'
    obtain rfl := hfresh.eq hg'' hg htoken
    exact ended_run post hg' hended hfresh j hj hid.symm hl (hid ▸ hlast)
  obtain ⟨hjobs, htargets⟩ := reports_rows hdigest es hrep
  constructor
  · exact eq_of_forall₂ (forall₂_imp_mem hjobs fun j hj k h => h.resolve_right (hnone j hj))
  · refine eq_of_forall₂ (htargets.imp fun t u h => h.resolve_right ?_)
    rintro ⟨j, hj, -, hh⟩
    exact hnone j hj hh

/-! ## Repeated acknowledgements -/

/-- The event is an acknowledgement answered with ok and applied. -/
def Answered (cfg : Config) (es : List Event) (e : Event) : Prop :=
  ∃ res, (fleet cfg).reply ((fleet cfg).run Fleet.initial es) e = .ok (.ack res)
    ∧ res.ok = true ∧ res.state = "applied"

/-- The shard that serves the target of a job. -/
def Store.shardOfJob (s : Store) (jobId : String) : Option String :=
  (s.job? jobId).bind fun j => (s.target? j.targetId).map (·.shardId)

/-- The suffix of the capture of a job. -/
def Store.suffixOfJob (s : Store) (jobId : String) : Option String :=
  (s.job? jobId).bind fun j => (s.capture? j.captureId).map (·.exactSuffix)

/-- What an acknowledgement answered with applied leaves: the job applied, still with the token. -/
structure Settled (cfg : Config) (input : AckInput) (s : Store) (j : DeliveryJob)
    (c : SuffixCapture) : Prop where
  job : j ∈ s.jobs
  jobId : j.jobId = input.jobId
  applied : j.state = .applied
  held : j.heldBy cfg input.workerId input.leaseToken = true
  capture : c ∈ s.captures
  captureId : c.captureId = j.captureId
  verified : j.verifiedSuffixHash = some c.suffixHash
  suffix : input.ok = true → assertDeliverableSuffix input.appliedSuffix = .ok ()

theorem acknowledgeBridgeJob_settled {input : AckInput} {now : Nat} {res : AckResult}
    (h : acknowledgeBridgeJob cfg input now s = .ok (res, s')) (hok : res.ok = true) :
    ∃ j c, Settled cfg input s' j c := by
  unfold acknowledgeBridgeJob at h
  split at h
  · exact absurd h (by simp)
  rename_i hassert
  have hsuffix : input.ok = true → assertDeliverableSuffix input.appliedSuffix = .ok () :=
    fun hin => by rwa [if_pos hin] at hassert
  split at h
  · obtain ⟨rfl, -⟩ := Prod.mk.inj (Except.ok.inj h)
    exact absurd hok (by simp)
  rename_i j c hrow
  obtain ⟨hj, hid, hc, hcid, -⟩ := ackRow_some hrow
  split at h
  · obtain ⟨rfl, -⟩ := Prod.mk.inj (Except.ok.inj h)
    exact absurd hok (by simp)
  rename_i hheld
  have hheld := not_not.mp hheld
  split at h
  · rename_i happlied
    split at h
    · rename_i hverified
      obtain ⟨-, rfl⟩ := Prod.mk.inj (Except.ok.inj h)
      exact ⟨j, c, hj, hid, happlied, hheld, hc, hcid, hverified, hsuffix⟩
    · obtain ⟨rfl, -⟩ := Prod.mk.inj (Except.ok.inj h)
      exact absurd hok (by simp)
  split at h
  · obtain ⟨rfl, -⟩ := Prod.mk.inj (Except.ok.inj h)
    exact absurd hok (by simp)
  unfold acknowledgeLeased at h
  split at h
  · obtain ⟨-, rfl⟩ := Prod.mk.inj (Except.ok.inj h)
    refine ⟨j.verify now c.suffixHash, c, ?_, hid, rfl, hheld, hc, hcid, rfl, hsuffix⟩
    exact mem_updateWhere.mpr ⟨j, hj, Or.inl ⟨decide_eq_true hid, rfl⟩⟩
  · obtain ⟨rfl, -⟩ := Prod.mk.inj (Except.ok.inj h)
    exact absurd hok (by simp)

theorem Answered.settled {input : AckInput} (he : e.call = .acknowledgeBridgeJob input)
    (h : Answered cfg es e) :
    ∃ j c, Settled cfg input ((fleet cfg).run Fleet.initial (es ++ [e])).store j c := by
  obtain ⟨res, hr, hok, -⟩ := h
  have hw := (Commits.work hr).2
  simp only [Event.work, he] at hw
  obtain ⟨res', hrun, hres⟩ := Work.reply_ok.mp hw
  obtain rfl := Reply.ack.inj hres
  rw [EventSystem.run_concat]
  exact acknowledgeBridgeJob_settled hrun hok

/-- The token of an acknowledgement answered with applied is spent. -/
theorem Settled.spent (hdigest : Function.Injective cfg.digest) {input : AckInput}
    {j : DeliveryJob} {c : SuffixCapture}
    (h : Settled cfg input ((fleet cfg).run Fleet.initial es).store j c) (fs : List Event) :
    Spent cfg (es ++ fs) input.leaseToken := by
  obtain ⟨g, hlast, hc⟩ := held_run cfg es j h.job (Or.inr h.applied)
  obtain ⟨hg, hid⟩ := lastGrant_mem hlast
  refine ⟨es, fs, g, rfl, hg, ?_, fun k hk hkid hkl => ?_⟩
  · have hheld := h.held
    unfold DeliveryJob.heldBy at hheld
    simp only [hc.token, Bool.and_eq_true, decide_eq_true_eq, Option.some.injEq] at hheld
    exact hdigest hheld.2
  · have hkj := key_unique (store_unique _).job_key hk h.job (hkid.trans hid)
    rw [hkj, h.applied] at hkl
    exact absurd hkl (by simp)

/-- An applied job that is still there is unchanged. -/
theorem applied_next {j k : DeliveryJob} (hj : j ∈ f.store.jobs) (happlied : j.state = .applied)
    (hk : k ∈ ((fleet cfg).next f e).store.jobs) (hid : k.jobId = j.jobId) : k = j := by
  obtain ⟨i, hm, hi⟩ := job_before hk
  have hij : i.jobId = j.jobId := (jobId_of_key hm.key).symm.trans hid
  have hi : i ∈ f.store.jobs := hi.resolve_right fun hb => hb.fresh j hj hij.symm
  obtain rfl := key_unique (store_unique f).job_key hi hj hij
  exact hm.of_applied happlied

/-- An applied job is unchanged for as long as it is there. -/
theorem applied_run {j : DeliveryJob} (es : List Event) (hj : j ∈ f.store.jobs)
    (happlied : j.state = .applied)
    (hthere : (fleet cfg).Along (fun f _ => (f.store.job? j.jobId).isSome = true) f es)
    (hend : (((fleet cfg).run f es).store.job? j.jobId).isSome = true) :
    j ∈ ((fleet cfg).run f es).store.jobs := by
  induction es using List.reverseRecOn with
  | nil => exact hj
  | append_singleton es e ih =>
    obtain ⟨hbefore, hlast⟩ := EventSystem.along_concat.mp hthere
    have hj := ih hbefore hlast
    rw [EventSystem.run_concat] at hend ⊢
    obtain ⟨k, hk⟩ := Option.isSome_iff_exists.mp hend
    obtain ⟨hk, hid⟩ := job?_some hk
    rw [← applied_next hj happlied hk hid]
    exact hk

/-- An update of a shard row that keeps its key keeps the constraints. -/
theorem updateShard_constraints (shardId : String) {g : ScriptShard → ScriptShard}
    (hg : ∀ shard, (g shard).shardId = shard.shardId) (d : Database) :
    (updateShard shardId g d.store).Unique ∧ (updateShard shardId g d.store).References
      ∧ (updateShard shardId g d.store).Checks := by
  have hkeys : (updateShard shardId g d.store).shards.map (·.shardId) =
      d.store.shards.map (·.shardId) := map_updateWhere fun shard _ => hg shard
  refine ⟨{ d.unique with shard_key := ?_ }, { d.references with activity_shard := ?_ },
    { d.checks with }⟩
  · rw [hkeys]
    exact d.unique.shard_key
  · rw [hkeys]
    exact d.references.activity_shard

/-- The acknowledgement finds the row of a job whose target is on its shard. -/
theorem ackRow_of_shard {input : AckInput} {j : DeliveryJob} {c : SuffixCapture}
    (hj : j ∈ f.store.jobs) (hid : j.jobId = input.jobId) (hc : c ∈ f.store.captures)
    (hcj : c.captureId = j.captureId)
    (hshard : f.store.shardOfJob input.jobId = some input.shardId) :
    f.store.ackRow input = some (j, c) := by
  have hu := store_unique f
  have hjob : f.store.job? input.jobId = some j := (job?_eq_some_iff hu).mpr ⟨hj, hid⟩
  have hcapture : f.store.capture? j.captureId = some c :=
    (capture?_eq_some_iff hu).mpr ⟨hc, hcj⟩
  unfold Store.shardOfJob at hshard
  rw [hjob] at hshard
  obtain ⟨t, htarget, htshard⟩ := Option.map_eq_some_iff.mp hshard
  unfold Store.ackRow
  simp only [hjob, hcapture, htarget, htshard, if_true]

/-- What the work of an acknowledgement returns is answered, if it meets the constraints. -/
theorem ack_reply {input : AckInput} {res : AckResult}
    (he : e.call = .acknowledgeBridgeJob input)
    (h : acknowledgeBridgeJob cfg input e.now f.store = .ok (res, s))
    (hs : s.Unique ∧ s.References ∧ s.Checks) : (fleet cfg).reply f e = .ok (.ack res) := by
  have hwork : e.work cfg f.store = .ok (.ack res, s) := by
    simp only [Event.work, he, Work.reply, h]
  have hcommit := transaction_of_work (d := f.db) hwork hs
  unfold EventSystem.reply fleet stepFleet Event.enabled
  simp only [he, if_true, hcommit]

/-- A repeated acknowledgement of an applied job on its shard is answered with applied. -/
theorem Settled.answered {input : AckInput} {j : DeliveryJob} {c : SuffixCapture}
    (h : Settled cfg input f.store j c) (he : e.call = .acknowledgeBridgeJob input)
    (hshard : f.store.shardOfJob input.jobId = some input.shardId) :
    (fleet cfg).reply f e = .ok (.ack ⟨true, "applied", none, true⟩) := by
  have hrow := ackRow_of_shard h.job h.jobId h.capture h.captureId hshard
  have hsuffix : (if input.ok then assertDeliverableSuffix input.appliedSuffix else .ok ()) =
      .ok () := by
    split
    · rename_i hok
      exact h.suffix hok
    · rfl
  have hwork : acknowledgeBridgeJob cfg input e.now f.store =
      .ok (⟨true, "applied", none, true⟩, updateShard input.shardId
        (fun shard => { shard with lastAckAt := some e.now, lastError := none }) f.store) := by
    simp only [acknowledgeBridgeJob, hsuffix, hrow, h.held, h.applied, h.verified,
      not_true_eq_false, if_false, if_true]
  refine ack_reply he hwork (updateShard_constraints input.shardId ?_ f.db)
  exact fun shard => rfl

/-! ## Every run -/

/-- **Lease exclusivity and stale tokens.** Along every run, when digests do not collide and no
token is drawn twice: a target has at most one leased job; a report changes only what it holds;
a spent token changes nothing; and an acknowledgement answered with applied, sent again, changes
nothing and is answered with applied while its job is there, its target is on its shard and its
capture has the same suffix. -/
theorem leaseTokens_run (cfg : Config) (hdigest : Function.Injective cfg.digest)
    (es : List Event) (hfresh : Fresh cfg es) :
    (∀ j ∈ ((fleet cfg).run Fleet.initial es).store.jobs,
      ∀ k ∈ ((fleet cfg).run Fleet.initial es).store.jobs, j.targetId = k.targetId →
        j.state = .leased → k.state = .leased → j = k)
    ∧ (∀ e, e.reports = true →
      OnlyHolders cfg es e ((fleet cfg).run Fleet.initial es).store
        ((fleet cfg).run Fleet.initial (es ++ [e])).store)
    ∧ (∀ e, e.reports = true →
      (∀ jobId workerId leaseToken, e.presents jobId workerId leaseToken →
        Spent cfg es leaseToken) →
      SameRows ((fleet cfg).run Fleet.initial es).store
        ((fleet cfg).run Fleet.initial (es ++ [e])).store)
    ∧ ∀ pre e post input e', es = pre ++ e :: post → e.call = .acknowledgeBridgeJob input →
      Answered cfg pre e → e'.call = .acknowledgeBridgeJob input →
      SameRows ((fleet cfg).run Fleet.initial es).store
          ((fleet cfg).run Fleet.initial (es ++ [e'])).store
        ∧ ((fleet cfg).Along (fun f _ => (f.store.job? input.jobId).isSome = true)
            ((fleet cfg).run Fleet.initial (pre ++ [e])) post →
          ((fleet cfg).run Fleet.initial es).store.shardOfJob input.jobId =
            some input.shardId →
          ((fleet cfg).run Fleet.initial es).store.suffixOfJob input.jobId =
            ((fleet cfg).run Fleet.initial (pre ++ [e])).store.suffixOfJob input.jobId →
          Answered cfg es e') := by
  refine ⟨(inv_run cfg es).exclusive, fun e hrep => reports_rows hdigest es hrep,
    fun e hrep hspent => spent_rows hdigest hfresh hrep hspent, ?_⟩
  intro pre e post input e' hes he hans he'
  have hes : es = (pre ++ [e]) ++ post := by rw [hes, List.append_assoc, List.singleton_append]
  obtain ⟨j, c, hset⟩ := hans.settled he
  refine ⟨spent_rows hdigest hfresh (by simp [Event.reports, he']) ?_, ?_⟩
  · intro jobId workerId leaseToken hp
    unfold Event.presents at hp
    rw [he'] at hp
    obtain ⟨-, -, rfl⟩ := hp
    rw [hes]
    exact hset.spent hdigest post
  · intro hthere hshard hsuffix
    have hrun : (fleet cfg).run Fleet.initial es =
        (fleet cfg).run ((fleet cfg).run Fleet.initial (pre ++ [e])) post := by
      rw [hes, EventSystem.run_append]
    have hend : (((fleet cfg).run Fleet.initial es).store.job? input.jobId).isSome = true := by
      unfold Store.shardOfJob at hshard
      cases hjob : ((fleet cfg).run Fleet.initial es).store.job? input.jobId with
      | none => simp [hjob] at hshard
      | some _ => rfl
    have hj : j ∈ ((fleet cfg).run Fleet.initial es).store.jobs := by
      rw [hrun] at hend ⊢
      rw [← hset.jobId] at hthere hend
      exact applied_run post hset.job hset.applied hthere hend
    obtain ⟨d, hd, hdid⟩ := capture_of_job _ hj
    have hcd : d.suffixHash = c.suffixHash := by
      have hu := store_unique ((fleet cfg).run Fleet.initial es)
      have hu' := store_unique ((fleet cfg).run Fleet.initial (pre ++ [e]))
      unfold Store.suffixOfJob at hsuffix
      rw [(job?_eq_some_iff hu).mpr ⟨hj, hset.jobId⟩,
        (job?_eq_some_iff hu').mpr ⟨hset.job, hset.jobId⟩, Option.bind_some, Option.bind_some,
        (capture?_eq_some_iff hu).mpr ⟨hd, hdid⟩,
        (capture?_eq_some_iff hu').mpr ⟨hset.capture, hset.captureId⟩] at hsuffix
      have hsame : d.exactSuffix = c.exactSuffix := Option.some.inj hsuffix
      rw [(inv_run cfg es).capture_hash d hd,
        (inv_run cfg (pre ++ [e])).capture_hash c hset.capture, hsame]
    have hset' : Settled cfg input ((fleet cfg).run Fleet.initial es).store j d :=
      { hset with
        job := hj, capture := hd, captureId := hdid, verified := hcd ▸ hset.verified }
    exact ⟨_, hset'.answered he' hshard, rfl, rfl⟩

/-- A delivery, and the move of its target to another shard. -/
def moved : List Event :=
  Sample.register 1 :: Sample.enqueue 2 "a=1" 1 1 "job1" ++
    [Sample.lease 3 "token1", Sample.ack 4 "job1" "token1" "a=1",
      ⟨5, 5, .upsertBridgeTarget { Sample.target with shardId := some "mcc-1111111111-002" }⟩]

theorem leaseTokens_run_delivery :
    SameRows ((fleet Config.sample).run Fleet.initial (moved.take 5)).store
        ((fleet Config.sample).run Fleet.initial
          (moved.take 5 ++ [Sample.ack 6 "job1" "token1" "a=1"])).store
      ∧ Answered Config.sample (moved.take 5) (Sample.ack 6 "job1" "token1" "a=1") := by
  refine (fun h : _ ∧ _ ∧ _ ∧ _ =>
    have hrepeat := (leaseTokens_run Config.sample Function.injective_id (moved.take 5)
      h.1).2.2.2 (moved.take 4) (Sample.ack 4 "job1" "token1" "a=1") [] _
      (Sample.ack 6 "job1" "token1" "a=1") rfl rfl
      ⟨⟨true, "applied", none, false⟩, h.2.1, rfl, rfl⟩ rfl
    ⟨hrepeat.1, hrepeat.2 trivial h.2.2.1 h.2.2.2⟩) ?_
  unfold Fresh
  decide +kernel

/-- **After a move to another shard a repeated acknowledgement is stale**, although the same
acknowledgement was answered with applied. -/
theorem moved_repeat_stale :
    ¬ ∀ (cfg : Config) (es pre post : List Event) (e e' : Event) (input : AckInput),
      Function.Injective cfg.digest → Fresh cfg es → es = pre ++ e :: post →
      e.call = .acknowledgeBridgeJob input → Answered cfg pre e →
      e'.call = .acknowledgeBridgeJob input → Answered cfg es e' := by
  intro h
  obtain ⟨hfresh, happlied, hstale⟩ : Fresh Config.sample moved ∧
      (fleet Config.sample).reply ((fleet Config.sample).run Fleet.initial (moved.take 4))
        (Sample.ack 4 "job1" "token1" "a=1") = .ok (.ack ⟨true, "applied", none, false⟩) ∧
      (fleet Config.sample).reply ((fleet Config.sample).run Fleet.initial moved)
        (Sample.ack 6 "job1" "token1" "a=1") =
          .ok (.ack ⟨false, "stale", some "Delivery job no longer exists", false⟩) := by
    unfold Fresh
    decide +kernel
  obtain ⟨res, hr, hok, -⟩ := h Config.sample moved (moved.take 4) (moved.drop 5)
    (Sample.ack 4 "job1" "token1" "a=1") (Sample.ack 6 "job1" "token1" "a=1") _
    Function.injective_id hfresh rfl rfl ⟨_, happlied, rfl, rfl⟩ rfl
  rw [hstale] at hr
  obtain rfl := Reply.ack.inj (Except.ok.inj hr)
  exact absurd hok (by simp)

end LinkSuffix
