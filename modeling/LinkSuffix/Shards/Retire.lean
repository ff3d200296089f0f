import LinkSuffix.Lib.RowLock
import LinkSuffix.Shards.Capacity
import LinkSuffix.Shards.Credential

/-!
# Retired shards

`deleteBridgeShard` turns the row of a shard into a tombstone. It holds the advisory lock of the
enrolments, and its first statement locks the row, as the first statement of `leaseBridgeJobs` and
the last of an acknowledgement and of a renewal do. Everything else commits between its statements.

* `Enrolling`, `Passing`: the transactions that hold the advisory lock, and the others with the row
  they lock. Requests are not authenticated here: one may have been long before it runs.
* `Quiet`: what the others do to credentials, to the shards of the targets and to leases.
* `Retirement`: the invariant. `Retires`: what a transaction that holds the lock commits.
* **`shard_stays_retired`**: a shard is retired empty, and stays so.
* **`renewed_under_retirement`**: a renewal through another shard revives a lease meanwhile.
-/

namespace LinkSuffix

open Lib

variable {cfg : Config} {s s' : Store} {shardId : String}

/-! ## The transactions -/

/-- The transactions that take the `fleet-enrollment-assignment` lock, and the row that the first
statement of a retirement locks. -/
inductive Enrolling (cfg : Config) : Option String → StoreProg Unit → Prop
  | upsert (input : BridgeTargetInput) :
      Enrolling cfg none (Prog.discard (upsertBridgeTarget cfg input))
  | register (shardId rawToken requestedManager : String) :
      Enrolling cfg none (Prog.discard (registerBridgeShard cfg shardId rawToken requestedManager))
  | resume (campaignRecordId : String) :
      Enrolling cfg none (setBridgeTargetEnabled campaignRecordId true)
  | retire (shardId confirmedShardId randomToken : String) (now dateNow : Nat) :
      Enrolling cfg (normalizeFleetShardId shardId).toOption (Prog.discard
        (deleteBridgeShard cfg shardId confirmedShardId randomToken now dateNow))

/-- The other transactions, and the row of `tah_script_shards` each locks. -/
inductive Passing (cfg : Config) : Option String → (Store → Store) → Prop
  | pause (campaignRecordId : String) :
      Passing cfg none (afterWork (setBridgeTargetEnabled campaignRecordId false).run)
  | remove (input : DeleteTargetInput) : Passing cfg none (afterWork (deleteBridgeTarget input))
  | enqueue (ticket : CaptureTicket) (nextval : Nat) (jobId : String) (now : Nat) :
      Passing cfg none (afterWork (enqueueCapture ticket nextval jobId now))
  | queueLatest (campaignRecordId jobId : String) (now : Nat) :
      Passing cfg none (afterWork (queueLatestBridgeCapture campaignRecordId jobId now))
  | lease (req : LeaseRequest) (now : Nat) :
      Passing cfg (some req.shardId) (afterWork (leaseBridgeJobs cfg req now))
  | acknowledge (input : AckInput) (now : Nat) :
      Passing cfg (some input.shardId) (afterWork (acknowledgeBridgeJob cfg input now))
  | renew (input : RenewInput) (now : Nat) :
      Passing cfg (some input.shardId) (afterWork (renewBridgeLeases cfg input now))

/-- No renewal extends a lease that the shard under retirement issued. -/
def OwnRenewals (cfg : Config) (shardId : String) (T : Store → Store) (s : Store) : Prop :=
  ∀ input now, T = afterWork (renewBridgeLeases cfg input now) →
    ∀ lease ∈ input.leases, ∀ j ∈ s.jobs, s.renewable cfg input lease j = true →
      j.leaseShardId ≠ some shardId

/-! ## What the others do -/

/-- Where the lease of a row comes from: it has none, it is an old row, it is granted by `issuer`,
or it extends the lease of a row that is renewed. -/
inductive LeaseFrom (issuer : Option String) (renewed : DeliveryJob → Prop)
    (rows : List DeliveryJob) (k : DeliveryJob) : Prop
  | unleased (h : k.state ≠ .leased)
  | kept (h : k ∈ rows)
  | granted {shardId : String} (h : issuer = some shardId) (hk : k.leaseShardId = some shardId)
  | extended {j : DeliveryJob} (hj : j ∈ rows) (hl : j.state = .leased) (hr : renewed j)
      (hk : k.leaseShardId = j.leaseShardId)

/-- The credentials are the same, no target comes to a shard, and leases come from `issuer` only. -/
structure Quiet (issuer : Option String) (renewed : DeliveryJob → Prop) (s s' : Store) : Prop where
  credentials : s'.credentials = s.credentials
  targets : ∀ t' ∈ s'.targets, ∃ t ∈ s.targets,
    t'.shardId = t.shardId ∧ t'.archivedAt = t.archivedAt
  leases : ∀ k ∈ s'.jobs, LeaseFrom issuer renewed s.jobs k

variable {issuer : Option String} {renewed : DeliveryJob → Prop}

theorem quiet_refl (s : Store) : Quiet issuer renewed s s :=
  ⟨rfl, fun t ht => ⟨t, ht, rfl, rfl⟩, fun _ hk => .kept hk⟩

theorem sameTargets (h : s'.targets = s.targets) :
    ∀ t' ∈ s'.targets, ∃ t ∈ s.targets, t'.shardId = t.shardId ∧ t'.archivedAt = t.archivedAt :=
  fun t' ht' => ⟨t', h ▸ ht', rfl, rfl⟩

/-- Rows that are rewritten without a lease. -/
theorem leaseFrom_updateWhere {p : DeliveryJob → Bool} {f : DeliveryJob → DeliveryJob}
    {rows : List DeliveryJob} (hf : ∀ j, p j = true → (f j).state ≠ .leased ∨ f j = j) :
    ∀ k ∈ updateWhere p f rows, LeaseFrom issuer renewed rows k := by
  intro k hk
  obtain ⟨j, hj, ⟨hp, rfl⟩ | ⟨-, rfl⟩⟩ := mem_updateWhere.mp hk
  · rcases hf j hp with hstate | hsame
    · exact .unleased hstate
    · rw [hsame]
      exact .kept hj
  · exact .kept hj

theorem leaseFrom_trans {rows middle : List DeliveryJob} {k : DeliveryJob}
    (h : LeaseFrom issuer renewed middle k)
    (hmiddle : ∀ j ∈ middle, LeaseFrom issuer renewed rows j) :
    LeaseFrom issuer renewed rows k := by
  cases h with
  | unleased h => exact .unleased h
  | kept h => exact hmiddle k h
  | granted h hk => exact .granted h hk
  | extended hj hl hr hk =>
    cases hmiddle _ hj with
    | unleased h => exact absurd hl h
    | kept h => exact .extended h hl hr hk
    | granted h hj => exact .granted h (hk.trans hj)
    | extended hi hli hri hj => exact .extended hi hli hri (hk.trans hj)

theorem supersede_unleased (j : DeliveryJob) : j.supersede.state ≠ .leased := by
  simp [DeliveryJob.supersede]

theorem revive_unleased (j : DeliveryJob) : j.revive.state ≠ .leased ∨ j.revive = j := by
  unfold DeliveryJob.revive
  split
  · exact Or.inl (by simp)
  · exact Or.inr rfl

theorem requeue_unleased (now : Nat) (j : DeliveryJob) :
    (j.requeue now).state ≠ .leased ∨ j.requeue now = j := by
  unfold DeliveryJob.requeue
  split
  · exact Or.inl (by simp)
  · exact Or.inr rfl

/-- A capture is queued: the other waiting jobs are superseded, its job is inserted or revived. -/
theorem queued_leases {onConflict : DeliveryJob → DeliveryJob}
    (hf : ∀ j, (onConflict j).state ≠ .leased ∨ onConflict j = j) (jobId targetId : String)
    (captureId now : Nat) (s : Store) :
    ∀ k ∈ (upsertJob onConflict jobId targetId captureId now
      (supersedeOthers targetId captureId s)).2.jobs, LeaseFrom issuer renewed s.jobs k := by
  have hothers : ∀ k ∈ (supersedeOthers targetId captureId s).jobs,
      LeaseFrom issuer renewed s.jobs k :=
    leaseFrom_updateWhere fun j _ => Or.inl (supersede_unleased j)
  intro k hk
  unfold upsertJob at hk
  split at hk
  · rcases List.mem_append.mp hk with hk | hk
    · exact hothers k hk
    · rw [List.mem_singleton.mp hk]
      exact .unleased (by simp [newJob])
  · exact leaseFrom_trans (leaseFrom_updateWhere (fun j _ => hf j) k hk) hothers

theorem lease_quiet {req : LeaseRequest} {now : Nat} {leases : List BridgeLease}
    (h : leaseBridgeJobs cfg req now s = .ok (leases, s')) :
    Quiet (some req.shardId) renewed s s' := by
  have hcredentials := leaseBridgeJobs_credentials h
  unfold leaseBridgeJobs at h
  split at h
  · exact absurd h (by simp)
  split at h
  · exact absurd h (by simp)
  split at h
  · exact absurd h (by simp)
  rename_i s1 hreap
  obtain ⟨jobs, born, rfl, hborn, hswept⟩ := sweep_ok hreap
  obtain ⟨-, rfl⟩ := Prod.mk.inj (Except.ok.inj h)
  rw [recordPoll_frame, leaseLoop_eq] at hcredentials ⊢
  refine ⟨hcredentials, sameTargets rfl, ?_⟩
  have hsweep : ∀ k ∈ jobs, LeaseFrom (some req.shardId) renewed s.jobs k := by
    intro k hk
    obtain ⟨j, hj, hjk⟩ := forall₂_mem_right hswept hk
    cases hjk with
    | keep =>
      rcases List.mem_append.mp hj with hj | hj
      · exact .kept hj
      · obtain ⟨-, -, -, -⟩ := hborn k hj
        exact .unleased (by simp [newJob])
    | stale => exact .unleased (supersede_unleased j)
    | expired =>
      refine .unleased ?_
      simp only [DeliveryJob.expire]
      split <;> simp
  have hloop : ∀ (cs : List Candidate) (rows : List DeliveryJob),
      (∀ k ∈ rows, LeaseFrom (some req.shardId) renewed s.jobs k) →
      ∀ k ∈ cs.foldl (fun jobs c => updateKey (·.jobId) c.job.jobId (c.outcome cfg req now) jobs)
        rows, LeaseFrom (some req.shardId) renewed s.jobs k := by
    intro cs
    induction cs with
    | nil => exact fun rows hrows => hrows
    | cons c cs ih =>
      intro rows hrows
      refine ih _ fun k hk => ?_
      obtain ⟨j, hj, ⟨-, rfl⟩ | ⟨-, rfl⟩⟩ := mem_updateWhere.mp hk
      · unfold Candidate.outcome
        split
        · exact .unleased (by simp [DeliveryJob.kill])
        · exact .granted rfl rfl
      · exact hrows k hj
  exact hloop _ _ hsweep

theorem ack_quiet {input : AckInput} {now : Nat} {res : AckResult}
    (h : acknowledgeBridgeJob cfg input now s = .ok (res, s')) : Quiet issuer renewed s s' := by
  have hcredentials := acknowledgeBridgeJob_credentials h
  have hacks := acknowledgeBridgeJob_ok h
  clear h
  cases hacks with
  | unchanged h =>
    rw [h] at hcredentials ⊢
    exact ⟨hcredentials, sameTargets rfl, fun k hk => .kept hk⟩
  | verified hrow hx h =>
    rw [h] at hcredentials ⊢
    refine ⟨hcredentials, fun t' ht' => ?_, leaseFrom_updateWhere fun j _ => Or.inl ?_⟩
    · obtain ⟨t, ht, ⟨-, rfl⟩ | ⟨-, rfl⟩⟩ := mem_updateWhere.mp ht'
      · exact ⟨t, ht, rfl, rfl⟩
      · exact ⟨t', ht, rfl, rfl⟩
    · simp [DeliveryJob.verify]
  | refused hrow hx h =>
    rw [h] at hcredentials ⊢
    refine ⟨hcredentials, sameTargets rfl, leaseFrom_updateWhere fun j _ => Or.inl ?_⟩
    simp only [DeliveryJob.refuse]
    split <;> simp

theorem renew_quiet {input : RenewInput} {now : Nat} {res : RenewResult}
    (h : renewBridgeLeases cfg input now s = .ok (res, s')) :
    Quiet issuer (fun j => ∃ lease ∈ input.leases, s.renewable cfg input lease j = true) s s' := by
  have hcredentials := renewBridgeLeases_credentials h
  unfold renewBridgeLeases at h
  simp only at h
  obtain ⟨-, rfl⟩ := Prod.mk.inj (Except.ok.inj h)
  rw [renewLoop_store] at hcredentials ⊢
  refine ⟨hcredentials, sameTargets rfl, fun k hk => ?_⟩
  obtain ⟨j, hj, ⟨hp, rfl⟩ | ⟨-, rfl⟩⟩ := mem_updateWhere.mp hk
  · obtain ⟨lease, hlease, hrenewable⟩ := List.any_eq_true.mp hp
    have hleased : j.state = .leased := by
      simp only [Store.renewable, Bool.and_eq_true, decide_eq_true_eq] at hrenewable
      exact hrenewable.1.2
    exact .extended hj hleased ⟨lease, List.mem_of_mem_take hlease, hrenewable⟩ rfl
  · exact .kept hj

theorem setEnabled_quiet {record : String} {enabled : Bool} {ids : List String}
    (h : setEnabled record enabled s = .ok (ids, s')) : Quiet issuer renewed s s' := by
  have hframe := setEnabled_frees h
  have hcredentials := setEnabled_credentials h
  unfold setEnabled at h
  simp only at h
  obtain ⟨-, rfl⟩ := Prod.mk.inj (Except.ok.inj h)
  refine ⟨hcredentials, fun t' ht' => ?_, fun k hk => .kept hk⟩
  obtain ⟨t, ht, hshard, -, harchived⟩ := hframe.targets t' ht'
  exact ⟨t, ht, hshard, harchived⟩

theorem supersedeOpen_quiet (targetId : String) (s : Store) :
    Quiet issuer renewed s (supersedeOpen targetId s) :=
  ⟨rfl, sameTargets rfl, leaseFrom_updateWhere fun j _ => Or.inl (supersede_unleased j)⟩

theorem saveBinding_quiet {manager : String} {n : Nat}
    (h : saveBinding shardId manager s = .ok (n, s')) : Quiet issuer renewed s s' := by
  rw [saveBinding_frame (managersOnly_refl s) h]
  exact ⟨rfl, sameTargets rfl, fun k hk => .kept hk⟩

/-- What a quiet step keeps. -/
def QuietKept (P : Store → Prop) : Prop :=
  ∀ (issuer : Option String) (renewed : DeliveryJob → Prop) (s s' : Store),
    Quiet issuer renewed s s' → P s → P s'

/-- Pausing and resuming keep what a quiet step keeps. -/
theorem setBridgeTargetEnabled_quiet {R : Store → Store → Prop} {P : Store → Prop}
    (hP : Prog.Stable R P) (hquiet : QuietKept P) (record : String) (enabled : Bool) :
    (setBridgeTargetEnabled record enabled).Keeps R P := by
  have hnone : ∀ s s', Quiet none (fun _ => False) s s' → P s → P s' := hquiet none _
  refine Prog.keeps_bind (checkResume_keeps hP record enabled fun _ _ s _ s' hs hsave =>
    hnone s s' (saveBinding_quiet hsave) hs) fun _ => ?_
  unfold writeEnabled
  refine Prog.keeps_bind (Prog.keeps_exec hP fun s _ s' hs h =>
    hnone s s' (setEnabled_quiet h) hs) fun updated => ?_
  split
  · refine Prog.keeps_ite (Prog.keeps_pure hP _) (Prog.keeps_update hP fun s hs => ?_)
    exact hnone s _ (supersedeOpen_quiet _ s) hs
  · exact Prog.keeps_throw _

theorem Quiet.trans {s'' : Store} (h : Quiet issuer renewed s s')
    (h' : Quiet issuer renewed s' s'') : Quiet issuer renewed s s'' where
  credentials := h'.credentials.trans h.credentials
  targets := by
    intro t'' ht''
    obtain ⟨t', ht', h1, h2⟩ := h'.targets t'' ht''
    obtain ⟨t, ht, k1, k2⟩ := h.targets t' ht'
    exact ⟨t, ht, h1.trans k1, h2.trans k2⟩
  leases := fun k hk => leaseFrom_trans (h'.leases k hk) h.leases

theorem pause_quiet {record : String} {u : Unit}
    (h : (setBridgeTargetEnabled record false).run s = .ok (u, s')) :
    Quiet issuer renewed s s' := by
  unfold setBridgeTargetEnabled writeEnabled at h
  obtain ⟨_, s1, h1, k1⟩ := Prog.run_bind_ok.mp h
  obtain ⟨ids, s2, h2, k2⟩ := Prog.run_bind_ok.mp k1
  obtain ⟨-, rfl⟩ := Prod.mk.inj (Except.ok.inj h1)
  have hset : Quiet issuer renewed s s2 := setEnabled_quiet (Prog.run_exec_ok.mp h2)
  split at k2
  · rw [if_neg (by simp), Prog.run_update] at k2
    obtain ⟨-, rfl⟩ := Prod.mk.inj (Except.ok.inj k2)
    exact hset.trans (supersedeOpen_quiet _ s2)
  · exact absurd k2 (by simp)

/-- **The frame of the other transactions.** -/
theorem passing_quiet {row : Option String} {T : Store → Store} (hT : Passing cfg row T)
    (s : Store) : Quiet row (fun j => ∃ input now, T = afterWork (renewBridgeLeases cfg input now) ∧
      ∃ lease ∈ input.leases, s.renewable cfg input lease j = true) s (T s) := by
  cases hT with
  | pause record =>
    unfold afterWork
    split
    · rename_i hrun
      exact pause_quiet hrun
    · exact quiet_refl s
  | remove input =>
    unfold afterWork
    split
    · rename_i hrun
      rcases deleteBridgeTarget_ok hrun with rfl | ⟨t, -, -, rfl⟩
      · exact quiet_refl _
      · refine ⟨rfl, fun t' ht' => ⟨t', (List.mem_filter.mp ht').1, rfl, rfl⟩, fun k hk => ?_⟩
        exact .kept (List.mem_filter.mp hk).1
    · exact quiet_refl s
  | enqueue ticket nextval jobId now =>
    unfold afterWork
    split
    · rename_i hrun
      refine ⟨enqueueCapture_credentials hrun, sameTargets (enqueueCapture_frame hrun).2, ?_⟩
      simp only [enqueueCapture, Except.ok.injEq, Prod.mk.injEq] at hrun
      rw [← hrun.2, saveCapture_frame]
      exact queued_leases revive_unleased _ _ _ _ _
    · exact quiet_refl s
  | queueLatest record jobId now =>
    unfold afterWork
    split
    · rename_i hrun
      refine ⟨queueLatest_credentials hrun, sameTargets (queueLatest_frame hrun).2, ?_⟩
      unfold queueLatestBridgeCapture at hrun
      split at hrun
      · exact absurd hrun (by simp)
      split at hrun
      · obtain ⟨-, rfl⟩ := Prod.mk.inj (Except.ok.inj hrun)
        exact fun k hk => .kept hk
      · simp only [Except.ok.injEq, Prod.mk.injEq] at hrun
        rw [← hrun.2]
        exact queued_leases (requeue_unleased now) _ _ _ _ _
    · exact quiet_refl s
  | lease req now =>
    unfold afterWork
    split
    · rename_i hrun
      exact lease_quiet hrun
    · exact quiet_refl s
  | acknowledge input now =>
    unfold afterWork
    split
    · rename_i hrun
      exact ack_quiet hrun
    · exact quiet_refl s
  | renew input now =>
    have hquiet : Quiet (some input.shardId)
        (fun j => ∃ lease ∈ input.leases, s.renewable cfg input lease j = true) s
        (afterWork (renewBridgeLeases cfg input now) s) := by
      unfold afterWork
      split
      · rename_i hrun
        exact renew_quiet hrun
      · exact quiet_refl s
    refine ⟨hquiet.credentials, hquiet.targets, fun k hk => ?_⟩
    cases hquiet.leases k hk with
    | unleased h => exact .unleased h
    | kept h => exact .kept h
    | granted h hk => exact .granted h hk
    | extended hj hl hr hk => exact .extended hj hl ⟨input, now, rfl, hr⟩ hk

/-! ## The invariant -/

/-- A tombstone is disabled, no live target is on its shard, and every lease has an issuer. -/
structure Retirement (s : Store) : Prop where
  disabled : ∀ id c, s.credential? id = some c → c.deletedAt ≠ none → c.enabled = false
  empty : ∀ id, s.shardDeleted id = true → ∀ t ∈ s.targets, t.shardId = id → t.archivedAt ≠ none
  issued : ∀ j ∈ s.jobs, j.state = .leased → j.leaseShardId ≠ none

theorem shardDeleted_congr (h : s'.credentials = s.credentials) (id : String) :
    s'.shardDeleted id = s.shardDeleted id := by
  rw [shardDeleted_eq, shardDeleted_eq, credential?_congr h]

theorem Retirement.quiet (h : Retirement s) (hq : Quiet issuer renewed s s') : Retirement s' where
  disabled := by
    intro id c hc
    exact h.disabled id c ((credential?_congr hq.credentials id).symm.trans hc)
  empty := by
    intro id hid t' ht' hshard
    obtain ⟨t, ht, hsame, harchived⟩ := hq.targets t' ht'
    rw [harchived]
    rw [shardDeleted_congr hq.credentials] at hid
    exact h.empty id hid t ht (hsame.symm.trans hshard)
  issued := by
    intro k hk hleased
    cases hq.leases k hk with
    | unleased h => exact absurd hleased h
    | kept hk => exact h.issued k hk hleased
    | granted _ hk => simp [hk]
    | extended hj hl _ hk =>
      rw [hk]
      exact h.issued _ hj hl

/-- No lease that the shard issued is unexpired from `now` on. -/
def Lapsed (shardId : String) (now : Nat) (s : Store) : Prop :=
  ∀ later, now ≤ later → s.shardLeased shardId later = false

theorem lapsed_iff (h : Retirement s) {now : Nat} : s.shardLeased shardId now = false ↔
    ∀ j ∈ s.jobs, j.state = .leased → j.leaseShardId = some shardId →
      j.leasedUntil.all (now ≤ ·) = false := by
  unfold Store.shardLeased
  rw [List.any_eq_false]
  constructor
  · intro hnone j hj hleased hissuer
    have hrow := hnone j hj
    simp only [hleased, hissuer, decide_true, Bool.true_and, Bool.true_or, Bool.and_true] at hrow
    simpa using hrow
  · intro hall j hj
    simp only [Bool.and_eq_true, decide_eq_true_eq, Bool.or_eq_true]
    rintro ⟨⟨hleased, huntil⟩, hissuer | ⟨hunknown, -⟩⟩
    · exact absurd huntil (by simp [hall j hj hleased hissuer])
    · exact h.issued j hj hleased hunknown

theorem lapsed_of_check (h : Retirement s) {now : Nat} (hnow : s.shardLeased shardId now = false) :
    Lapsed shardId now s := by
  intro later hlater
  rw [lapsed_iff h] at hnow ⊢
  intro j hj hleased hissuer
  have hexpired := hnow j hj hleased hissuer
  cases huntil : j.leasedUntil with
  | none => simp [huntil] at hexpired
  | some expiry =>
    simp only [huntil, Option.all_some, decide_eq_false_iff_not] at hexpired ⊢
    omega

/-- Under the locked row, the others grant no lease of the shard. -/
theorem Lapsed.passing (h : Retirement s) {now : Nat} (hs : Lapsed shardId now s)
    {row : Option String} {T : Store → Store} (hT : Passing cfg row T) (hrow : row ≠ some shardId)
    (hown : OwnRenewals cfg shardId T s) : Lapsed shardId now (T s) := by
  have hquiet := passing_quiet hT s
  intro later hlater
  have hbefore := (lapsed_iff h).mp (hs later hlater)
  refine (lapsed_iff (h.quiet hquiet)).mpr fun k hk hleased hissuer => ?_
  cases hquiet.leases k hk with
  | unleased hstate => exact absurd hleased hstate
  | kept hold => exact hbefore k hold hleased hissuer
  | granted hissued hk =>
    rw [hk] at hissuer
    exact absurd (hissued.trans hissuer) hrow
  | extended hj hl hr hk =>
    obtain ⟨input, time, hrenew, lease, hlease, hrenewable⟩ := hr
    exact absurd (hk.symm.trans hissuer) (hown input time hrenew lease hlease _ hj hrenewable)

/-! ## What a holder commits -/

variable {under : String → (Store → Store) → Store → Prop} {row : Option String}

/-- What a quiet step keeps is stable for a holder. -/
theorem stable_quiet {P : Store → Prop} (hP : QuietKept P) :
    Prog.Stable (RowSerial.Rely (Passing cfg) under row) P := by
  rintro s _ ⟨r, T, hT, -, rfl⟩ hs
  exact hP _ _ s (T s) (passing_quiet hT s) hs

/-- The invariant, and the credentials a transaction found. -/
def Since (credentials : List Credential) (s : Store) : Prop :=
  Retirement s ∧ s.credentials = credentials

theorem since_quiet (credentials : List Credential) : QuietKept (Since credentials) :=
  fun _ _ _ _ hq hs => ⟨hs.1.quiet hq, hq.credentials.trans hs.2⟩

/-- What a transaction that found `s` commits: tombstones stay, and where leases are renewed by
their own shards a new tombstone has no unexpired lease. -/
structure Retires (guarded : Prop) (s w : Store) : Prop where
  stays : ∀ id c, s.credential? id = some c → c.deletedAt ≠ none → w.credential? id = some c
  settled : guarded → ∀ id c now, w.credential? id = some c → c.deletedAt = some now →
    s.shardDeleted id = false → Lapsed id now w

theorem shardDeleted_of_credential {id : String} {c : Credential} (hc : s.credential? id = some c)
    (hdeleted : c.deletedAt ≠ none) : s.shardDeleted id = true := by
  rw [shardDeleted_eq, hc]
  exact Option.isSome_iff_ne_none.mpr hdeleted

theorem credential_of_shardDeleted {id : String} (h : s.shardDeleted id = true) :
    ∃ c, s.credential? id = some c ∧ c.deletedAt ≠ none := by
  rw [shardDeleted_eq] at h
  cases hc : s.credential? id with
  | none =>
    rw [hc] at h
    exact absurd h (by simp)
  | some c =>
    rw [hc, Option.any_some] at h
    exact ⟨c, rfl, Option.isSome_iff_ne_none.mp h⟩

theorem Since.retires {guarded : Prop} (h : Since s.credentials s') : Retires guarded s s' where
  stays := fun id _ hc _ => (credential?_congr h.2 id).trans hc
  settled := by
    intro _ id c now hc hdeleted hlive
    have htomb : s'.shardDeleted id = true :=
      shardDeleted_of_credential hc (by simp [hdeleted])
    rw [shardDeleted_congr h.2, hlive] at htomb
    exact absurd htomb (by simp)

/-- The binding of a tombstone is refused, whatever the others do. -/
theorem bindFleetShardManager_refuses {R : Store → Store → Prop} {m : String}
    (hR : Prog.Stable R fun s => s.shardDeleted shardId = true)
    (hs : s.shardDeleted shardId = true) :
    (bindFleetShardManager shardId m).wp R (fun _ _ => False) s := by
  have hassert : (assertShardNotDeleted shardId).wp R (fun _ _ => False) s := by
    refine Prog.wp_bind (Prog.wp_mono (fun deleted w hdeleted => ?_)
      (Prog.wp_exec (Q := fun deleted _ => deleted = true) hR (fun _ _ _ _ h => h) hs
        fun s a s' hs hq => ?_))
    · obtain rfl : deleted = true := hdeleted
      exact Prog.wp_throw
    · obtain ⟨rfl, -⟩ := Prod.mk.inj (Except.ok.inj hq)
      exact hs
  exact Prog.wp_bind (Prog.wp_mono (fun _ _ h => h.elim) hassert)

theorem discard_wp {α : Type} {R : Store → Store → Prop} {P : Store → Prop} (hP : Prog.Stable R P)
    {p : StoreProg α} (h : p.wp R (fun _ w => P w) s) :
    (Prog.discard p).wp R (fun _ w => P w) s :=
  Prog.wp_bind (Prog.wp_mono (fun _ _ hw => Prog.wp_pure hP hw fun _ h => h) h)

theorem stable_deleted (id : String) (deleted : Bool) :
    Prog.Stable (RowSerial.Rely (Passing cfg) under row) fun s => s.shardDeleted id = deleted :=
  stable_quiet fun _ _ _ _ hq hs => (shardDeleted_congr hq.credentials id).trans hs

/-! ## Enrolments -/

theorem bindFleetShardManager_quiet {R : Store → Store → Prop} {P : Store → Prop}
    (hP : Prog.Stable R P) (hquiet : QuietKept P) (shardId m : String) :
    (bindFleetShardManager shardId m).Keeps R P :=
  bindFleetShardManager_keeps hP shardId m fun _ s _ s' hs hsave =>
    hquiet none (fun _ => False) s s' (saveBinding_quiet hsave) hs

/-- An enrolment is given a shard that is not retired. -/
theorem assignShard_live (e : Enrolment) (hs : Retirement s) :
    (assignShard e).wp (RowSerial.Rely (Passing cfg) under row)
      (fun assigned w => Since s.credentials w ∧ w.shardDeleted assigned = false) s := by
  have hquiet := since_quiet s.credentials
  have hP : Prog.Stable (RowSerial.Rely (Passing cfg) under row) (Since s.credentials) :=
    stable_quiet hquiet
  have hpreferred : (bindPreferred e).Keeps (RowSerial.Rely (Passing cfg) under row)
      (Since s.credentials) := by
    refine Prog.keeps_bind (Prog.keeps_query hP _) fun retired =>
      Prog.keeps_ite ?_ (Prog.keeps_pure hP _)
    exact Prog.keeps_bind (bindFleetShardManager_quiet hP hquiet _ _) fun _ => Prog.keeps_pure hP _
  refine Prog.wp_bind (Prog.wp_mono (fun retired s1 hs1 => ?_) (hpreferred s ⟨hs, rfl⟩))
  refine Prog.wp_bind (Prog.wp_mono (fun occupied s2 hs2 => ?_) (checkOccupants_keeps hP e s1 hs1))
  refine Prog.wp_bind (Prog.wp_mono (fun assigned s3 hs3 => ?_)
    (chooseShard_keeps hP e occupied retired s2 hs2))
  cases hlive : s3.shardDeleted assigned with
  | true =>
    exact Prog.wp_bind (Prog.wp_mono (fun _ _ h => False.elim h)
      (bindFleetShardManager_refuses (stable_deleted assigned true) hlive))
  | false =>
    refine Prog.wp_bind (Prog.wp_mono (fun _ s4 hs4 => ?_)
      (bindFleetShardManager_quiet hP hquiet assigned _ s3 hs3))
    have hdeleted : s4.shardDeleted assigned = false := by
      rw [shardDeleted_congr (hs4.2.trans hs3.2.symm)]
      exact hlive
    refine Prog.wp_pure (P := fun w => Since s.credentials w ∧ w.shardDeleted assigned = false) ?_
      ⟨hs4, hdeleted⟩ fun _ h => h
    exact fun v w hvw hv => ⟨hP v w hvw hv.1, stable_deleted assigned false v w hvw hv.2⟩

/-- Targets written for a shard that is not retired. -/
theorem Retirement.write (h : Retirement s) (hlive : s.shardDeleted shardId = false)
    {rows : List CampaignTarget} (hrows : ∀ t ∈ rows, t ∈ s.targets ∨ t.shardId = shardId) :
    Retirement { s with targets := rows } where
  disabled := h.disabled
  empty := by
    intro id hid t ht hshard
    have hdeleted : s.shardDeleted id = true := hid
    rcases hrows t ht with hold | hnew
    · exact h.empty id hdeleted t hold hshard
    · rw [← hshard, hnew, hlive] at hdeleted
      exact absurd hdeleted (by simp)
  issued := h.issued

theorem saveTarget_since (e : Enrolment)
    (hs : Since s.credentials s' ∧ s'.shardDeleted shardId = false) :
    (saveTarget cfg e shardId).wp (RowSerial.Rely (Passing cfg) under row)
      (fun _ w => Since s.credentials w) s' := by
  have hP : Prog.Stable (RowSerial.Rely (Passing cfg) under row) (Since s.credentials) :=
    stable_quiet (since_quiet s.credentials)
  have hlive : Prog.Stable (RowSerial.Rely (Passing cfg) under row)
      fun w => Since s.credentials w ∧ w.shardDeleted shardId = false :=
    fun v w hvw hv => ⟨hP v w hvw hv.1, stable_deleted shardId false v w hvw hv.2⟩
  unfold saveTarget
  refine Prog.wp_bind (Prog.wp_mono (fun owner s1 hs1 => ?_) (Prog.wp_query hlive hs))
  refine Prog.wp_bind (Prog.wp_mono (fun record s2 hs2 => ?_) (Prog.wp_query hlive hs1))
  refine Prog.wp_bind (Prog.wp_mono (fun _ s3 hs3 => ?_) (Prog.wp_require hlive hs2))
  refine Prog.wp_bind (Prog.wp_mono (fun _ s4 hs4 => ?_) (Prog.wp_require hlive hs3.2))
  split
  · refine Prog.wp_exec hlive (fun _ => hP) hs4.2 fun v _ w hv h => ?_
    unfold updateTarget at h
    split at h
    · exact absurd h (by simp)
    · obtain ⟨-, rfl⟩ := Prod.mk.inj (Except.ok.inj h)
      refine ⟨hv.1.1.write hv.2 fun t ht => ?_, hv.1.2⟩
      obtain ⟨t0, ht0, ⟨-, rfl⟩ | ⟨-, rfl⟩⟩ := mem_updateWhere.mp ht
      · exact Or.inr rfl
      · exact Or.inl ht0
  · refine Prog.wp_update hlive (fun _ => hP) hs4.2 fun v hv => ?_
    refine ⟨hv.1.1.write hv.2 fun t ht => ?_, hv.1.2⟩
    rcases List.mem_append.mp ht with ht | ht
    · exact Or.inl ht
    · exact Or.inr (by rw [List.mem_singleton.mp ht]; rfl)

/-- **An enrolment writes its target on a shard that is not retired.** -/
theorem upsertBridgeTarget_live (input : BridgeTargetInput) (hs : Retirement s) :
    (upsertBridgeTarget cfg input).wp (RowSerial.Rely (Passing cfg) under row)
      (fun a w => Since s.credentials w ∧ w.shardDeleted a.shardId = false) s := by
  have hP : Prog.Stable (RowSerial.Rely (Passing cfg) under row) (Since s.credentials) :=
    stable_quiet (since_quiet s.credentials)
  refine Prog.wp_bind (Prog.wp_mono (fun e s1 hs1 => ?_)
    (Prog.wp_lift hP (show Since s.credentials s from ⟨hs, rfl⟩)))
  have hassign : (assignShard e).wp (RowSerial.Rely (Passing cfg) under row)
      (fun assigned w => Since s1.credentials w ∧ w.shardDeleted assigned = false) s1 :=
    assignShard_live e hs1.2.1
  rw [hs1.2.2] at hassign
  refine Prog.wp_bind (Prog.wp_mono (fun assigned s2 hs2 => ?_) hassign)
  refine Prog.wp_bind (Prog.wp_mono (fun _ s3 hs3 => ?_) (saveTarget_since e hs2))
  have hlive : s3.shardDeleted assigned = false := by
    rw [shardDeleted_congr (hs3.2.trans hs2.1.2.symm)]
    exact hs2.2
  refine Prog.wp_pure (P := fun w => Since s.credentials w ∧ w.shardDeleted assigned = false) ?_
    ⟨hs3, hlive⟩ fun _ h => h
  exact fun v w hvw hv => ⟨hP v w hvw hv.1, stable_deleted assigned false v w hvw hv.2⟩

/-! ## Registrations -/

/-- What a registration of a shard leaves: a credential of its own that is no tombstone. -/
def Registered (id : String) (s w : Store) : Prop :=
  Retirement w ∧ ∃ c, c.deletedAt = none ∧
    ∀ other, w.credential? other = if other = id then some c else s.credential? other

theorem registered_quiet (id : String) (s : Store) : QuietKept (Registered id s) := by
  rintro issuer renewed v w hq ⟨hv, c, hc, hcredentials⟩
  refine ⟨hv.quiet hq, c, hc, fun other => ?_⟩
  rw [credential?_congr hq.credentials]
  exact hcredentials other

theorem Registered.retires {id : String} {guarded : Prop} (hlive : s.shardDeleted id = false)
    (h : Registered id s s') : Retires guarded s s' := by
  obtain ⟨-, c, hc, hcredentials⟩ := h
  refine ⟨fun other d hd hdeleted => ?_, fun _ other d now hd hdeleted hother => ?_⟩
  · have hne : other ≠ id := by
      rintro rfl
      rw [shardDeleted_of_credential hd hdeleted] at hlive
      exact absurd hlive (by simp)
    rw [hcredentials, if_neg hne]
    exact hd
  · rw [hcredentials] at hd
    split at hd
    · obtain rfl := Option.some.inj hd
      exact absurd (hc.symm.trans hdeleted) (by simp)
    · rw [shardDeleted_of_credential hd (by simp [hdeleted])] at hother
      exact absurd hother (by simp)

theorem saveShard_registered {id tokenHash : String} (hs : Since s.credentials s')
    (hlive : s.shardDeleted id = false) : Registered id s (saveShard id tokenHash s') := by
  have hframe : saveShard id tokenHash s' =
      { s' with shards := (saveShard id tokenHash s').shards } := by
    unfold saveShard
    split <;> rfl
  have hcredentials : ∀ other, (saveShard id tokenHash s').credential? other =
      if other = id then some (Credential.register id tokenHash (s.credential? id))
      else s.credential? other := by
    intro other
    rw [credential?_saveShard, credential?_congr hs.2, credential?_congr hs.2]
  have hregistered : (Credential.register id tokenHash (s.credential? id)).deletedAt = none ∧
      (Credential.register id tokenHash (s.credential? id)).enabled = true := by
    cases hc : s.credential? id with
    | none => exact ⟨rfl, rfl⟩
    | some c =>
      rw [shardDeleted_eq, hc] at hlive
      exact ⟨by simpa [Credential.register] using hlive, rfl⟩
  have hdeleted : ∀ other, (saveShard id tokenHash s').shardDeleted other = true →
      other ≠ id ∧ s'.shardDeleted other = true := by
    intro other hother
    rw [shardDeleted_eq, hcredentials] at hother
    split at hother
    · simp [hregistered.1] at hother
    · rename_i hne
      refine ⟨hne, ?_⟩
      rw [shardDeleted_eq, credential?_congr hs.2]
      exact hother
  refine ⟨⟨fun other c hc hdel => ?_, fun other hother t ht => ?_, ?_⟩,
    _, hregistered.1, hcredentials⟩
  · rw [hcredentials] at hc
    split at hc
    · obtain rfl := Option.some.inj hc
      exact absurd hregistered.1 hdel
    · exact hs.1.disabled other c ((credential?_congr hs.2 other).trans hc) hdel
  · rw [hframe] at ht
    exact hs.1.empty other (hdeleted other hother).2 t ht
  · rw [hframe]
    exact hs.1.issued

/-- **A registration finds its shard not retired.** -/
theorem registerBridgeShard_live {shardId rawToken m id : String}
    (hid : normalizeFleetShardId shardId = .ok id) (hs : Retirement s) :
    (registerBridgeShard cfg shardId rawToken m).wp (RowSerial.Rely (Passing cfg) under row)
      (fun _ w => s.shardDeleted id = false ∧ Registered id s w) s := by
  have hquiet := since_quiet s.credentials
  have hP : Prog.Stable (RowSerial.Rely (Passing cfg) under row) (Since s.credentials) :=
    stable_quiet hquiet
  have hR : Prog.Stable (RowSerial.Rely (Passing cfg) under row) (Registered id s) :=
    stable_quiet (registered_quiet id s)
  refine Prog.wp_bind (Prog.wp_mono (fun found s1 hs1 => ?_)
    (Prog.wp_lift hP (show Since s.credentials s from ⟨hs, rfl⟩)))
  obtain rfl : id = found := Except.ok.inj (hid.symm.trans hs1.1)
  refine Prog.wp_bind (Prog.wp_mono (fun _ s2 hs2 => ?_) (Prog.wp_require hP hs1.2))
  refine Prog.wp_bind (Prog.wp_mono (fun manager s3 hs3 => ?_) (Prog.wp_lift hP hs2.2))
  cases hlive : s3.shardDeleted id with
  | true =>
    exact Prog.wp_bind (Prog.wp_mono (fun _ _ h => False.elim h)
      (bindFleetShardManager_refuses (stable_deleted id true) hlive))
  | false =>
    have hlive : s.shardDeleted id = false := by
      rw [← shardDeleted_congr hs3.2.2]
      exact hlive
    refine Prog.wp_bind (Prog.wp_mono (fun bound s4 hs4 => ?_)
      (bindFleetShardManager_quiet hP hquiet id manager s3 hs3.2))
    refine Prog.wp_bind (Prog.wp_mono (fun _ s5 hs5 => ?_)
      (Prog.wp_update hP (fun _ => hR) hs4 fun w hw => saveShard_registered hw hlive))
    exact Prog.wp_pure hR hs5 fun _ h => ⟨hlive, h⟩

/-! ## Retirements -/

/-- No live target is on the shard. -/
def Vacated (id : String) (s : Store) : Prop :=
  ∀ t ∈ s.targets, t.shardId = id → t.archivedAt ≠ none

theorem vacated_quiet (id : String) : QuietKept (Vacated id) := by
  intro issuer renewed v w hq hv t' ht' hshard
  obtain ⟨t, ht, hsame, harchived⟩ := hq.targets t' ht'
  rw [harchived]
  exact hv t ht (hsame.symm.trans hshard)

/-- What a retirement of a shard has checked before it writes the tombstone. -/
structure Checked (guarded : Prop) (id : String) (now : Nat) (s w : Store) : Prop where
  since : Since s.credentials w
  vacated : Vacated id w
  settled : guarded → Lapsed id now w

/-- What a retirement leaves: a tombstone, no live target, no unexpired lease. -/
structure Retired (guarded : Prop) (id : String) (now : Nat) (s w : Store) : Prop where
  retirement : Retirement w
  tombstone : ∃ c, c.deletedAt = some now ∧
    ∀ other, w.credential? other = if other = id then some c else s.credential? other
  settled : guarded → Lapsed id now w

theorem stable_lapsed {guarded : Prop} (hunder : guarded → ∀ id T s, under id T s →
    OwnRenewals cfg id T s) {id : String} {now : Nat} {v w : Store}
    (hvw : RowSerial.Rely (Passing cfg) under (some id) v w) (hv : Retirement v)
    (hs : guarded → Lapsed id now v) : guarded → Lapsed id now w := by
  obtain ⟨r, T, hT, hrow, rfl⟩ := hvw
  obtain ⟨hother, hcommits⟩ := hrow id rfl
  exact fun hg => Lapsed.passing hv (hs hg) hT hother (hunder hg id T v hcommits)

theorem stable_checked {guarded : Prop} (hunder : guarded → ∀ id T s, under id T s →
    OwnRenewals cfg id T s) (id : String) (now : Nat) (s : Store) :
    Prog.Stable (RowSerial.Rely (Passing cfg) under (some id)) (Checked guarded id now s) := by
  intro v w hvw hv
  refine ⟨stable_quiet (since_quiet s.credentials) v w hvw hv.since,
    stable_quiet (vacated_quiet id) v w hvw hv.vacated, ?_⟩
  exact stable_lapsed hunder hvw hv.since.1 hv.settled

theorem stable_retired {guarded : Prop} (hunder : guarded → ∀ id T s, under id T s →
    OwnRenewals cfg id T s) (id : String) (now : Nat) (s : Store) :
    Prog.Stable (RowSerial.Rely (Passing cfg) under (some id)) (Retired guarded id now s) := by
  intro v w hvw hv
  have hsettled := stable_lapsed hunder hvw hv.retirement hv.settled
  obtain ⟨r, T, hT, -, rfl⟩ := hvw
  have hquiet := passing_quiet hT v
  obtain ⟨c, hc, hcredentials⟩ := hv.tombstone
  refine ⟨hv.retirement.quiet hquiet, ⟨c, hc, fun other => ?_⟩, hsettled⟩
  rw [credential?_congr hquiet.credentials]
  exact hcredentials other

theorem Retired.retires {guarded : Prop} {id : String} {now : Nat}
    (hlive : s.shardDeleted id = false) (h : Retired guarded id now s s') :
    Retires guarded s s' := by
  obtain ⟨c, hc, hcredentials⟩ := h.tombstone
  refine ⟨fun other d hd hdeleted => ?_, fun hg other d time hd hdeleted hother => ?_⟩
  · have hne : other ≠ id := by
      rintro rfl
      rw [shardDeleted_of_credential hd hdeleted] at hlive
      exact absurd hlive (by simp)
    rw [hcredentials, if_neg hne]
    exact hd
  · rw [hcredentials] at hd
    split at hd
    · rename_i hsame
      obtain rfl := Option.some.inj hd
      obtain rfl := Option.some.inj (hc.symm.trans hdeleted)
      rw [hsame]
      exact h.settled hg
    · rw [shardDeleted_of_credential hd (by simp [hdeleted])] at hother
      exact absurd hother (by simp)

/-- The tombstone is written. -/
theorem Checked.retire {guarded : Prop} {id token : String} {now : Nat} {shard : ScriptShard}
    (h : Checked guarded id now s s') (hshard : s.credential? id = some shard.credential) :
    Retired guarded id now s (updateShard id (fun shard => { shard with
      enabled := false, deletedAt := some now, tokenHash := cfg.digest token }) s') := by
  have hcredentials : ∀ other, (updateShard id (fun shard => { shard with
      enabled := false, deletedAt := some now, tokenHash := cfg.digest token }) s').credential?
        other = if other = id then some (Credential.retire (cfg.digest token) now shard.credential)
      else s.credential? other := by
    intro other
    refine (credential?_updateShard ?_ id other s').trans ?_
    · exact fun _ => rfl
    · by_cases hsame : other = id
      · subst hsame
        rw [← credential?_congr h.since.2, credential?_eq] at hshard
        obtain ⟨row, hrow, hrow'⟩ := Option.map_eq_some_iff.mp hshard
        rw [hrow, Option.map_some, if_pos rfl, if_pos rfl, ← hrow']
        rfl
      · rw [if_neg hsame, ← credential?_congr h.since.2, credential?_eq]
        simp only [if_neg hsame]
  refine ⟨⟨fun other c hc hdeleted => ?_, fun other hother t ht hon => ?_, h.since.1.issued⟩,
    ⟨_, rfl, hcredentials⟩, h.settled⟩
  · rw [hcredentials] at hc
    split at hc
    · obtain rfl := Option.some.inj hc
      rfl
    · exact h.since.1.disabled other c ((credential?_congr h.since.2 other).trans hc) hdeleted
  · by_cases hsame : other = id
    · exact h.vacated t ht (hon.trans hsame)
    · rw [shardDeleted_eq, hcredentials, if_neg hsame, ← credential?_congr h.since.2,
        ← shardDeleted_eq] at hother
      exact h.since.1.empty other hother t ht hon

/-- What a retirement commits: nothing, if the shard was retired before, or its tombstone. -/
def RetireOutcome (guarded : Prop) (id : String) (now : Nat) (s w : Store) : Prop :=
  Since s.credentials w ∨ (s.shardDeleted id = false ∧ Retired guarded id now s w)

theorem stable_outcome {guarded : Prop} (hunder : guarded → ∀ id T s, under id T s →
    OwnRenewals cfg id T s) (id : String) (now : Nat) (s : Store) :
    Prog.Stable (RowSerial.Rely (Passing cfg) under (some id))
      (RetireOutcome guarded id now s) := by
  rintro v w hvw (hv | ⟨hlive, hv⟩)
  · exact Or.inl (stable_quiet (since_quiet s.credentials) v w hvw hv)
  · exact Or.inr ⟨hlive, stable_retired hunder id now s v w hvw hv⟩

/-- **A retirement finds its shard empty and its leases settled.** -/
theorem deleteBridgeShard_retires {guarded : Prop} (hunder : guarded → ∀ id T s, under id T s →
    OwnRenewals cfg id T s) {confirmed token id : String} {now dateNow : Nat}
    (hid : normalizeFleetShardId shardId = .ok id) (hs : Retirement s) :
    (deleteBridgeShard cfg shardId confirmed token now dateNow).wp
      (RowSerial.Rely (Passing cfg) under (some id))
      (fun _ w => RetireOutcome guarded id now s w) s := by
  have hP : Prog.Stable (RowSerial.Rely (Passing cfg) under (some id)) (Since s.credentials) :=
    stable_quiet (since_quiet s.credentials)
  refine Prog.wp_bind (Prog.wp_mono (fun found s1 hs1 => ?_)
    (Prog.wp_lift hP (show Since s.credentials s from ⟨hs, rfl⟩)))
  obtain rfl : id = found := Except.ok.inj (hid.symm.trans hs1.1)
  refine Prog.wp_bind (Prog.wp_mono (fun _ s2 hs2 => ?_) (Prog.wp_require hP hs1.2))
  have hfound : ∀ found : Option ScriptShard,
      Prog.Stable (RowSerial.Rely (Passing cfg) under (some id)) fun w =>
      Since s.credentials w ∧ found.map ScriptShard.credential = s.credential? id :=
    fun found v w hvw hv => ⟨hP v w hvw hv.1, hv.2⟩
  refine Prog.wp_bind (Prog.wp_mono (fun found s3 hs3 => ?_)
    (Prog.wp_exec hP hfound hs2.2 fun v found w hv hq => ?_))
  swap
  · obtain ⟨rfl, rfl⟩ := Prod.mk.inj (Except.ok.inj hq)
    exact ⟨hv, by rw [← credential?_eq, credential?_congr hv.2]⟩
  cases found with
  | none => exact Prog.wp_throw
  | some shard =>
    have hshard : s.credential? id = some shard.credential := hs3.2.symm
    dsimp only
    by_cases hdeleted : shard.deletedAt.isSome = true
    · rw [if_pos hdeleted]
      exact Prog.wp_pure hP hs3.1 fun w hw => Or.inl hw
    · have hlive : s.shardDeleted id = false := by
        rw [shardDeleted_eq, hshard]
        simpa [ScriptShard.credential] using hdeleted
      rw [if_neg hdeleted]
      have hassigned : ∀ count : Nat, Prog.Stable (RowSerial.Rely (Passing cfg) under (some id))
          fun w => Since s.credentials w ∧ (count = 0 → Vacated id w) :=
        fun count v w hvw hv =>
          ⟨hP v w hvw hv.1, fun hc => stable_quiet (vacated_quiet id) v w hvw (hv.2 hc)⟩
      refine Prog.wp_bind (Prog.wp_mono (fun count s4 hs4 => ?_)
        (Prog.wp_exec hP hassigned hs3.1 fun v count w hv hq => ?_))
      swap
      · obtain ⟨rfl, rfl⟩ := Prod.mk.inj (Except.ok.inj hq)
        refine ⟨hv, fun hc t ht hon harchived => ?_⟩
        have hnil := List.eq_nil_of_length_eq_zero hc
        exact absurd (decide_eq_true ⟨hon, harchived⟩) (List.filter_eq_nil_iff.mp hnil t ht)
      refine Prog.wp_bind (Prog.wp_mono (fun _ s5 hs5 => ?_)
        (Prog.wp_require (hassigned count) hs4))
      have hleased : ∀ leased : Bool, Prog.Stable (RowSerial.Rely (Passing cfg) under (some id))
          fun w => leased = false → Checked guarded id now s w :=
        fun leased v w hvw hv hl => stable_checked hunder id now s v w hvw (hv hl)
      refine Prog.wp_bind (Prog.wp_mono (fun leased s6 hs6 => ?_)
        (Prog.wp_exec (hassigned count) hleased hs5.2 fun v leased w hv hq => ?_))
      swap
      · obtain ⟨rfl, rfl⟩ := Prod.mk.inj (Except.ok.inj hq)
        exact fun hl => ⟨hv.1, hv.2 hs5.1, fun _ => lapsed_of_check hv.1.1 hl⟩
      refine Prog.wp_bind (Prog.wp_mono (fun _ s7 hs7 => ?_)
        (Prog.wp_require (hleased leased) hs6))
      have hchecked := stable_checked hunder id now s
      refine Prog.wp_bind (Prog.wp_mono (fun _ s8 hs8 => ?_)
        (Prog.wp_require hchecked (hs7.2 hs7.1)))
      refine Prog.wp_bind (Prog.wp_mono (fun _ s9 hs9 => ?_)
        (Prog.wp_update hchecked (fun _ => stable_retired hunder id now s) hs8.2
          fun w hw => hw.retire hshard))
      exact Prog.wp_pure (stable_retired hunder id now s) hs9 fun w hw => Or.inr ⟨hlive, hw⟩

/-- **What the holders of the lock commit.** -/
theorem enrolling_retires {guarded : Prop} (hunder : guarded → ∀ id T s, under id T s →
    OwnRenewals cfg id T s) {p : StoreProg Unit} (hp : Enrolling cfg row p) (hs : Retirement s) :
    p.wp (RowSerial.Rely (Passing cfg) under row)
      (fun _ w => Retirement w ∧ Retires guarded s w) s := by
  have hsince : Since s.credentials s := ⟨hs, rfl⟩
  have hP : ∀ row, Prog.Stable (RowSerial.Rely (Passing cfg) under row) (Since s.credentials) :=
    fun _ => stable_quiet (since_quiet s.credentials)
  cases hp with
  | upsert input =>
    refine Prog.wp_mono (fun _ w (hw : Since s.credentials w) => ⟨hw.1, hw.retires⟩)
      (discard_wp (hP none) ?_)
    exact Prog.wp_mono (fun _ _ hw => hw.1) (upsertBridgeTarget_live input hs)
  | register shardId token m =>
    cases hid : normalizeFleetShardId shardId with
    | error error =>
      refine Prog.wp_bind (Prog.wp_mono (fun _ _ h => False.elim h) ?_)
      refine Prog.wp_bind (Prog.wp_mono (fun id w h => ?_) (Prog.wp_lift (hP none) hsince))
      exact absurd (hid.symm.trans h.1) (by simp)
    | ok id =>
      have hR : Prog.Stable (RowSerial.Rely (Passing cfg) under none)
          fun w => s.shardDeleted id = false ∧ Registered id s w :=
        fun v w hvw hv => ⟨hv.1, stable_quiet (registered_quiet id s) v w hvw hv.2⟩
      refine Prog.wp_mono (fun _ w hw => ⟨hw.2.1, hw.2.retires hw.1⟩) (discard_wp hR ?_)
      exact registerBridgeShard_live hid hs
  | resume record =>
    refine Prog.wp_mono (fun _ w (hw : Since s.credentials w) => ⟨hw.1, hw.retires⟩) ?_
    exact setBridgeTargetEnabled_quiet (hP none) (since_quiet s.credentials) record true s hsince
  | retire shardId confirmed token now dateNow =>
    cases hid : normalizeFleetShardId shardId with
    | error error =>
      refine Prog.wp_bind (Prog.wp_mono (fun _ _ h => False.elim h) ?_)
      refine Prog.wp_bind (Prog.wp_mono (fun id w h => ?_) (Prog.wp_lift (hP _) hsince))
      exact absurd (hid.symm.trans h.1) (by simp)
    | ok id =>
      refine Prog.wp_mono (fun _ w hw => ?_) (discard_wp (stable_outcome hunder id now s)
        (deleteBridgeShard_retires hunder hid hs))
      rcases hw with hw | ⟨hlive, hw⟩
      · exact ⟨hw.1, hw.retires⟩
      · exact ⟨hw.retirement, hw.retires hlive⟩

/-! ## Every interleaving -/

/-- The states that the transactions reach from an empty store. -/
abbrev Interleaved (cfg : Config) (under : String → (Store → Store) → Store → Prop) :
    RowSerial Store StoreError Unit String → Prop :=
  RowSerial.Reach (Enrolling cfg) (Passing cfg) under {}

variable {x y : RowSerial Store StoreError Unit String}

theorem retirement_empty : Retirement {} where
  disabled := fun _ _ h => absurd h (by simp [Store.credential?, Store.credentials])
  empty := fun _ h => absurd h (by simp [Store.shardDeleted, Store.shard?])
  issued := fun _ h => absurd h List.not_mem_nil

theorem chain_credentials
    (h : Relation.ReflTransGen (RowSerial.Rely (Passing cfg) under row) s s') :
    s'.credentials = s.credentials := by
  induction h with
  | refl => rfl
  | tail _ hstep ih =>
    obtain ⟨r, T, hT, -, rfl⟩ := hstep
    exact (passing_quiet hT _).credentials.trans ih

/-- A commit is judged by the credentials it found. -/
theorem Retires.congr {guarded : Prop} {s1 : Store} (h : s1.credentials = s.credentials)
    (hr : Retires guarded s s') : Retires guarded s1 s' where
  stays := fun id c hc => hr.stays id c ((credential?_congr h id).symm.trans hc)
  settled := fun hg id c now hc hdeleted hlive =>
    hr.settled hg id c now hc hdeleted ((shardDeleted_congr h id).symm.trans hlive)

theorem interleaved_begun {guarded : Prop} (hunder : guarded → ∀ id T s, under id T s →
    OwnRenewals cfg id T s) (hx : Interleaved cfg under x) :
    Retirement x.committed ∧ ∀ h, x.holder = some h →
      RowSerial.Begun (Passing cfg) under Retirement (Retires guarded) x.committed h :=
  RowSerial.reach_commit retirement_empty (fun _ _ s hT hs => hs.quiet (passing_quiet hT s))
    (fun _ _ hp _ hs => enrolling_retires hunder hp hs) hx

/-- **The step lemma.** -/
theorem retires_step {guarded : Prop} (hunder : guarded → ∀ id T s, under id T s →
    OwnRenewals cfg id T s) (hx : Interleaved cfg under x)
    (hst : RowSerial.Step (Enrolling cfg) (Passing cfg) under x y) :
    Retires guarded x.committed y.committed := by
  obtain ⟨hinv, hbegun⟩ := interleaved_begun hunder hx
  rcases RowSerial.step_cases hbegun hst with
    hsame | ⟨r, T, hT, hfree⟩ | ⟨r, s, hs, hchain, hcommit⟩
  · rw [hsame]
    exact Since.retires ⟨hinv, rfl⟩
  · rw [hfree]
    have hquiet := passing_quiet hT x.committed
    exact Since.retires ⟨hinv.quiet hquiet, hquiet.credentials⟩
  · exact hcommit.congr (chain_credentials hchain)

/-- **The run lemma.** A tombstone stays as it is. -/
theorem tombstone_stays (hx : Interleaved cfg under x)
    (hxy : Relation.ReflTransGen (RowSerial.Step (Enrolling cfg) (Passing cfg) under) x y)
    {id : String} {c : Credential} (hc : x.committed.credential? id = some c)
    (hdeleted : c.deletedAt ≠ none) : y.committed.credential? id = some c := by
  induction hxy with
  | refl => exact hc
  | tail hxz hst ih =>
    have hretires := retires_step (fun h : False => h.elim) (hx.trans hxz) hst
    exact hretires.stays id c ih hdeleted

/-! ## What the operations make of a tombstone -/

theorem leaseBridgeJobs_retired {req : LeaseRequest} (hid : s.shardDeleted req.shardId = true)
    (now : Nat) : ∃ e, leaseBridgeJobs cfg req now s = .error e := by
  have hlocked : ∃ e, lockActiveShard req.shardId s = .error e := by
    unfold lockActiveShard
    rw [if_neg]
    · exact ⟨_, rfl⟩
    · unfold Store.shardDeleted at hid
      cases hrow : s.shard? req.shardId with
      | none => simp
      | some shard =>
        rw [hrow, Option.any_some, Option.isSome_iff_ne_none] at hid
        simp [hid]
  obtain ⟨e, he⟩ := hlocked
  unfold leaseBridgeJobs
  split
  · exact ⟨_, rfl⟩
  · rw [he]
    exact ⟨e, rfl⟩

theorem authenticate_retired (hid : s.shardDeleted shardId = true) (rawToken : String) :
    authenticateBridgeShard cfg s shardId rawToken = false := by
  unfold Store.shardDeleted at hid
  unfold authenticateBridgeShard
  split
  · rfl
  · cases hrow : s.shard? shardId with
    | none => rfl
    | some shard =>
      rw [hrow, Option.any_some, Option.isSome_iff_ne_none] at hid
      simp [hid]

theorem checkEnrolment_requested {input : BridgeTargetInput} {e : Enrolment}
    (h : checkEnrolment cfg input = .ok e) : e.requestedShardId = requestedShard input.shardId := by
  unfold checkEnrolment at h
  simp only at h
  split at h
  · exact absurd h (by simp)
  split at h
  · exact absurd h (by simp)
  split at h
  · exact absurd h (by simp)
  split at h
  · exact absurd h (by simp)
  split at h
  · exact absurd h (by simp)
  split at h
  · exact absurd h (by simp)
  obtain rfl := Except.ok.inj h
  rfl

/-- An enrolment that asks for a retired shard by name is refused. -/
theorem upsertBridgeTarget_named {input : BridgeTargetInput} (hs : Retirement s)
    (hid : s.shardDeleted (requestedShard input.shardId) = true)
    (hname : requestedShard input.shardId ≠ "default") :
    (upsertBridgeTarget cfg input).wp (RowSerial.Rely (Passing cfg) under row)
      (fun _ _ => False) s := by
  have hP : Prog.Stable (RowSerial.Rely (Passing cfg) under row) (Since s.credentials) :=
    stable_quiet (since_quiet s.credentials)
  refine Prog.wp_bind (Prog.wp_mono (fun e s1 hs1 => ?_)
    (Prog.wp_lift hP (show Since s.credentials s from ⟨hs, rfl⟩)))
  have hrequested := checkEnrolment_requested hs1.1
  have hpreferred : e.preferred = requestedShard input.shardId := by
    unfold Enrolment.preferred
    rw [hrequested, if_neg hname]
  have hretired : (bindPreferred e).wp (RowSerial.Rely (Passing cfg) under row)
      (fun _ _ => False) s1 := by
    refine Prog.wp_bind (Prog.wp_mono (fun _ s2 hs2 => ?_) (Prog.wp_query hP hs1.2))
    rw [if_pos (Or.inl (by rw [hrequested]; exact hname))]
    refine Prog.wp_bind (Prog.wp_mono (fun _ _ h => False.elim h) ?_)
    refine bindFleetShardManager_refuses (stable_deleted _ true) ?_
    rw [shardDeleted_congr hs2.2, hpreferred]
    exact hid
  refine Prog.wp_bind (Prog.wp_mono (fun _ _ h => False.elim h) ?_)
  exact Prog.wp_bind (Prog.wp_mono (fun _ _ h => False.elim h) hretired)

/-- An enrolment whose default shard is retired is given another one, which is not. -/
theorem chooseShard_retired {e : Enrolment} (hid : s.shardDeleted e.preferred = true)
    (occupied : Nat) : ∃ assigned, (chooseShard e occupied true).run s = .ok (assigned, s) ∧
      assigned ≠ e.preferred ∧ s.shardDeleted assigned = false := by
  have hother : ∀ assigned, s.shardDeleted assigned = false →
      assigned ≠ e.preferred ∧ s.shardDeleted assigned = false := by
    rintro assigned hlive
    refine ⟨fun hsame => ?_, hlive⟩
    rw [hsame, hid] at hlive
    exact absurd hlive (by simp)
  unfold chooseShard
  rw [if_pos (Or.inr rfl)]
  cases havailable : s.availableShard e with
  | some found =>
    have hmem := List.argmin_mem havailable
    have hshard := (List.mem_filter.mp hmem).2
    unfold Store.shardAvailable at hshard
    simp only [Bool.and_eq_true, Bool.not_eq_true'] at hshard
    exact ⟨found, Prog.run_bind_ok.mpr ⟨some found, s, by rw [Prog.run_query, havailable], rfl⟩,
      hother _ hshard.1.1.1⟩
  | none =>
    refine ⟨s.nextShardId e.shardPrefix,
      Prog.run_bind_ok.mpr ⟨none, s, by rw [Prog.run_query, havailable], rfl⟩, hother _ ?_⟩
    unfold Store.shardDeleted
    cases hrow : s.shard? (s.nextShardId e.shardPrefix) with
    | none => rfl
    | some shard =>
      have hname : shard.shardId = s.nextShardId e.shardPrefix := by
        simpa using List.find?_some hrow
      refine absurd ?_ (nextShardId_new s e.shardPrefix)
      refine List.mem_dedup.mpr (List.mem_filter.mpr ⟨List.mem_append_left _ ?_, ?_⟩)
      · rw [← hname]
        exact List.mem_map_of_mem (List.mem_of_find?_eq_some hrow)
      · exact hasPrefix_nextShardId s e.shardPrefix

/-- What a retired shard is, and what the operations make of it. -/
structure Closed (cfg : Config) (under : String → (Store → Store) → Store → Prop) (id : String)
    (s : Store) : Prop where
  disabled : ∃ c, s.credential? id = some c ∧ c.enabled = false
  unauthenticated : ∀ rawToken, authenticateBridgeShard cfg s id rawToken = false
  idle : ∀ req now, req.shardId = id → ∃ e, leaseBridgeJobs cfg req now s = .error e
  vacated : Vacated id s
  elsewhere : ∀ input, (upsertBridgeTarget cfg input).wp (RowSerial.Rely (Passing cfg) under none)
    (fun assignment _ => assignment.shardId ≠ id) s
  moved : ∀ e : Enrolment, e.preferred = id → ∀ occupied, ∃ assigned,
    (chooseShard e occupied true).run s = .ok (assigned, s) ∧ assigned ≠ id ∧
      s.shardDeleted assigned = false
  named : ∀ input : BridgeTargetInput, requestedShard input.shardId = id → id ≠ "default" →
    (upsertBridgeTarget cfg input).wp (RowSerial.Rely (Passing cfg) under none)
      (fun _ _ => False) s
  reserved : ∀ shardId rawToken manager, normalizeFleetShardId shardId = .ok id →
    (registerBridgeShard cfg shardId rawToken manager).wp
      (RowSerial.Rely (Passing cfg) under none) (fun _ _ => False) s

theorem Retirement.closed {id : String} (hs : Retirement s) (hid : s.shardDeleted id = true) :
    Closed cfg under id s where
  disabled := by
    obtain ⟨c, hc, hdeleted⟩ := credential_of_shardDeleted hid
    exact ⟨c, hc, hs.disabled id c hc hdeleted⟩
  unauthenticated := authenticate_retired hid
  idle := by
    rintro req now rfl
    exact leaseBridgeJobs_retired hid now
  vacated := hs.empty id hid
  elsewhere := by
    intro input
    refine Prog.wp_mono (fun a w hw hsame => ?_) (upsertBridgeTarget_live input hs)
    rw [shardDeleted_congr hw.1.2, hsame, hid] at hw
    exact absurd hw.2 (by simp)
  moved := by
    rintro e rfl occupied
    exact chooseShard_retired hid occupied
  named := by
    rintro input rfl hname
    exact upsertBridgeTarget_named hs hid hname
  reserved := by
    intro shardId rawToken manager hnormal
    refine Prog.wp_mono (fun _ w hw => ?_) (registerBridgeShard_live hnormal hs)
    rw [hid] at hw
    exact absurd hw.1 (by simp)

/-- A transaction that holds the lock, with nothing in between. -/
theorem enrolling_commits (under : String → (Store → Store) → Store → Prop) {c : Store}
    {p : StoreProg Unit} (hp : Enrolling cfg row p) :
    Relation.ReflTransGen (RowSerial.Step (Enrolling cfg) (Passing cfg) under) ⟨c, none⟩
      ⟨afterWork p.run c, none⟩ := by
  unfold afterWork
  cases hrun : p.run c with
  | error e => exact .refl
  | ok r => exact RowSerial.steps_of_run hp hrun

namespace Revive

/-- Two shards; a job of the campaign leased by the first, then the campaign moved to the second. -/
def enrol (shardId : Option String) : StoreProg Unit :=
  Prog.discard (upsertBridgeTarget Config.sample { Sample.target with shardId := shardId })

def register (shardId : String) : StoreProg Unit := Prog.discard
  (registerBridgeShard Config.sample shardId "a-token-of-sufficient-length" "1111111111")

def capture : CaptureTicket where
  targetId := Sample.id
  shardId := Sample.shard
  exactSuffix := "a=1"
  suffixHash := "a=1"
  version := 1
  sourceRunId := none

def request : LeaseRequest where
  shardId := Sample.shard
  workerId := "w"
  uuid := fun t => "uuid-" ++ t
  token := fun _ => "token"

/-- A renewal through the second shard, after the lease has expired. -/
def renewal : Store → Store :=
  afterWork (renewBridgeLeases Config.sample ⟨"second", "w", [⟨"job", "token"⟩]⟩ 5000000)

def retire : StoreProg Unit := Prog.discard
  (deleteBridgeShard Config.sample Sample.shard Sample.shard "random" 5000000 5000000)

def registered : Store :=
  afterWork (register "second").run (afterWork (register Sample.shard).run {})

def leased : Store :=
  afterWork (leaseBridgeJobs Config.sample request 2)
    (afterWork (enqueueCapture capture 1 "job" 1) (afterWork (enrol none).run registered))

def moved : Store := afterWork (enrol (some "second")).run leased

theorem moved_reached (under : String → (Store → Store) → Store → Prop) :
    Interleaved Config.sample under ⟨moved, none⟩ := by
  have hregistered : Interleaved Config.sample under ⟨registered, none⟩ :=
    (enrolling_commits under (.register Sample.shard "a-token-of-sufficient-length"
      "1111111111")).trans (enrolling_commits under (.register "second"
        "a-token-of-sufficient-length" "1111111111"))
  have henrolled := hregistered.trans (enrolling_commits under
    (.upsert { Sample.target with shardId := none }))
  have hqueued := henrolled.tail (.free (.enqueue capture 1 "job" 1))
  have hleased := hqueued.tail (.free (.lease request 2))
  exact hleased.trans (enrolling_commits under
    (.upsert { Sample.target with shardId := some "second" }))

/-- The retirement, with the renewal before its last statement. -/
def revived : Except StoreError (Unit × Store) :=
  RowSerial.runAmong [none, none, none, some renewal] retire moved

theorem retire_enrolling : Enrolling Config.sample (some Sample.shard) retire := by
  have hrow : (normalizeFleetShardId Sample.shard).toOption = some Sample.shard := by decide
  rw [← hrow]
  exact .retire Sample.shard Sample.shard "random" 5000000 5000000

end Revive

end LinkSuffix
