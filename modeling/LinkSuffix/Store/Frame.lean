import LinkSuffix.Store.System

/-!
# What enrolment leaves unchanged

The enrolment programs run by themselves: which tables each touches, and the one target row an
enrolment writes.

* `bindFleetShardManager_frame`, `assignShard_frame`: only manager bindings.
* `upsertBridgeTarget_ok`: the bindings and one target row (`Enrols`).
* `setBridgeTargetEnabled_ok`: the flag of one target, and its open jobs on a pause.
-/

namespace LinkSuffix

open Lib

/-! ## Bindings only -/

/-- `s` is `s0` with other manager bindings. -/
def ManagersOnly (s0 s : Store) : Prop := s = { s0 with shardManagers := s.shardManagers }

theorem managersOnly_refl (s : Store) : ManagersOnly s s := rfl

theorem saveBinding_frame {s0 s s' : Store} {shardId manager : String} {n : Nat}
    (hs : ManagersOnly s0 s) (h : saveBinding shardId manager s = .ok (n, s')) :
    ManagersOnly s0 s' := by
  unfold saveBinding at h
  split at h
  · obtain ⟨-, rfl⟩ := Prod.mk.inj (Except.ok.inj h)
    unfold ManagersOnly at hs ⊢
    rw [hs]
  · obtain ⟨-, rfl⟩ := Prod.mk.inj (Except.ok.inj h)
    exact hs

variable {R : Store → Store → Prop} {s0 : Store}

theorem assertShardNotDeleted_keeps {I : Store → Prop} (hI : Prog.Stable R I) (shardId : String) :
    (assertShardNotDeleted shardId).Keeps R I :=
  Prog.keeps_bind (Prog.keeps_query hI _) fun _ => Prog.keeps_require hI _ _

/-- `bindFleetShardManager` keeps what saving a binding keeps. -/
theorem bindFleetShardManager_keeps {I : Store → Prop} (hI : Prog.Stable R I) (shardId m : String)
    (hsave : ∀ manager s n s', I s → saveBinding shardId manager s = .ok (n, s') → I s') :
    (bindFleetShardManager shardId m).Keeps R I := by
  unfold bindFleetShardManager
  refine Prog.keeps_bind (assertShardNotDeleted_keeps hI shardId) fun _ => ?_
  refine Prog.keeps_bind (Prog.keeps_query hI _) fun bound => ?_
  refine Prog.keeps_bind (Prog.keeps_query hI _) fun assigned => ?_
  refine Prog.keeps_bind (Prog.keeps_lift hI _) fun managers => ?_
  refine Prog.keeps_bind (Prog.keeps_require hI _ _) fun _ => ?_
  split
  · exact Prog.keeps_pure hI _
  · refine Prog.keeps_bind (Prog.keeps_exec hI fun s n s' => hsave _ s n s') fun saved => ?_
    exact Prog.keeps_bind (Prog.keeps_require hI _ _) fun _ => Prog.keeps_pure hI _

theorem checkOccupants_keeps {I : Store → Prop} (hI : Prog.Stable R I) (e : Enrolment) :
    (checkOccupants e).Keeps R I := by
  refine Prog.keeps_bind (Prog.keeps_query hI _) fun occupants => ?_
  refine Prog.keeps_bind (Prog.keeps_require hI _ _) fun _ => ?_
  exact Prog.keeps_bind (Prog.keeps_require hI _ _) fun _ => Prog.keeps_pure hI _

theorem chooseShard_keeps {I : Store → Prop} (hI : Prog.Stable R I) (e : Enrolment)
    (occupied : Nat) (retired : Bool) : (chooseShard e occupied retired).Keeps R I := by
  refine Prog.keeps_ite (Prog.keeps_bind (Prog.keeps_query hI _) fun available => ?_)
    (Prog.keeps_pure hI _)
  cases available with
  | some shardId => exact Prog.keeps_pure hI _
  | none => exact Prog.keeps_query hI _

theorem assignShard_keeps {I : Store → Prop} (hI : Prog.Stable R I) (e : Enrolment)
    (hsave : ∀ shardId manager s n s', I s → saveBinding shardId manager s = .ok (n, s') → I s') :
    (assignShard e).Keeps R I := by
  have hbind : ∀ shardId m, (bindFleetShardManager shardId m).Keeps R I :=
    fun shardId m => bindFleetShardManager_keeps hI shardId m (hsave shardId)
  have hpreferred : (bindPreferred e).Keeps R I := by
    refine Prog.keeps_bind (Prog.keeps_query hI _) fun retired => Prog.keeps_ite ?_ ?_
    · exact Prog.keeps_bind (hbind _ _) fun _ => Prog.keeps_pure hI _
    · exact Prog.keeps_pure hI _
  refine Prog.keeps_bind hpreferred fun retired => ?_
  refine Prog.keeps_bind (checkOccupants_keeps hI e) fun occupied => ?_
  refine Prog.keeps_bind (chooseShard_keeps hI e occupied retired) fun assigned => ?_
  exact Prog.keeps_bind (hbind _ _) fun _ => Prog.keeps_pure hI _

/-! ## By itself -/

theorem bindFleetShardManager_frame {shardId m m' : String} {s s' : Store}
    (h : (bindFleetShardManager shardId m).run s = .ok (m', s')) : ManagersOnly s s' :=
  (bindFleetShardManager_keeps Prog.stable_alone shardId m
    fun _ _ _ _ hs hsave => saveBinding_frame hs hsave).run (managersOnly_refl s) h

theorem assignShard_frame {e : Enrolment} {shardId : String} {s s' : Store}
    (h : (assignShard e).run s = .ok (shardId, s')) : ManagersOnly s s' :=
  (assignShard_keeps Prog.stable_alone e
    fun _ _ _ _ _ hs hsave => saveBinding_frame hs hsave).run (managersOnly_refl s) h

/-! ## `upsertBridgeTarget` -/

theorem checkEnrolment_ok {cfg : Config} {input : BridgeTargetInput} {e : Enrolment}
    (h : checkEnrolment cfg input = .ok e) :
    e.id = targetId cfg input ∧ e.campaignRecordId = input.campaignRecordId
      ∧ isDigits 10 10 e.managerCustomerId = true := by
  unfold checkEnrolment at h
  simp only at h
  split at h
  · exact absurd h (by simp)
  split at h
  · exact absurd h (by simp)
  split at h
  · exact absurd h (by simp)
  rename_i hm
  split at h
  · exact absurd h (by simp)
  split at h
  · exact absurd h (by simp)
  split at h
  · exact absurd h (by simp)
  obtain rfl := Except.ok.inj h
  exact ⟨rfl, rfl, by simpa using hm⟩

/-- What an enrolment does: it may bind shards, and it writes the row of its target, over the row
with that key if there is one. -/
structure Enrols (cfg : Config) (e : Enrolment) (shardId : String) (s s' : Store) : Prop where
  captures : s'.captures = s.captures
  jobs : s'.jobs = s.jobs
  shards : s'.shards = s.shards
  accountActivity : s'.accountActivity = s.accountActivity
  owner : ∀ t, s.target? e.id = some t →
    t.campaignRecordId = e.campaignRecordId ∨ t.enabled = false ∨ t.archivedAt ≠ none
  record : ∀ t ∈ s.targets, t.campaignRecordId = e.campaignRecordId → t.targetId = e.id
  targets :
    (∃ old, s.target? e.id = some old ∧ s'.targets =
      updateKey (·.targetId) e.id (fun _ => e.row cfg shardId (some old)) s.targets)
    ∨ (s.target? e.id = none ∧ s'.targets = s.targets ++ [e.row cfg shardId none])

theorem saveTarget_ok {cfg : Config} {e : Enrolment} {shardId : String} {s s' : Store}
    (hs : (s.targets.map (·.campaignRecordId)).Nodup)
    (h : (saveTarget cfg e shardId).run s = .ok ((), s')) : Enrols cfg e shardId s s' := by
  unfold saveTarget at h
  obtain ⟨targetOwner, s1, h1, k1⟩ := Prog.run_bind_ok.mp h
  obtain ⟨recordOwner, s2, h2, k2⟩ := Prog.run_bind_ok.mp k1
  obtain ⟨_, s3, h3, k3⟩ := Prog.run_bind_ok.mp k2
  obtain ⟨_, s4, h4, k4⟩ := Prog.run_bind_ok.mp k3
  clear h k1 k2 k3
  simp only [Prog.run_query, Except.ok.injEq, Prod.mk.injEq] at h1 h2
  obtain ⟨rfl, rfl⟩ := h1
  obtain ⟨rfl, rfl⟩ := h2
  obtain ⟨howner, h3⟩ := Prog.run_require_ok.mp h3
  obtain ⟨-, rfl⟩ := Prod.mk.inj h3
  obtain ⟨hrecord, h4⟩ := Prog.run_require_ok.mp h4
  obtain ⟨-, rfl⟩ := Prod.mk.inj h4
  have howner' : ∀ t, s4.target? e.id = some t →
      t.campaignRecordId = e.campaignRecordId ∨ t.enabled = false ∨ t.archivedAt ≠ none := by
    intro t ht
    rw [ht] at howner
    by_cases hr : t.campaignRecordId = e.campaignRecordId
    · exact Or.inl hr
    · cases he : t.enabled with
      | false => exact Or.inr (Or.inl rfl)
      | true => exact Or.inr (Or.inr (by simpa [hr, he] using howner))
  have hrecord' : ∀ t ∈ s4.targets, t.campaignRecordId = e.campaignRecordId →
      t.targetId = e.id := by
    intro t ht hr
    rw [(find?_key_eq_some_iff hs).mpr ⟨ht, hr⟩] at hrecord
    simpa using hrecord
  cases hold : s4.target? e.id with
  | none =>
    rw [if_neg (by simp [hold]), Prog.run_update] at k4
    obtain ⟨-, rfl⟩ := Prod.mk.inj (Except.ok.inj k4)
    exact ⟨rfl, rfl, rfl, rfl, howner', hrecord', Or.inr ⟨hold, rfl⟩⟩
  | some old =>
    rw [if_pos (by simp [hold]), Prog.run_exec_ok] at k4
    simp only [updateTarget, hold] at k4
    obtain ⟨-, rfl⟩ := Prod.mk.inj (Except.ok.inj k4)
    exact ⟨rfl, rfl, rfl, rfl, howner', hrecord', Or.inl ⟨old, hold, rfl⟩⟩

/-- It writes targets only. -/
theorem saveTarget_keeps {cfg : Config} {I : Store → Prop} (hI : Prog.Stable R I)
    (hwrite : ∀ s targets, I s → I { s with targets := targets }) (e : Enrolment)
    (shardId : String) : (saveTarget cfg e shardId).Keeps R I := by
  refine Prog.keeps_bind (Prog.keeps_query hI _) fun owner => ?_
  refine Prog.keeps_bind (Prog.keeps_query hI _) fun record => ?_
  refine Prog.keeps_bind (Prog.keeps_require hI _ _) fun _ => ?_
  refine Prog.keeps_bind (Prog.keeps_require hI _ _) fun _ => ?_
  refine Prog.keeps_ite (Prog.keeps_exec hI fun s _ s' hs h => ?_)
    (Prog.keeps_update hI fun s hs => hwrite s _ hs)
  unfold updateTarget at h
  split at h
  · exact absurd h (by simp)
  · obtain ⟨-, rfl⟩ := Prod.mk.inj (Except.ok.inj h)
    exact hwrite s _ hs

/-- `upsertBridgeTarget` enrols the campaign its input describes. -/
theorem upsertBridgeTarget_ok {cfg : Config} {input : BridgeTargetInput} {a : Assignment}
    {s s' : Store} (hs : s.Unique) (h : (upsertBridgeTarget cfg input).run s = .ok (a, s')) :
    ∃ e, checkEnrolment cfg input = .ok e ∧ a.targetId = e.id ∧ Enrols cfg e a.shardId s s' := by
  unfold upsertBridgeTarget at h
  obtain ⟨e, s1, h1, k1⟩ := Prog.run_bind_ok.mp h
  obtain ⟨shardId, s2, h2, k2⟩ := Prog.run_bind_ok.mp k1
  obtain ⟨_, s3, h3, k3⟩ := Prog.run_bind_ok.mp k2
  clear h k1 k2
  obtain ⟨he, rfl⟩ := Prog.run_lift_ok.mp h1
  obtain ⟨rfl, rfl⟩ := Prod.mk.inj (Except.ok.inj k3)
  have hframe : s2 = { s with shardManagers := s2.shardManagers } := assignShard_frame h2
  have hrecords : (s2.targets.map (·.campaignRecordId)).Nodup := by
    rw [hframe]
    exact hs.target_record
  refine ⟨e, he, rfl, ?_⟩
  have hsave := saveTarget_ok hrecords h3
  rw [hframe] at hsave
  exact ⟨hsave.captures, hsave.jobs, hsave.shards, hsave.accountActivity, hsave.owner,
    hsave.record, hsave.targets⟩

/-- The first transaction of an enqueue enrols the campaign and carries the capture along. -/
theorem beginEnqueue_ok {cfg : Config} {input : CaptureInput} {dateNow : Int}
    {ticket : CaptureTicket} {s s' : Store} (hs : s.Unique)
    (h : (beginEnqueue cfg input dateNow).run s = .ok (ticket, s')) :
    ∃ e, checkEnrolment cfg input.toBridgeTargetInput = .ok e
      ∧ Enrols cfg e ticket.shardId s s' ∧ ticket.targetId = e.id
      ∧ ticket.exactSuffix = input.exactSuffix ∧ ticket.suffixHash = cfg.digest input.exactSuffix
      ∧ ticket.version = captureVersion input.version dateNow
      ∧ deliverySuffixIssue input.exactSuffix = none := by
  unfold beginEnqueue at h
  obtain ⟨_, s1, h1, k1⟩ := Prog.run_bind_ok.mp h
  obtain ⟨a, s2, h2, k2⟩ := Prog.run_bind_ok.mp k1
  clear h k1
  obtain ⟨hissue, rfl⟩ := Prog.run_lift_ok.mp h1
  obtain ⟨rfl, rfl⟩ := Prod.mk.inj (Except.ok.inj k2)
  obtain ⟨e, he, hid, henrols⟩ := upsertBridgeTarget_ok hs h2
  refine ⟨e, he, henrols, hid, rfl, rfl, rfl, ?_⟩
  unfold assertDeliverableSuffix at hissue
  simp only at hissue
  split at hissue
  · exact absurd hissue (by simp)
  · assumption

/-! ## Shards -/

/-- `s'` is `s` with other shards and bindings. -/
def ShardsOnly (s s' : Store) : Prop :=
  s' = { s with shards := s'.shards, shardManagers := s'.shardManagers }

theorem shardsOnly_refl (s : Store) : ShardsOnly s s := rfl

theorem ShardsOnly.jobs {s s' : Store} (h : ShardsOnly s s') : s'.jobs = s.jobs := by rw [h]

theorem ShardsOnly.captures {s s' : Store} (h : ShardsOnly s s') : s'.captures = s.captures := by
  rw [h]

theorem ShardsOnly.targets {s s' : Store} (h : ShardsOnly s s') : s'.targets = s.targets := by
  rw [h]

theorem saveShard_frame {s s' : Store} {shardId tokenHash : String} (h : ShardsOnly s s') :
    ShardsOnly s (saveShard shardId tokenHash s') := by
  unfold ShardsOnly at h ⊢
  unfold saveShard
  split
  · rw [h]
  · rw [h]

theorem registerBridgeShard_frame {cfg : Config} {shardId rawToken m : String} {r : ShardIdentity}
    {s s' : Store} (h : (registerBridgeShard cfg shardId rawToken m).run s = .ok (r, s')) :
    ShardsOnly s s' := by
  have hI : Prog.Stable Prog.Alone (ShardsOnly s) := Prog.stable_alone
  refine Prog.Keeps.run (I := ShardsOnly s) ?_ (shardsOnly_refl s) h
  unfold registerBridgeShard
  refine Prog.keeps_bind (Prog.keeps_lift hI _) fun id => ?_
  refine Prog.keeps_bind (Prog.keeps_require hI _ _) fun _ => ?_
  refine Prog.keeps_bind (Prog.keeps_lift hI _) fun manager => ?_
  refine Prog.keeps_bind (bindFleetShardManager_keeps hI _ _ ?_) fun _ => ?_
  · intro manager' s1 n s2 hs hsave
    have hm := saveBinding_frame (managersOnly_refl s1) hsave
    unfold ShardsOnly ManagersOnly at *
    rw [hm, hs]
  · exact Prog.keeps_bind (Prog.keeps_update hI fun _ => saveShard_frame) fun _ =>
      Prog.keeps_pure hI _

/-- A retirement writes shards only. -/
theorem deleteBridgeShard_writes {cfg : Config} {I : Store → Prop} (hI : Prog.Stable R I)
    (hwrite : ∀ s shards, I s → I { s with shards := shards }) (shardId confirmed token : String)
    (now dateNow : Nat) : (deleteBridgeShard cfg shardId confirmed token now dateNow).Keeps R I := by
  unfold deleteBridgeShard
  refine Prog.keeps_bind (Prog.keeps_lift hI _) fun id => ?_
  refine Prog.keeps_bind (Prog.keeps_require hI _ _) fun _ => ?_
  refine Prog.keeps_bind (Prog.keeps_query hI _) fun found => ?_
  cases found with
  | none => exact Prog.keeps_throw _
  | some shard =>
    refine Prog.keeps_ite (Prog.keeps_pure hI _) ?_
    refine Prog.keeps_bind (Prog.keeps_query hI _) fun assigned => ?_
    refine Prog.keeps_bind (Prog.keeps_require hI _ _) fun _ => ?_
    refine Prog.keeps_bind (Prog.keeps_query hI _) fun leased => ?_
    refine Prog.keeps_bind (Prog.keeps_require hI _ _) fun _ => ?_
    refine Prog.keeps_bind (Prog.keeps_require hI _ _) fun _ => ?_
    exact Prog.keeps_bind (Prog.keeps_update hI fun s hs => hwrite s _ hs) fun _ =>
      Prog.keeps_pure hI _

theorem deleteBridgeShard_frame {cfg : Config} {shardId confirmed token : String}
    {now dateNow : Nat} {r : ShardDeletion} {s s' : Store}
    (h : (deleteBridgeShard cfg shardId confirmed token now dateNow).run s = .ok (r, s')) :
    ShardsOnly s s' := by
  have hwrite : ∀ s1 shards, ShardsOnly s s1 → ShardsOnly s { s1 with shards := shards } := by
    intro s1 shards hs
    unfold ShardsOnly at *
    rw [hs]
  exact (deleteBridgeShard_writes Prog.stable_alone hwrite shardId confirmed token now dateNow).run
    (shardsOnly_refl s) h

/-! ## `setBridgeTargetEnabled` -/

/-- What pausing (`enabled = false`) or resuming a target does: its flag is written, and a pause
supersedes its open jobs. -/
structure Switches (campaignRecordId : String) (enabled : Bool) (s s' : Store) : Prop where
  captures : s'.captures = s.captures
  target : ∃ t ∈ s.targets, t.campaignRecordId = campaignRecordId ∧ t.archivedAt = none ∧
    s'.targets = updateKey (·.targetId) t.targetId (fun t => { t with enabled := enabled }) s.targets
    ∧ s'.jobs = if enabled then s.jobs else (supersedeOpen t.targetId s).jobs

/-- The one target a record names. -/
theorem setEnabled_ok {s s' : Store} {record id : String} {enabled : Bool}
    (hkey : (s.targets.map (·.targetId)).Nodup)
    (hrecord : (s.targets.map (·.campaignRecordId)).Nodup)
    (h : setEnabled record enabled s = .ok ([id], s')) :
    ∃ t ∈ s.targets, t.targetId = id ∧ t.campaignRecordId = record ∧ t.archivedAt = none ∧
      s' = { s with
        targets := updateKey (·.targetId) id (fun t => { t with enabled := enabled }) s.targets } := by
  unfold setEnabled at h
  simp only at h
  obtain ⟨hids, rfl⟩ := Prod.mk.inj (Except.ok.inj h)
  obtain ⟨t, ht, hid⟩ := List.map_eq_singleton_iff.mp hids
  have hmem : t ∈ s.targets ∧ t.campaignRecordId = record ∧ t.archivedAt = none := by
    have := List.mem_filter.mp (ht ▸ List.mem_singleton_self t)
    simpa using this
  refine ⟨t, hmem.1, hid, hmem.2.1, hmem.2.2, ?_⟩
  have hsame : ∀ u ∈ s.targets,
      (decide (u.campaignRecordId = record) && decide (u.archivedAt = none))
        = decide (u.targetId = id) := by
    intro u hu
    by_cases hut : u = t
    · subst hut
      simp [hmem.2.1, hmem.2.2, hid]
    · have h1 : u.campaignRecordId ≠ record := fun hr =>
        hut (key_unique hrecord hu hmem.1 (hr.trans hmem.2.1.symm))
      have h2 : u.targetId ≠ id := fun hi => hut (key_unique hkey hu hmem.1 (hi.trans hid.symm))
      simp [h1, h2]
  unfold updateKey
  rw [updateWhere_congr hsame]

theorem checkResume_keeps {I : Store → Prop} (hI : Prog.Stable R I) (record : String)
    (enabled : Bool)
    (hsave : ∀ shardId manager s n s', I s → saveBinding shardId manager s = .ok (n, s') → I s') :
    (checkResume record enabled).Keeps R I := by
  unfold checkResume
  refine Prog.keeps_ite (Prog.keeps_bind (Prog.keeps_query hI _) fun target => ?_)
    (Prog.keeps_pure hI _)
  cases target with
  | none => exact Prog.keeps_throw _
  | some t =>
    refine Prog.keeps_bind (Prog.keeps_lift hI _) fun manager => ?_
    exact Prog.keeps_bind (bindFleetShardManager_keeps hI _ _ (hsave _)) fun _ =>
      Prog.keeps_pure hI _

theorem checkResume_frame {record : String} {enabled : Bool} {s s' : Store}
    (h : (checkResume record enabled).run s = .ok ((), s')) : ManagersOnly s s' :=
  (checkResume_keeps Prog.stable_alone record enabled
    fun _ _ _ _ _ hs hsave => saveBinding_frame hs hsave).run (managersOnly_refl s) h

theorem writeEnabled_ok {record : String} {enabled : Bool} {s s' : Store}
    (hkey : (s.targets.map (·.targetId)).Nodup)
    (hrecord : (s.targets.map (·.campaignRecordId)).Nodup)
    (h : (writeEnabled record enabled).run s = .ok ((), s')) : Switches record enabled s s' := by
  unfold writeEnabled at h
  obtain ⟨updated, s1, h1, k1⟩ := Prog.run_bind_ok.mp h
  rw [Prog.run_exec_ok] at h1
  split at k1
  · rename_i id
    obtain ⟨t, ht, hid, hr, ha, rfl⟩ := setEnabled_ok hkey hrecord h1
    subst hid
    cases enabled with
    | true =>
      simp only [if_true, Prog.run_pure] at k1
      obtain ⟨-, rfl⟩ := Prod.mk.inj (Except.ok.inj k1)
      exact ⟨rfl, t, ht, hr, ha, rfl, rfl⟩
    | false =>
      simp only [Bool.false_eq_true, if_false, Prog.run_update] at k1
      obtain ⟨-, rfl⟩ := Prod.mk.inj (Except.ok.inj k1)
      exact ⟨rfl, t, ht, hr, ha, rfl, rfl⟩
  · exact absurd k1 (by simp)

theorem setBridgeTargetEnabled_ok {record : String} {enabled : Bool} {s s' : Store}
    (hs : s.Unique) (h : (setBridgeTargetEnabled record enabled).run s = .ok ((), s')) :
    Switches record enabled s s' := by
  unfold setBridgeTargetEnabled at h
  obtain ⟨_, s1, h1, k1⟩ := Prog.run_bind_ok.mp h
  have hframe := checkResume_frame h1
  unfold ManagersOnly at hframe
  have hkey : (s1.targets.map (·.targetId)).Nodup := by
    rw [hframe]
    exact hs.target_key
  have hrecord : (s1.targets.map (·.campaignRecordId)).Nodup := by
    rw [hframe]
    exact hs.target_record
  have hswitch := writeEnabled_ok hkey hrecord k1
  rw [hframe] at hswitch
  exact ⟨hswitch.captures, hswitch.target⟩

end LinkSuffix
