import LinkSuffix.Shards.Manager

/-!
# The credentials of the shards

A request is authenticated against three columns of its shard's row: `token_hash`, `enabled` and
`deleted_at`. Registration and retirement write them; every other transaction leaves them alone.

* `Store.credentials`: the three columns of every row.
* `authenticateBridgeShard`: whether a token opens a shard.
* `work_credentials`: the frame.
* `registerBridgeShard_run`, `deleteBridgeShard_run`: the two writers.
-/

namespace LinkSuffix

open Lib

variable {cfg : Config} {s s' : Store} {e : Event} {shardId : String} {R : Store → Store → Prop}

/-- The columns of `tah_script_shards` a request is authenticated against. -/
structure Credential where
  shardId : String
  tokenHash : String
  enabled : Bool
  deletedAt : Option Nat
  deriving DecidableEq

def ScriptShard.credential (shard : ScriptShard) : Credential :=
  ⟨shard.shardId, shard.tokenHash, shard.enabled, shard.deletedAt⟩

/-- The credentials of every shard. -/
def Store.credentials (s : Store) : List Credential := s.shards.map ScriptShard.credential

/-- The credential of one shard. -/
def Store.credential? (s : Store) (shardId : String) : Option Credential :=
  s.credentials.find? (·.shardId = shardId)

/-- `authenticateBridgeShard`. -/
def authenticateBridgeShard (cfg : Config) (s : Store) (shardId rawToken : String) : Bool :=
  if rawToken = "" then false
  else (s.shard? shardId).any fun shard =>
    shard.deletedAt = none && shard.enabled && shard.tokenHash = cfg.digest rawToken

theorem credential?_eq (s : Store) (shardId : String) :
    s.credential? shardId = (s.shard? shardId).map ScriptShard.credential := by
  unfold Store.credential? Store.credentials Store.shard?
  rw [List.find?_map]
  rfl

theorem credential?_congr (h : s'.credentials = s.credentials) (shardId : String) :
    s'.credential? shardId = s.credential? shardId := by
  unfold Store.credential?
  rw [h]

theorem shardDeleted_eq (s : Store) (shardId : String) :
    s.shardDeleted shardId = (s.credential? shardId).any fun c => c.deletedAt.isSome := by
  rw [credential?_eq, Option.any_map]
  rfl

theorem authenticateBridgeShard_eq (cfg : Config) (s : Store) (shardId rawToken : String) :
    authenticateBridgeShard cfg s shardId rawToken = if rawToken = "" then false
      else (s.credential? shardId).any fun c =>
        c.deletedAt = none && c.enabled && c.tokenHash = cfg.digest rawToken := by
  rw [credential?_eq, Option.any_map]
  rfl

/-! ## The transactions that leave them alone -/

theorem updateShard_credentials {f : ScriptShard → ScriptShard}
    (hf : ∀ shard, (f shard).credential = shard.credential) :
    (updateShard shardId f s).credentials = s.credentials :=
  map_updateWhere fun shard _ => hf shard

theorem recordPoll_credentials (req : LeaseRequest) (now : Nat) (s : Store) :
    (recordPoll req now s).credentials = s.credentials := by
  have hfold : ∀ (customers : List String) (s1 : Store),
      (customers.foldl (saveActivity req.shardId req.workerId now) s1).credentials =
        s1.credentials := by
    intro customers
    induction customers with
    | nil => exact fun s1 => rfl
    | cons c customers ih =>
      intro s1
      rw [List.foldl_cons, ih]
      unfold saveActivity
      split <;> rfl
  unfold recordPoll
  exact (hfold _ _).trans (updateShard_credentials fun _ => rfl)

theorem leaseBridgeJobs_credentials {req : LeaseRequest} {now : Nat} {leases : List BridgeLease}
    (h : leaseBridgeJobs cfg req now s = .ok (leases, s')) : s'.credentials = s.credentials := by
  unfold leaseBridgeJobs at h
  split at h
  · exact absurd h (by simp)
  split at h
  · exact absurd h (by simp)
  split at h
  · exact absurd h (by simp)
  rename_i s1 hreap
  obtain ⟨jobs, born, rfl, -, -⟩ := sweep_ok hreap
  obtain ⟨-, rfl⟩ := Prod.mk.inj (Except.ok.inj h)
  rw [recordPoll_credentials, leaseLoop_eq]
  rfl

theorem acknowledgeBridgeJob_credentials {input : AckInput} {now : Nat} {res : AckResult}
    (h : acknowledgeBridgeJob cfg input now s = .ok (res, s')) : s'.credentials = s.credentials := by
  unfold acknowledgeBridgeJob at h
  split at h
  · exact absurd h (by simp)
  split at h
  · obtain ⟨-, rfl⟩ := Prod.mk.inj (Except.ok.inj h)
    rfl
  split at h
  · obtain ⟨-, rfl⟩ := Prod.mk.inj (Except.ok.inj h)
    rfl
  split at h
  · split at h
    · obtain ⟨-, rfl⟩ := Prod.mk.inj (Except.ok.inj h)
      exact updateShard_credentials fun _ => rfl
    · obtain ⟨-, rfl⟩ := Prod.mk.inj (Except.ok.inj h)
      rfl
  split at h
  · obtain ⟨-, rfl⟩ := Prod.mk.inj (Except.ok.inj h)
    rfl
  · obtain rfl := congrArg Prod.snd (Except.ok.inj h)
    unfold acknowledgeLeased
    split
    · exact updateShard_credentials fun _ => rfl
    · exact updateShard_credentials fun _ => rfl

theorem renewBridgeLeases_credentials {input : RenewInput} {now : Nat} {res : RenewResult}
    (h : renewBridgeLeases cfg input now s = .ok (res, s')) : s'.credentials = s.credentials := by
  unfold renewBridgeLeases at h
  simp only at h
  obtain ⟨-, rfl⟩ := Prod.mk.inj (Except.ok.inj h)
  rw [renewLoop_store]
  exact updateShard_credentials fun _ => rfl

theorem enqueueCapture_credentials {ticket : CaptureTicket} {nextval now : Nat} {jobId : String}
    {res : EnqueueResult} (h : enqueueCapture ticket nextval jobId now s = .ok (res, s')) :
    s'.credentials = s.credentials := by
  simp only [enqueueCapture, Except.ok.injEq, Prod.mk.injEq] at h
  rw [← h.2, saveCapture_frame]
  unfold upsertJob
  split <;> rfl

theorem queueLatest_credentials {record jobId : String} {now : Nat} {res : QueueLatestResult}
    (h : queueLatestBridgeCapture record jobId now s = .ok (res, s')) :
    s'.credentials = s.credentials := by
  unfold queueLatestBridgeCapture at h
  split at h
  · exact absurd h (by simp)
  split at h
  · obtain ⟨-, rfl⟩ := Prod.mk.inj (Except.ok.inj h)
    rfl
  · simp only [Except.ok.injEq, Prod.mk.injEq] at h
    rw [← h.2]
    unfold upsertJob
    split <;> rfl

theorem deleteBridgeTarget_credentials {input : DeleteTargetInput} {res : Option CampaignTarget}
    (h : deleteBridgeTarget input s = .ok (res, s')) : s'.credentials = s.credentials := by
  rcases deleteBridgeTarget_ok h with rfl | ⟨t, -, -, rfl⟩
  · rfl
  · rfl

/-- A condition on the credentials of a store only. -/
def OnCredentials (I : Store → Prop) : Prop := ∀ s s', s'.credentials = s.credentials → I s → I s'

variable {I : Store → Prop}

theorem saveBinding_credentials {manager : String} {n : Nat}
    (h : saveBinding shardId manager s = .ok (n, s')) : s'.credentials = s.credentials := by
  have hframe := saveBinding_frame (managersOnly_refl s) h
  rw [hframe]
  rfl

/-- An enrolment leaves the credentials alone. -/
theorem upsertBridgeTarget_credentials (hI : Prog.Stable R I) (hcred : OnCredentials I)
    (input : BridgeTargetInput) : (upsertBridgeTarget cfg input).Keeps R I := by
  refine Prog.keeps_bind (Prog.keeps_lift hI _) fun e => ?_
  refine Prog.keeps_bind (assignShard_keeps hI e fun _ _ s _ s' hs hsave =>
    hcred s s' (saveBinding_credentials hsave) hs) fun shard => ?_
  exact Prog.keeps_bind (saveTarget_keeps hI (fun s _ hs => hcred s _ rfl hs) e shard) fun _ =>
    Prog.keeps_pure hI _

theorem setEnabled_credentials {record : String} {enabled : Bool} {ids : List String}
    (h : setEnabled record enabled s = .ok (ids, s')) : s'.credentials = s.credentials := by
  unfold setEnabled at h
  simp only at h
  obtain ⟨-, rfl⟩ := Prod.mk.inj (Except.ok.inj h)
  rfl

/-- A pause and a resume leave the credentials alone. -/
theorem setBridgeTargetEnabled_credentials (hI : Prog.Stable R I) (hcred : OnCredentials I)
    (record : String) (enabled : Bool) : (setBridgeTargetEnabled record enabled).Keeps R I := by
  refine Prog.keeps_bind (checkResume_keeps hI record enabled fun _ _ s _ s' hs hsave =>
    hcred s s' (saveBinding_credentials hsave) hs) fun _ => ?_
  unfold writeEnabled
  refine Prog.keeps_bind (Prog.keeps_exec hI fun s _ s' hs h =>
    hcred s s' (setEnabled_credentials h) hs) fun updated => ?_
  split
  · refine Prog.keeps_ite (Prog.keeps_pure hI _) (Prog.keeps_update hI fun s hs => ?_)
    exact hcred s _ rfl hs
  · exact Prog.keeps_throw _

/-- Only registrations and retirements write credentials. -/
def Call.writesCredentials : Call → Bool
  | .registerBridgeShard .. | .deleteBridgeShard .. => true
  | _ => false

/-- **The frame.** A call that is neither leaves every credential as it was. -/
theorem work_credentials {r : Reply} (hcall : e.call.writesCredentials = false)
    (h : e.work cfg s = .ok (r, s')) : s'.credentials = s.credentials := by
  have hcred : OnCredentials fun t => t.credentials = s.credentials := fun _ _ h hs => h.trans hs
  have halone : Prog.Stable Prog.Alone fun t : Store => t.credentials = s.credentials :=
    Prog.stable_alone
  cases he : e.call with
  | upsertBridgeTarget input =>
    simp only [Event.work, he] at h
    obtain ⟨a, hrun, -⟩ := Work.reply_ok.mp h
    exact (upsertBridgeTarget_credentials halone hcred input).run rfl hrun
  | beginEnqueue input dateNow =>
    simp only [Event.work, he] at h
    obtain ⟨ticket, hrun, -⟩ := Work.reply_ok.mp h
    have hkeeps : (beginEnqueue cfg input dateNow).Keeps Prog.Alone
        fun t => t.credentials = s.credentials := by
      refine Prog.keeps_bind (Prog.keeps_lift halone _) fun _ => ?_
      exact Prog.keeps_bind (upsertBridgeTarget_credentials halone hcred _) fun _ =>
        Prog.keeps_pure halone _
    exact hkeeps.run rfl hrun
  | enqueueCapture ticket nextval jobId =>
    simp only [Event.work, he] at h
    obtain ⟨res, hrun, -⟩ := Work.reply_ok.mp h
    exact enqueueCapture_credentials hrun
  | queueLatestBridgeCapture record jobId =>
    simp only [Event.work, he] at h
    obtain ⟨res, hrun, -⟩ := Work.reply_ok.mp h
    exact queueLatest_credentials hrun
  | registerBridgeShard shardId rawToken m => exact absurd hcall (by simp [he, Call.writesCredentials])
  | deleteBridgeShard shardId confirmed token dateNow =>
    exact absurd hcall (by simp [he, Call.writesCredentials])
  | leaseBridgeJobs req =>
    simp only [Event.work, he] at h
    obtain ⟨ls, hrun, -⟩ := Work.reply_ok.mp h
    exact leaseBridgeJobs_credentials hrun
  | acknowledgeBridgeJob input =>
    simp only [Event.work, he] at h
    obtain ⟨res, hrun, -⟩ := Work.reply_ok.mp h
    exact acknowledgeBridgeJob_credentials hrun
  | renewBridgeLeases input =>
    simp only [Event.work, he] at h
    obtain ⟨res, hrun, -⟩ := Work.reply_ok.mp h
    exact renewBridgeLeases_credentials hrun
  | setBridgeTargetEnabled record enabled =>
    simp only [Event.work, he] at h
    obtain ⟨res, hrun, -⟩ := Work.reply_ok.mp h
    exact (setBridgeTargetEnabled_credentials halone hcred record enabled).run rfl hrun
  | deleteBridgeTarget input =>
    simp only [Event.work, he] at h
    obtain ⟨res, hrun, -⟩ := Work.reply_ok.mp h
    exact deleteBridgeTarget_credentials hrun

/-! ## The two writers -/

theorem credential?_updateShard {f : ScriptShard → ScriptShard}
    (hf : ∀ shard, (f shard).shardId = shard.shardId) (id shardId : String) (s : Store) :
    (updateShard id f s).credential? shardId =
      (s.shard? shardId).map fun shard =>
        if shardId = id then (f shard).credential else shard.credential := by
  have hrow : (updateShard id f s).shard? shardId =
      (s.shard? shardId).map fun shard => if shard.shardId = id then f shard else shard :=
    find?_updateKey hf id shardId
  rw [credential?_eq, hrow, Option.map_map]
  refine Option.map_congr fun shard hshard => ?_
  have hkey : shard.shardId = shardId := by simpa using List.find?_some hshard
  rw [Function.comp_apply, hkey, apply_ite ScriptShard.credential]

/-- What a registration makes of the credential it finds, if there is one. -/
def Credential.register (shardId tokenHash : String) : Option Credential → Credential
  | none => ⟨shardId, tokenHash, true, none⟩
  | some c => { c with tokenHash := tokenHash, enabled := true }

theorem credential?_saveShard (id tokenHash shardId : String) (s : Store) :
    (saveShard id tokenHash s).credential? shardId =
      if shardId = id then some (Credential.register id tokenHash (s.credential? id))
      else s.credential? shardId := by
  cases hid : s.shard? id with
  | none =>
    have hrows : saveShard id tokenHash s =
        { s with shards := s.shards ++ [{ shardId := id, tokenHash := tokenHash }] } := by
      unfold saveShard
      rw [hid]
    rw [hrows, credential?_eq, credential?_eq, credential?_eq, hid]
    unfold Store.shard? at hid ⊢
    rw [List.find?_append]
    by_cases hsame : shardId = id
    · subst hsame
      rw [hid]
      simp [Credential.register, ScriptShard.credential]
    · rw [if_neg hsame, List.find?_cons_of_neg (by simpa using Ne.symm hsame), List.find?_nil,
        Option.or_none]
  | some shard =>
    have hrows : saveShard id tokenHash s = updateShard id
        (fun shard => { shard with tokenHash := tokenHash, enabled := true }) s := by
      unfold saveShard
      rw [hid]
      rfl
    rw [hrows, credential?_updateShard, credential?_eq, credential?_eq, hid]
    swap
    · exact fun _ => rfl
    by_cases hsame : shardId = id
    · subst hsame
      rw [hid]
      simp [Credential.register, ScriptShard.credential]
    · simp [hsame]

/-- What a retirement makes of the credential of its shard. -/
def Credential.retire (tokenHash : String) (now : Nat) (c : Credential) : Credential :=
  { c with enabled := false, deletedAt := some now, tokenHash := tokenHash }

theorem shardChar_not_space {c : Char} (h : isShardChar c = true) : isJsSpace c = false := by
  have hascii : c.toNat < 0x2000 := by
    unfold isShardChar at h
    delta Char.isAlphanum Char.isAlpha Char.isUpper Char.isLower Char.isDigit at h
    simp only [Bool.or_eq_true, Bool.and_eq_true, decide_eq_true_eq, List.mem_cons,
      List.not_mem_nil, or_false] at h
    rcases h with ((⟨-, h⟩ | ⟨-, h⟩) | ⟨-, h⟩) | rfl | rfl | rfl | rfl
    · exact Nat.lt_of_le_of_lt (UInt32.le_iff_toNat_le.mp h) (by decide)
    · exact Nat.lt_of_le_of_lt (UInt32.le_iff_toNat_le.mp h) (by decide)
    · exact Nat.lt_of_le_of_lt (UInt32.le_iff_toNat_le.mp h) (by decide)
    all_goals decide
  refine Bool.eq_false_iff.mpr fun hs => ?_
  unfold isJsSpace at hs
  simp only [Bool.or_eq_true, decide_eq_true_eq, Bool.and_eq_true] at hs
  rcases hs with hs | hs
  · simp only [List.mem_cons, List.not_mem_nil, or_false] at hs
    rcases hs with rfl | rfl | rfl | rfl | rfl | rfl | rfl | rfl | rfl | rfl | rfl | rfl | rfl | rfl
    all_goals exact absurd h (by decide)
  · have hlo : 0x2000 ≤ c.toNat := UInt32.le_iff_toNat_le.mp hs.1
    omega

theorem trim_shardId {id : String} (h : isShardId id = true) : trim id = id := by
  refine trim_eq fun c hc => ?_
  unfold isShardId at h
  split at h
  · exact absurd h (by simp)
  · rename_i hlist
    simp only [Bool.and_eq_true, List.all_eq_true] at h
    rw [hlist] at hc
    rcases List.mem_cons.mp hc with rfl | hc
    · exact shardChar_not_space (by simp [isShardChar, h.1.1])
    · exact shardChar_not_space (h.1.2 c hc)

/-- A normalized name is its own normal form. -/
theorem normalizeFleetShardId_ok {value id : String} (h : normalizeFleetShardId value = .ok id) :
    trim value = id ∧ trim id = id ∧ id ≠ "" := by
  unfold normalizeFleetShardId at h
  simp only at h
  split at h
  · rename_i hid
    obtain rfl := Except.ok.inj h
    refine ⟨rfl, trim_shardId hid, fun hempty => ?_⟩
    rw [hempty] at hid
    exact absurd hid (by decide)
  · exact absurd h (by simp)

/-- **A registration by itself.** -/
theorem registerBridgeShard_run {rawToken m : String} {r : ShardIdentity}
    (h : (registerBridgeShard cfg shardId rawToken m).run s = .ok (r, s')) :
    normalizeFleetShardId shardId = .ok r.shardId ∧ 24 ≤ utf16Length rawToken ∧
      s.shardDeleted r.shardId = false ∧
      ∀ other, s'.credential? other = if other = r.shardId then
        some (Credential.register r.shardId (cfg.digest rawToken) (s.credential? r.shardId))
      else s.credential? other := by
  unfold registerBridgeShard at h
  obtain ⟨id, s1, h1, k1⟩ := Prog.run_bind_ok.mp h
  obtain ⟨_, s2, h2, k2⟩ := Prog.run_bind_ok.mp k1
  obtain ⟨manager, s3, h3, k3⟩ := Prog.run_bind_ok.mp k2
  obtain ⟨bound, s4, h4, k4⟩ := Prog.run_bind_ok.mp k3
  obtain ⟨_, s5, h5, k5⟩ := Prog.run_bind_ok.mp k4
  clear h k1 k2 k3 k4
  obtain ⟨hid, rfl⟩ := Prog.run_lift_ok.mp h1
  obtain ⟨hlong, h2⟩ := Prog.run_require_ok.mp h2
  obtain ⟨-, rfl⟩ := Prod.mk.inj h2
  obtain ⟨-, rfl⟩ := Prog.run_lift_ok.mp h3
  simp only [Prog.run_update, Except.ok.injEq, Prod.mk.injEq] at h5
  obtain ⟨-, rfl⟩ := h5
  obtain ⟨rfl, rfl⟩ := Prod.mk.inj (Except.ok.inj k5)
  have hlive : s2.shardDeleted id = false := by
    unfold bindFleetShardManager at h4
    obtain ⟨_, s6, h6, -⟩ := Prog.run_bind_ok.mp h4
    unfold assertShardNotDeleted at h6
    obtain ⟨deleted, s7, h7, k7⟩ := Prog.run_bind_ok.mp h6
    simp only [Prog.run_query, Except.ok.injEq, Prod.mk.injEq] at h7
    obtain ⟨rfl, rfl⟩ := h7
    exact (Prog.run_require_ok.mp k7).1
  have hcredentials : s4.credentials = s2.credentials := by
    rw [bindFleetShardManager_frame h4]
    rfl
  refine ⟨hid, hlong, hlive, fun other => ?_⟩
  rw [credential?_saveShard, credential?_congr hcredentials, credential?_congr hcredentials]

/-- **A retirement by itself.** -/
theorem deleteBridgeShard_run {confirmed token : String} {now dateNow : Nat} {r : ShardDeletion}
    (h : (deleteBridgeShard cfg shardId confirmed token now dateNow).run s = .ok (r, s')) :
    normalizeFleetShardId shardId = .ok r.shardId ∧
      ∀ other, other ≠ r.shardId → s'.credential? other = s.credential? other := by
  unfold deleteBridgeShard at h
  obtain ⟨id, s1, h1, k1⟩ := Prog.run_bind_ok.mp h
  obtain ⟨_, s2, h2, k2⟩ := Prog.run_bind_ok.mp k1
  obtain ⟨found, s3, h3, k3⟩ := Prog.run_bind_ok.mp k2
  clear h k1 k2
  obtain ⟨hid, rfl⟩ := Prog.run_lift_ok.mp h1
  obtain ⟨-, h2⟩ := Prog.run_require_ok.mp h2
  obtain ⟨-, rfl⟩ := Prod.mk.inj h2
  simp only [Prog.run_query, Except.ok.injEq, Prod.mk.injEq] at h3
  obtain ⟨rfl, rfl⟩ := h3
  split at k3
  · exact absurd k3 (by simp)
  split at k3
  · obtain ⟨rfl, rfl⟩ := Prod.mk.inj (Except.ok.inj k3)
    exact ⟨hid, fun other _ => rfl⟩
  · obtain ⟨assigned, s4, h4, k4⟩ := Prog.run_bind_ok.mp k3
    obtain ⟨_, s5, h5, k5⟩ := Prog.run_bind_ok.mp k4
    obtain ⟨leased, s6, h6, k6⟩ := Prog.run_bind_ok.mp k5
    obtain ⟨_, s7, h7, k7⟩ := Prog.run_bind_ok.mp k6
    obtain ⟨_, s8, h8, k8⟩ := Prog.run_bind_ok.mp k7
    obtain ⟨_, s9, h9, k9⟩ := Prog.run_bind_ok.mp k8
    clear k3 k4 k5 k6 k7 k8
    simp only [Prog.run_query, Except.ok.injEq, Prod.mk.injEq] at h4 h6
    obtain ⟨rfl, rfl⟩ := h4
    obtain ⟨-, h5⟩ := Prog.run_require_ok.mp h5
    obtain ⟨-, rfl⟩ := Prod.mk.inj h5
    obtain ⟨rfl, rfl⟩ := h6
    obtain ⟨-, h7⟩ := Prog.run_require_ok.mp h7
    obtain ⟨-, rfl⟩ := Prod.mk.inj h7
    obtain ⟨-, h8⟩ := Prog.run_require_ok.mp h8
    obtain ⟨-, rfl⟩ := Prod.mk.inj h8
    simp only [Prog.run_update, Except.ok.injEq, Prod.mk.injEq] at h9
    obtain ⟨-, rfl⟩ := h9
    obtain ⟨rfl, rfl⟩ := Prod.mk.inj (Except.ok.inj k9)
    refine ⟨hid, fun other hother => ?_⟩
    refine (credential?_updateShard ?_ id other s8).trans ?_
    · exact fun _ => rfl
    · have hother : other ≠ id := hother
      rw [credential?_eq]
      simp only [if_neg hother]

end LinkSuffix
