import LinkSuffix.Shards.Manager

/-!
# The capacity of a shard

`upsertBridgeTarget` counts the other enabled campaigns of the shard it wants and moves on where
there are `SHARD_CAPACITY` of them; `setBridgeTargetEnabled` counts nothing. `bridgeShardManifest`
sends the accounts of the enabled campaigns, and the worker script refuses a manifest of more than
fifty.

* `assignShard_room`: an enrolment is given a shard with room for it, which a new name is too.
* `RoomToResume`: a paused campaign is resumed only where its shard has room.
* **`shard_capacity`**: while that is kept, every shard has at most `SHARD_CAPACITY` enabled
  campaigns and its manifest is never refused.
* **`resume_overfills`**: a campaign resumed after its place was taken is the forty-first.
-/

namespace LinkSuffix

open Lib

/-! ## The manifest and the worker script -/

/-- What `bridgeShardManifest` sends, without the execution window. -/
structure ShardManifest where
  shardId : String
  managerCustomerId : String
  accountIds : List String
  campaignCount : Nat
  capacity : Nat
  deriving DecidableEq

/-- The campaigns a manifest counts. -/
def Store.manifestTargets (s : Store) (shardId : String) : List CampaignTarget :=
  s.targets.filter fun t => t.shardId = shardId ∧ t.enabled ∧ t.archivedAt = none

/-- `array_agg(DISTINCT … ORDER BY …)`. -/
def aggregateDistinct (values : List String) : List String :=
  values.dedup.mergeSort fun a b => a ≤ b

/-- `bridgeShardManifest`. -/
def bridgeShardManifest (s : Store) (shardId : String) : Except StoreError ShardManifest := do
  let id := trim shardId
  if id = "" then throw (fail "shardId is required")
  if (s.shard? id).all fun shard => !shard.enabled then
    throw (fail "Fleet shard was not found or is disabled")
  let targets := s.manifestTargets id
  let managerIds := (aggregateDistinct (managersOf targets) ++ (s.binding id).toList).eraseDups
  if 1 < managerIds.length then
    throw (fail ("Fleet shard " ++ id ++ " contains campaigns from multiple MCC accounts"))
  return {
    shardId := id
    managerCustomerId := managerIds.head?.getD ""
    accountIds := aggregateDistinct (targets.map (·.customerId))
    campaignCount := targets.length
    capacity := shardCapacity }

/-- `CONFIG.MAX_ACCOUNTS`. -/
def maxAccounts : Nat := 50

/-- How a run of the worker script ends. -/
inductive WorkerRun where
  | wrongManager (message : String)
  | tooManyAccounts
  | preview
  | yielded
  | empty
  | started (accountIds : List String)
  deriving DecidableEq

/-- `main` of the worker script. `window` is whether the execution window yields, if it is valid. -/
def workerMain (configuredManager installedManager : String) (preview : Bool) (window : Option Bool)
    (manifest : ShardManifest) : WorkerRun :=
  let manifestManager := normalizeId manifest.managerCustomerId
  if configuredManager ≠ "" ∧ installedManager ≠ configuredManager then
    .wrongManager ("This worker is for MCC " ++ configuredManager ++ ", but is installed in MCC " ++
      installedManager ++ ". No campaign was changed.")
  else if preview then .preview
  else if manifestManager ≠ "" ∧ installedManager ≠ manifestManager then
    .wrongManager ("This shard belongs to MCC " ++ manifestManager ++
      ", but this script is running in MCC " ++ installedManager ++ ".")
  else if window.all (· = true) then .yielded
  else if manifest.accountIds = [] then .empty
  else if maxAccounts < manifest.accountIds.length then .tooManyAccounts
  else .started manifest.accountIds

/-! ## Counting enabled campaigns -/

/-- The enabled campaigns of a shard. -/
def Store.enabledCount (s : Store) (shardId : String) : Nat :=
  s.targets.countP fun t => t.enabled ∧ t.shardId = shardId

variable {cfg : Config} {f : Fleet} {e : Event} {s s' : Store} {en : Enrolment} {shardId : String}

theorem occupants_length (s : Store) (shardId record : String) :
    (s.occupants shardId record).length =
      s.targets.countP fun t => t.enabled ∧ t.shardId = shardId ∧ t.campaignRecordId ≠ record :=
  (List.countP_eq_length_filter).symm

/-! ## The number at the end of a new name -/

theorem parseDigits_padStart3 (n : Nat) : parseDigits (padStart3 n).toList = some n := by
  have hlist : (padStart3 n).toList =
      List.replicate (3 - (Nat.toDigits 10 n).length) '0' ++ Nat.toDigits 10 n := by
    simp [padStart3]
  have hne : (padStart3 n).toList ≠ [] := by
    rw [hlist]
    simp [Nat.toDigits_ne_nil]
  have hall : (padStart3 n).toList.all Char.isDigit = true := by
    rw [hlist, List.all_append, Bool.and_eq_true]
    refine ⟨by simp, List.all_eq_true.mpr fun c hc => ?_⟩
    exact Nat.isDigit_of_mem_toDigits (by decide) (by decide) hc
  have hvalue : Nat.ofDigitChars 10 (padStart3 n).toList 0 = n := by
    rw [hlist, Nat.ofDigitChars_append, Nat.ofDigitChars_replicate_zero, Nat.mul_zero,
      Nat.ofDigitChars_ten_toDigits]
  unfold parseDigits
  rw [if_pos ⟨hne, hall⟩]
  exact congrArg some (Nat.ofDigitChars_eq_foldl.symm.trans hvalue)

theorem shardNumber_append (shardPrefix : String) (n : Nat) :
    shardNumber shardPrefix (shardPrefix ++ padStart3 n) = n := by
  have hprefix : hasPrefix shardPrefix (shardPrefix ++ padStart3 n) = true := by
    simp [hasPrefix]
  have hdrop : (shardPrefix ++ padStart3 n).toList.drop shardPrefix.length =
      (padStart3 n).toList := by
    rw [String.toList_append, ← String.length_toList, List.drop_left]
  unfold shardNumber
  rw [if_pos hprefix, hdrop, parseDigits_padStart3]
  rfl

theorem le_foldl_max {α : Type} (g : α → Nat) (xs : List α) (n : Nat) :
    n ≤ xs.foldl (fun n x => max n (g x)) n ∧
      ∀ x ∈ xs, g x ≤ xs.foldl (fun n x => max n (g x)) n := by
  induction xs generalizing n with
  | nil => exact ⟨Nat.le_refl n, fun x hx => absurd hx List.not_mem_nil⟩
  | cons y ys ih =>
    obtain ⟨hstart, hrest⟩ := ih (max n (g y))
    rw [List.foldl_cons]
    refine ⟨by omega, fun x hx => ?_⟩
    rcases List.mem_cons.mp hx with rfl | hmem
    · omega
    · exact hrest x hmem

/-- A new name is none of the known ones. -/
theorem nextShardId_new (s : Store) (shardPrefix : String) :
    s.nextShardId shardPrefix ∉ s.shardIds shardPrefix := by
  intro hmem
  have hle := (le_foldl_max (shardNumber shardPrefix) (s.shardIds shardPrefix) 0).2 _ hmem
  have hnumber := shardNumber_append shardPrefix
    ((s.shardIds shardPrefix).foldl (fun n id => max n (shardNumber shardPrefix id)) 0 + 1)
  unfold Store.nextShardId at hle
  rw [hnumber] at hle
  omega

theorem hasPrefix_nextShardId (s : Store) (shardPrefix : String) :
    hasPrefix shardPrefix (s.nextShardId shardPrefix) = true := by
  simp [hasPrefix, Store.nextShardId]

/-- No campaign is on a shard whose name is new. -/
theorem nextShardId_unused (s : Store) (shardPrefix : String) :
    ∀ t ∈ s.targets, t.shardId ≠ s.nextShardId shardPrefix := by
  intro t ht hname
  refine nextShardId_new s shardPrefix (List.mem_dedup.mpr (List.mem_filter.mpr ⟨?_, ?_⟩))
  · rw [← hname]
    exact List.mem_append_right _ (List.mem_map_of_mem ht)
  · exact hasPrefix_nextShardId s shardPrefix

/-! ## The shard an enrolment is given -/

/-- The campaigns the occupancy query counts on a shard. -/
def Room (s : Store) (record shardId : String) : Prop :=
  (s.occupants shardId record).length < shardCapacity

theorem chooseShard_room {occupied : Nat} {retired : Bool}
    (hoccupied : occupied = (s.occupants en.preferred en.campaignRecordId).length)
    (h : (chooseShard en occupied retired).run s = .ok (shardId, s')) :
    Room s en.campaignRecordId shardId ∧ s' = s := by
  unfold chooseShard at h
  by_cases hfull : shardCapacity ≤ occupied ∨ retired = true
  · rw [if_pos hfull] at h
    obtain ⟨available, s1, h1, k1⟩ := Prog.run_bind_ok.mp h
    simp only [Prog.run_query, Except.ok.injEq, Prod.mk.injEq] at h1
    obtain ⟨rfl, rfl⟩ := h1
    cases havailable : s.availableShard en with
    | some found =>
      rw [havailable] at k1
      obtain ⟨rfl, rfl⟩ := Prod.mk.inj (Except.ok.inj k1)
      have hmem := List.argmin_mem havailable
      have hshard := (List.mem_filter.mp hmem).2
      unfold Store.shardAvailable at hshard
      simp only [Bool.and_eq_true, decide_eq_true_eq] at hshard
      exact ⟨hshard.1.2, rfl⟩
    | none =>
      rw [havailable] at k1
      simp only [Prog.run_query, Except.ok.injEq, Prod.mk.injEq] at k1
      obtain ⟨rfl, rfl⟩ := k1
      have hnone : s.occupants (s.nextShardId en.shardPrefix) en.campaignRecordId = [] := by
        refine List.filter_eq_nil_iff.mpr fun t ht => ?_
        have hname := nextShardId_unused s en.shardPrefix t ht
        simp [hname]
      refine ⟨?_, rfl⟩
      unfold Room
      rw [hnone]
      decide
  · rw [if_neg hfull] at h
    obtain ⟨rfl, rfl⟩ := Prod.mk.inj (Except.ok.inj h)
    refine ⟨?_, rfl⟩
    unfold Room
    omega

theorem checkOccupants_run {occupied : Nat} (h : (checkOccupants en).run s = .ok (occupied, s')) :
    occupied = (s.occupants en.preferred en.campaignRecordId).length ∧ s' = s := by
  unfold checkOccupants at h
  obtain ⟨occupants, s1, h1, k1⟩ := Prog.run_bind_ok.mp h
  obtain ⟨_, s2, h2, k2⟩ := Prog.run_bind_ok.mp k1
  obtain ⟨_, s3, h3, k3⟩ := Prog.run_bind_ok.mp k2
  simp only [Prog.run_query, Except.ok.injEq, Prod.mk.injEq] at h1
  obtain ⟨rfl, rfl⟩ := h1
  obtain ⟨-, h2⟩ := Prog.run_require_ok.mp h2
  obtain ⟨-, rfl⟩ := Prod.mk.inj h2
  obtain ⟨-, h3⟩ := Prog.run_require_ok.mp h3
  obtain ⟨-, rfl⟩ := Prod.mk.inj h3
  obtain ⟨rfl, rfl⟩ := Prod.mk.inj (Except.ok.inj k3)
  exact ⟨rfl, rfl⟩

theorem bindPreferred_frame {retired : Bool} (h : (bindPreferred en).run s = .ok (retired, s')) :
    ManagersOnly s s' := by
  have hI : Prog.Stable Prog.Alone (ManagersOnly s) := Prog.stable_alone
  refine Prog.Keeps.run (I := ManagersOnly s) ?_ (managersOnly_refl s) h
  refine Prog.keeps_bind (Prog.keeps_query hI _) fun retired => Prog.keeps_ite ?_ ?_
  · exact Prog.keeps_bind (bindFleetShardManager_keeps hI _ _
      fun _ _ _ _ hs hsave => saveBinding_frame hs hsave) fun _ => Prog.keeps_pure hI _
  · exact Prog.keeps_pure hI _

/-- **An enrolment is given a shard with room for it.** -/
theorem assignShard_room (h : (assignShard en).run s = .ok (shardId, s')) :
    Room s en.campaignRecordId shardId := by
  unfold assignShard at h
  obtain ⟨retired, s1, h1, k1⟩ := Prog.run_bind_ok.mp h
  obtain ⟨occupied, s2, h2, k2⟩ := Prog.run_bind_ok.mp k1
  obtain ⟨assigned, s3, h3, k3⟩ := Prog.run_bind_ok.mp k2
  obtain ⟨_, s4, h4, k4⟩ := Prog.run_bind_ok.mp k3
  obtain ⟨rfl, rfl⟩ := Prod.mk.inj (Except.ok.inj k4)
  have hframe : s1 = { s with shardManagers := s1.shardManagers } := bindPreferred_frame h1
  obtain ⟨hoccupied, rfl⟩ := checkOccupants_run h2
  have hroom := (chooseShard_room hoccupied h3).1
  rw [hframe] at hroom
  exact hroom

theorem upsertBridgeTarget_room {input : BridgeTargetInput} {a : Assignment}
    (h : (upsertBridgeTarget cfg input).run s = .ok (a, s')) :
    ∃ en, checkEnrolment cfg input = .ok en ∧ Room s en.campaignRecordId a.shardId := by
  unfold upsertBridgeTarget at h
  obtain ⟨en, s1, h1, k1⟩ := Prog.run_bind_ok.mp h
  obtain ⟨shardId, s2, h2, k2⟩ := Prog.run_bind_ok.mp k1
  obtain ⟨_, s3, h3, k3⟩ := Prog.run_bind_ok.mp k2
  obtain ⟨hen, rfl⟩ := Prog.run_lift_ok.mp h1
  obtain ⟨rfl, rfl⟩ := Prod.mk.inj (Except.ok.inj k3)
  exact ⟨en, hen, assignShard_room h2⟩

/-- A committed enrolment writes its row on a shard with room. -/
theorem commits_enrols {r : Reply} (hc : Commits cfg f e r) (he : e.enrols cfg en) :
    ∃ shardId, Enrols cfg en shardId f.store ((fleet cfg).next f e).store ∧
      Room f.store en.campaignRecordId shardId := by
  obtain ⟨-, hw⟩ := hc.work
  rcases he with ⟨input, hcall, hen⟩ | ⟨input, dateNow, hcall, hen⟩
  · simp only [Event.work, hcall] at hw
    obtain ⟨a, h, -⟩ := Work.reply_ok.mp hw
    obtain ⟨en', hen', -, henrols⟩ := upsertBridgeTarget_ok (store_unique f) h
    obtain ⟨en'', hen'', hroom⟩ := upsertBridgeTarget_room h
    obtain rfl : en = en' := Except.ok.inj (hen.symm.trans hen')
    obtain rfl : en = en'' := Except.ok.inj (hen.symm.trans hen'')
    exact ⟨a.shardId, henrols, hroom⟩
  · simp only [Event.work, hcall] at hw
    obtain ⟨ticket, h, -⟩ := Work.reply_ok.mp hw
    obtain ⟨en', hen', henrols, -⟩ := beginEnqueue_ok (store_unique f) h
    obtain rfl : en = en' := Except.ok.inj (hen.symm.trans hen')
    unfold beginEnqueue at h
    obtain ⟨_, s1, h1, k1⟩ := Prog.run_bind_ok.mp h
    obtain ⟨a, s2, h2, k2⟩ := Prog.run_bind_ok.mp k1
    obtain ⟨-, rfl⟩ := Prog.run_lift_ok.mp h1
    obtain ⟨rfl, rfl⟩ := Prod.mk.inj (Except.ok.inj k2)
    obtain ⟨en', hen', hroom⟩ := upsertBridgeTarget_room h2
    obtain rfl : en = en' := Except.ok.inj (hen.symm.trans hen')
    exact ⟨a.shardId, henrols, hroom⟩

/-! ## The count after an event -/

/-- Every shard has at most `SHARD_CAPACITY` enabled campaigns. -/
def WithinCapacity (s : Store) : Prop := ∀ shardId, s.enabledCount shardId ≤ shardCapacity

/-- The enabled campaigns of a shard, but for one target, are among those an enrolment counts. -/
theorem others_le_occupants {record targetId : String} (shardId : String)
    (h : ∀ t ∈ s.targets, t.campaignRecordId = record → t.targetId = targetId) :
    s.targets.countP (fun t => (t.enabled ∧ t.shardId = shardId : Bool) && t.targetId ≠ targetId) ≤
      (s.occupants shardId record).length := by
  rw [occupants_length]
  refine List.countP_mono_left fun t ht hp => ?_
  simp only [ne_eq, decide_not, Bool.and_eq_true, decide_eq_true_eq, Bool.not_eq_true',
    decide_eq_false_iff_not] at hp ⊢
  exact ⟨hp.1.1, hp.1.2, fun hr => hp.2 (h t ht hr)⟩

/-- An enrolment on a shard with room. -/
theorem Enrols.withinCapacity (h : Enrols cfg en shardId s s') (hs : s.Unique)
    (hroom : Room s en.campaignRecordId shardId) (hcap : WithinCapacity s) :
    WithinCapacity s' := by
  intro other
  have hothers := others_le_occupants other h.record
  have hle := hcap other
  unfold Store.enabledCount at hle ⊢
  rcases h.targets with ⟨old, hold, htargets⟩ | ⟨hnone, htargets⟩
  · obtain ⟨hmem, hid⟩ := (target?_eq_some_iff hs).mp hold
    have hcount := countP_updateKey (p := fun t => t.enabled ∧ t.shardId = other)
      (f := fun _ => en.row cfg shardId (some old)) hs.target_key hmem
    have hsplit := countP_split (p := fun t => t.enabled ∧ t.shardId = other) hs.target_key hmem
    rw [hid] at hcount hsplit
    rw [htargets, hcount]
    by_cases hhere : shardId = other
    · subst hhere
      unfold Room at hroom
      split <;> omega
    · have hrow : ¬((en.row cfg shardId (some old)).enabled ∧
          (en.row cfg shardId (some old)).shardId = other) := fun hr => hhere hr.2
      rw [if_neg (by simpa using hrow)]
      omega
  · have hfresh : ∀ t ∈ s.targets, t.targetId ≠ en.id := by
      intro t ht hid
      rw [(target?_eq_some_iff hs).mpr ⟨ht, hid⟩] at hnone
      exact absurd hnone (by simp)
    have hsame : s.targets.countP (fun t => (t.enabled ∧ t.shardId = other : Bool)) ≤
        s.targets.countP
          (fun t => (t.enabled ∧ t.shardId = other : Bool) && t.targetId ≠ en.id) := by
      refine List.countP_mono_left fun t ht hp => ?_
      simpa [hfresh t ht] using hp
    rw [htargets, List.countP_append, List.countP_singleton]
    by_cases hhere : shardId = other
    · subst hhere
      unfold Room at hroom
      split <;> omega
    · have hrow : ¬((en.row cfg shardId none).enabled ∧
          (en.row cfg shardId none).shardId = other) := fun hr => hhere hr.2
      rw [if_neg (by simpa using hrow)]
      omega

/-- One row rewritten on its shard, and enabled only if it was or its shard has room. -/
theorem withinCapacity_updateKey {t : CampaignTarget} {g : CampaignTarget → CampaignTarget}
    (hs : s.Unique) (ht : t ∈ s.targets) (hcap : WithinCapacity s)
    (hshard : (g t).shardId = t.shardId)
    (hroom : (g t).enabled = true → t.enabled = true ∨ s.enabledCount t.shardId < shardCapacity)
    (h : s'.targets = updateKey (·.targetId) t.targetId g s.targets) : WithinCapacity s' := by
  intro other
  have hle := hcap other
  have hcount := countP_updateKey (p := fun t => t.enabled ∧ t.shardId = other)
    (f := g) hs.target_key ht
  have hsplit := countP_split (p := fun t => t.enabled ∧ t.shardId = other) hs.target_key ht
  unfold Store.enabledCount at hle hroom ⊢
  rw [h, hcount]
  by_cases hnow : (g t).enabled = true ∧ (g t).shardId = other
  · rw [if_pos (by simpa using hnow)]
    obtain ⟨henabled, hother⟩ := hnow
    have hon : t.shardId = other := hshard.symm.trans hother
    rcases hroom henabled with hwas | hfree
    · rw [if_pos (by simp [hwas, hon])] at hsplit
      omega
    · rw [hon] at hfree
      split at hsplit <;> omega
  · rw [if_neg (by simpa using hnow)]
    omega

/-- A paused campaign is resumed only where its shard has room. -/
def RoomToResume (f : Fleet) (e : Event) : Prop :=
  match e.call with
  | .setBridgeTargetEnabled record true =>
    ∀ t ∈ f.store.targets, t.campaignRecordId = record → t.archivedAt = none →
      t.enabled = true ∨ f.store.enabledCount t.shardId < shardCapacity
  | _ => True

instance (f : Fleet) (e : Event) : Decidable (RoomToResume f e) := by
  unfold RoomToResume
  split <;> infer_instance

/-- **The step lemma.** -/
theorem withinCapacity_step (cfg : Config) (f : Fleet) (e : Event) (hcap : WithinCapacity f.store)
    (hroom : RoomToResume f e) : WithinCapacity ((fleet cfg).next f e).store := by
  have hs := store_unique f
  rcases next_store cfg f e with ⟨r, hc⟩ | hidle
  swap
  · rwa [hidle]
  cases next_targets cfg f e with
  | same h =>
    intro shardId
    unfold Store.enabledCount
    rw [h]
    exact hcap shardId
  | enrolled he _ =>
    obtain ⟨shardId, henrols, hfree⟩ := commits_enrols hc he
    exact henrols.withinCapacity hs hfree hcap
  | switched he h =>
    rename_i record enabled
    obtain ⟨t, ht, hrecord, hlive, htargets, -⟩ := h.target
    refine withinCapacity_updateKey hs ht hcap rfl (fun henabled => ?_) htargets
    obtain rfl : enabled = true := henabled
    unfold RoomToResume at hroom
    rw [he] at hroom
    exact hroom t ht hrecord hlive
  | applied he hrow hx h hjobs =>
    rw [← hrow.targetId] at h
    exact withinCapacity_updateKey hs hrow.target hcap rfl (fun henabled => Or.inl henabled) h
  | removed h =>
    rename_i t
    obtain ⟨input, -, -, -, h⟩ := h
    intro shardId
    unfold Store.enabledCount
    rw [h]
    exact Nat.le_trans List.filter_sublist.countP_le (hcap shardId)

theorem withinCapacity_initial : WithinCapacity Fleet.initial.store :=
  fun _ => Nat.zero_le _

/-! ## The manifest -/

theorem length_aggregateDistinct (values : List String) :
    (aggregateDistinct values).length ≤ values.length := by
  unfold aggregateDistinct
  rw [List.length_mergeSort]
  exact (List.dedup_sublist values).length_le

theorem manifestTargets_le (s : Store) (shardId : String) :
    (s.manifestTargets shardId).length ≤ s.enabledCount shardId := by
  unfold Store.manifestTargets Store.enabledCount
  rw [← List.countP_eq_length_filter]
  refine List.countP_mono_left fun t _ ht => ?_
  simp only [decide_eq_true_eq] at ht ⊢
  exact ⟨ht.2.1, ht.1⟩

/-- A manifest lists at most one account for each enabled campaign. -/
theorem manifest_accounts {manifest : ShardManifest}
    (h : bridgeShardManifest s shardId = .ok manifest) :
    manifest.accountIds.length ≤ s.enabledCount manifest.shardId ∧
      manifest.capacity = shardCapacity := by
  unfold bridgeShardManifest at h
  simp only [bind, Except.bind] at h
  split at h
  · exact absurd h (by simp)
  split at h
  · exact absurd h (by simp)
  split at h
  · exact absurd h (by simp)
  obtain rfl := Except.ok.inj h
  refine ⟨?_, rfl⟩
  have hlist := length_aggregateDistinct
    ((s.manifestTargets (trim shardId)).map (·.customerId))
  rw [List.length_map] at hlist
  exact Nat.le_trans hlist (manifestTargets_le s (trim shardId))

/-- The worker script refuses only manifests of more than fifty accounts. -/
theorem workerMain_accepts {configuredManager installedManager : String} {preview : Bool}
    {window : Option Bool} {manifest : ShardManifest}
    (h : manifest.accountIds.length ≤ maxAccounts) :
    workerMain configuredManager installedManager preview window manifest ≠ .tooManyAccounts := by
  have hfew : ¬maxAccounts < manifest.accountIds.length := Nat.not_lt.mpr h
  unfold workerMain
  simp only
  split
  · simp
  split
  · simp
  split
  · simp
  split
  · simp
  split
  · simp
  simp

/-! ## Every run -/

theorem dedup_of_same {xs : List String} {x : String} (hne : xs ≠ []) (h : ∀ y ∈ xs, y = x) :
    xs.dedup = [x] := by
  rw [List.eq_replicate_of_mem h]
  exact List.replicate_dedup (by simpa using hne)

/-- A live shard that is bound to one manager, as are all its campaigns. -/
structure BoundOnly (s : Store) (shardId manager : String) : Prop where
  live : s.shardDeleted shardId = false
  bound : s.binding shardId = some manager
  targets : ∀ t ∈ s.targets, t.shardId = shardId → t.managerCustomerId = manager
  digits : isDigits 10 10 manager = true

theorem BoundOnly.bind {manager : String} (h : BoundOnly s shardId manager) :
    (bindFleetShardManager shardId manager).run s = .ok (manager, s) := by
  have hassigned : ∀ x ∈ s.assignedManagers shardId, x = manager := by
    intro x hx
    obtain ⟨t, ht, rfl⟩ := List.mem_map.mp (List.mem_dedup.mp hx)
    obtain ⟨hmem, hshard⟩ := List.mem_filter.mp ht
    simp only [decide_eq_true_eq] at hshard
    exact h.targets t hmem hshard.1
  have hsame : ∀ x ∈ (s.binding shardId).toList ++ s.assignedManagers shardId, x = manager := by
    intro x hx
    rcases List.mem_append.mp hx with hx | hx
    · simpa [h.bound, eq_comm] using hx
    · exact hassigned x hx
  have hne : manager ≠ "" := by
    rintro rfl
    exact absurd h.digits (by decide)
  have hcollect : collectManagers ((s.binding shardId).toList ++ s.assignedManagers shardId)
      manager = .ok [manager] := by
    rw [collectManagers_digits fun x hx => (hsame x hx) ▸ h.digits, if_neg hne,
      dedup_of_same (x := manager) (by simp)]
    intro y hy
    rcases List.mem_append.mp hy with hy | hy
    · exact hsame y hy
    · exact List.mem_singleton.mp hy
  unfold bindFleetShardManager
  refine Prog.run_bind_ok.mpr ⟨(), s, ?_, ?_⟩
  · unfold assertShardNotDeleted
    exact Prog.run_bind_ok.mpr ⟨_, s, rfl, Prog.run_require_ok.mpr ⟨h.live, rfl⟩⟩
  refine Prog.run_bind_ok.mpr ⟨_, s, rfl, Prog.run_bind_ok.mpr ⟨_, s, rfl, ?_⟩⟩
  refine Prog.run_bind_ok.mpr ⟨_, s, Prog.run_lift_ok.mpr ⟨hcollect, rfl⟩, ?_⟩
  refine Prog.run_bind_ok.mpr ⟨(), s, Prog.run_require_ok.mpr ⟨Nat.le_refl 1, rfl⟩, ?_⟩
  refine Prog.run_bind_ok.mpr ⟨1, s, Prog.run_exec_ok.mpr ?_, ?_⟩
  · simp [saveBinding, h.bound]
  · exact Prog.run_bind_ok.mpr ⟨(), s, Prog.run_require_ok.mpr ⟨rfl, rfl⟩, rfl⟩

/-- The named shard of an enrolment is chosen, if it is bound to the campaign's manager and has
room. -/
theorem assignShard_bound (hname : en.requestedShardId ≠ "default")
    (hbound : BoundOnly s en.requestedShardId en.managerCustomerId)
    (hroom : Room s en.campaignRecordId en.requestedShardId) :
    (assignShard en).run s = .ok (en.requestedShardId, s) := by
  have hpreferred : en.preferred = en.requestedShardId := if_neg hname
  rw [← hpreferred] at hbound hroom ⊢
  have hmanagers : ∀ x ∈ managersOf (s.occupants en.preferred en.campaignRecordId),
      x = en.managerCustomerId := by
    intro x hx
    obtain ⟨hmem, -⟩ := List.mem_filter.mp (List.mem_dedup.mp hx)
    obtain ⟨t, ht, rfl⟩ := List.mem_map.mp hmem
    obtain ⟨htargets, hshard⟩ := List.mem_filter.mp ht
    simp only [decide_eq_true_eq] at hshard
    exact hbound.targets t htargets hshard.2.1
  have hone : (managersOf (s.occupants en.preferred en.campaignRecordId)).length ≤ 1 := by
    by_cases hnone : managersOf (s.occupants en.preferred en.campaignRecordId) = []
    · simp [hnone]
    · have hsame := dedup_of_same hnone hmanagers
      rw [managersOf, List.dedup_idem, ← managersOf] at hsame
      simp [hsame]
  have hbind : (bindPreferred en).run s = .ok (false, s) := by
    refine Prog.run_bind_ok.mpr ⟨s.shardDeleted en.preferred, s, rfl, ?_⟩
    rw [hbound.live, if_pos (Or.inl hname)]
    exact Prog.run_bind_ok.mpr ⟨_, s, hbound.bind, rfl⟩
  have hoccupants : (checkOccupants en).run s =
      .ok ((s.occupants en.preferred en.campaignRecordId).length, s) := by
    refine Prog.run_bind_ok.mpr ⟨s.occupants en.preferred en.campaignRecordId, s, rfl, ?_⟩
    refine Prog.run_bind_ok.mpr ⟨(), s, Prog.run_require_ok.mpr ⟨hone, rfl⟩, ?_⟩
    refine Prog.run_bind_ok.mpr ⟨(), s, Prog.run_require_ok.mpr ⟨?_, rfl⟩, rfl⟩
    exact List.all_eq_true.mpr fun x hx => decide_eq_true (hmanagers x hx)
  have hchoose : (chooseShard en
      (s.occupants en.preferred en.campaignRecordId).length false).run s = .ok (en.preferred, s) := by
    unfold chooseShard
    unfold Room at hroom
    rw [if_neg]
    · rfl
    · rintro (hfull | hretired)
      · omega
      · exact absurd hretired (by decide)
  refine Prog.run_bind_ok.mpr ⟨_, s, hbind, Prog.run_bind_ok.mpr ⟨_, s, hoccupants, ?_⟩⟩
  exact Prog.run_bind_ok.mpr ⟨_, s, hchoose, Prog.run_bind_ok.mpr ⟨_, s, hbound.bind, rfl⟩⟩

theorem saveTarget_new (hid : ∀ t ∈ s.targets, t.targetId ≠ en.id)
    (hrecord : ∀ t ∈ s.targets, t.campaignRecordId ≠ en.campaignRecordId) :
    (saveTarget cfg en shardId).run s = .ok ((), insertTarget cfg en shardId s) := by
  have hnew : s.target? en.id = none :=
    List.find?_eq_none.mpr fun t ht => by simpa using hid t ht
  have hfree : s.targets.find? (fun t => t.campaignRecordId = en.campaignRecordId) = none :=
    List.find?_eq_none.mpr fun t ht => by simpa using hrecord t ht
  refine Prog.run_bind_ok.mpr ⟨s.target? en.id, s, rfl, ?_⟩
  refine Prog.run_bind_ok.mpr
    ⟨s.targets.find? fun t => t.campaignRecordId = en.campaignRecordId, s, rfl, ?_⟩
  rw [hnew, hfree]
  refine Prog.run_bind_ok.mpr ⟨(), s, Prog.run_require_ok.mpr ⟨rfl, rfl⟩, ?_⟩
  exact Prog.run_bind_ok.mpr ⟨(), s, Prog.run_require_ok.mpr ⟨rfl, rfl⟩, rfl⟩

/-- **A new campaign is enrolled** on the shard it asks for by name, if that is live, bound to the
campaign's manager, and has room. -/
theorem upsertBridgeTarget_new {input : BridgeTargetInput} (hen : checkEnrolment cfg input = .ok en)
    (hname : en.requestedShardId ≠ "default")
    (hbound : BoundOnly s en.requestedShardId en.managerCustomerId)
    (hroom : Room s en.campaignRecordId en.requestedShardId)
    (hid : ∀ t ∈ s.targets, t.targetId ≠ en.id)
    (hrecord : ∀ t ∈ s.targets, t.campaignRecordId ≠ en.campaignRecordId) :
    (upsertBridgeTarget cfg input).run s =
      .ok (⟨en.id, en.requestedShardId⟩, insertTarget cfg en en.requestedShardId s) := by
  refine Prog.run_bind_ok.mpr ⟨en, s, Prog.run_lift_ok.mpr ⟨hen, rfl⟩, ?_⟩
  refine Prog.run_bind_ok.mpr ⟨_, s, assignShard_bound hname hbound hroom, ?_⟩
  exact Prog.run_bind_ok.mpr ⟨(), _, saveTarget_new hid hrecord, rfl⟩

/-! ## Inputs that are digits -/

/-- Digits are their own normal form. -/
theorem normalizeId_digits {value : String} {lo hi : Nat} (h : isDigits lo hi value = true) :
    normalizeId value = value := by
  unfold isDigits at h
  simp only [Bool.and_eq_true, List.all_eq_true] at h
  unfold normalizeId
  rw [List.filter_eq_self.mpr h.1.1, String.ofList_toList]

/-- A short text of one-unit characters is not cut. -/
theorem sliceChars_short {n : Nat} {cs : List Char} (hn : cs.length ≤ n)
    (hcs : ∀ c ∈ cs, c.toNat < 0x10000) : sliceChars n cs = cs := by
  induction cs generalizing n with
  | nil => cases n with
    | zero => rfl
    | succ n => cases n <;> rfl
  | cons c cs ih =>
    have hc : c.toNat < 0x10000 := hcs c List.mem_cons_self
    have hrest : ∀ c' ∈ cs, c'.toNat < 0x10000 := fun c' hc' => hcs c' (List.mem_cons_of_mem _ hc')
    rw [List.length_cons] at hn
    match n with
    | 0 => omega
    | 1 =>
      have hnil : cs = [] := List.eq_nil_of_length_eq_zero (by omega)
      rw [hnil, sliceChars, if_pos hc]
    | n + 2 => rw [sliceChars, if_pos hc, ih (by omega) hrest]

theorem toString_injective {i j : Nat} (h : toString i = toString j) : i = j := by
  have hdigits : Nat.toDigits 10 i = Nat.toDigits 10 j := by
    simpa [Nat.toString_eq_ofList_toDigits] using congrArg String.toList h
  calc i = Nat.ofDigitChars 10 (Nat.toDigits 10 i) 0 := Nat.ofDigitChars_ten_toDigits.symm
    _ = Nat.ofDigitChars 10 (Nat.toDigits 10 j) 0 := by rw [hdigits]
    _ = j := Nat.ofDigitChars_ten_toDigits

/-- A number of ten digits. -/
theorem isDigits_toString {n : Nat} (hlo : 10 ^ 9 ≤ n) (hhi : n < 10 ^ 10) :
    isDigits 10 10 (toString n) = true := by
  have hlist : (toString n).toList = Nat.toDigits 10 n := Nat.toList_repr
  have hall : (toString n).toList.all Char.isDigit = true := by
    rw [hlist]
    exact List.all_eq_true.mpr fun c hc => Nat.isDigit_of_mem_toDigits (by decide) (by decide) hc
  have hmost : (Nat.toDigits 10 n).length ≤ 10 :=
    (Nat.length_toDigits_le_iff (by decide) (by decide)).mpr hhi
  have hleast : ¬(Nat.toDigits 10 n).length ≤ 9 := by
    rw [Nat.length_toDigits_le_iff (by decide) (by decide)]
    omega
  have hlength : (toString n).length = (Nat.toDigits 10 n).length := by
    rw [← String.length_toList, hlist]
  unfold isDigits
  rw [hall, hlength]
  simp
  omega

theorem trim_digits {value : String} {lo hi : Nat} (h : isDigits lo hi value = true) :
    trim value = value := by
  unfold isDigits at h
  simp only [Bool.and_eq_true, List.all_eq_true] at h
  exact trim_eq fun c hc => digit_not_space (h.1.1 c hc)

/-- An input of digits passes the checks as it is. -/
theorem checkEnrolment_digits {input : BridgeTargetInput} {manager : String}
    (hmanager : input.managerCustomerId = some manager)
    (hrecord : trim input.campaignRecordId ≠ "") (hm : isDigits 10 10 manager = true)
    (hcustomer : isDigits 10 10 input.customerId = true)
    (hcampaign : isDigits 8 20 input.googleCampaignId = true)
    (hshard : isShardId (requestedShard input.shardId) = true) :
    checkEnrolment cfg input = .ok {
      id := targetId cfg input
      campaignRecordId := input.campaignRecordId
      campaignName := input.campaignName
      managerCustomerId := manager
      customerId := input.customerId
      googleCampaignId := input.googleCampaignId
      requestedShardId := requestedShard input.shardId } := by
  have hne : ∀ {value : String} {lo hi : Nat}, 0 < lo → isDigits lo hi value = true →
      value ≠ "" := by
    rintro value lo hi hlo h rfl
    simp only [isDigits, Bool.and_eq_true, decide_eq_true_eq] at h
    have hlength : lo ≤ 0 := h.1.2
    omega
  unfold checkEnrolment
  simp only [hmanager, Option.getD_some, normalizeId_digits hm, normalizeId_digits hcustomer,
    normalizeId_digits hcampaign]
  rw [if_neg hrecord, if_neg, if_neg (by simp [hm]), if_neg (by simp [hcustomer]),
    if_neg (by simp [hcampaign]), if_neg (by simp [hshard])]
  rintro (h | h)
  · exact hne (by decide) hcustomer h
  · exact hne (by decide) hcampaign h

/-! ## The forty-first campaign -/

namespace Overfill

/-- The account of the `n`-th campaign, and its record. -/
def account (n : Nat) : String := toString (2000000000 + n)

/-- The `n`-th campaign. -/
def input (n : Nat) : BridgeTargetInput :=
  { Sample.target with
    campaignRecordId := account n
    customerId := account n
    shardId := some Sample.shard }

def enrolment (n : Nat) : Enrolment where
  id := targetId Config.sample (input n)
  campaignRecordId := account n
  campaignName := "campaign"
  managerCustomerId := "1111111111"
  customerId := account n
  googleCampaignId := "33333333"
  requestedShardId := Sample.shard

theorem account_digits {n : Nat} (hn : n < 41) : isDigits 10 10 (account n) = true :=
  isDigits_toString (by omega) (by omega)

theorem account_injective {i j : Nat} (h : account i = account j) : i = j := by
  have hsum := toString_injective h
  omega

theorem checkEnrolment_input {n : Nat} (hn : n < 41) :
    checkEnrolment Config.sample (input n) = .ok (enrolment n) := by
  have hcampaign : isDigits 8 20 "33333333" = true := by decide
  have hshard : isShardId (requestedShard (some Sample.shard)) = true := by decide
  have hrecord : trim (account n) ≠ "" := by
    rw [trim_digits (account_digits hn)]
    intro hempty
    have h := account_digits hn
    rw [hempty] at h
    exact absurd h (by decide)
  have hrequested : requestedShard (some Sample.shard) = Sample.shard := by decide
  have hmanager : isDigits 10 10 "1111111111" = true := by decide
  have hcheck : checkEnrolment Config.sample (input n) =
      .ok { enrolment n with requestedShardId := requestedShard (some Sample.shard) } :=
    checkEnrolment_digits rfl hrecord hmanager (account_digits hn) hcampaign hshard
  rw [hcheck, hrequested]
  rfl

theorem enrolment_id {n : Nat} (hn : n < 41) :
    (enrolment n).id = "1111111111" ++ ":" ++ account n ++ ":" ++ "33333333" := by
  have hdigits := account_digits hn
  have hmanager : isDigits 10 10 "1111111111" = true := by decide
  have hcampaign : isDigits 8 20 "33333333" = true := by decide
  have hkey : (enrolment n).id =
      sliceTo 40 ("1111111111" ++ ":" ++ account n ++ ":" ++ "33333333") := by
    show sliceTo 40 (normalizeId "1111111111" ++ ":" ++ normalizeId (account n) ++ ":" ++
      normalizeId "33333333") = _
    rw [normalizeId_digits hmanager, normalizeId_digits hdigits, normalizeId_digits hcampaign]
  have hascii : ∀ c : Char, c.isDigit = true → c.toNat < 0x10000 := by
    intro c hc
    simp only [Char.isDigit, Bool.and_eq_true, decide_eq_true_eq] at hc
    have hle : c.val.toNat ≤ 57 := hc.2
    exact Nat.lt_of_le_of_lt hle (by decide)
  unfold isDigits at hdigits
  simp only [Bool.and_eq_true, List.all_eq_true, decide_eq_true_eq] at hdigits
  obtain ⟨⟨hall, -⟩, hlength⟩ := hdigits
  rw [← String.length_toList] at hlength
  have hshort : (account n).toList.length ≤ 10 := hlength
  rw [hkey, sliceTo, sliceChars_short, String.ofList_toList]
  · simp only [String.toList_append, List.length_append]
    have hparts : "1111111111".toList.length + ":".toList.length + ":".toList.length +
      "33333333".toList.length = 20 := by decide
    omega
  · intro c hc
    simp only [String.toList_append, List.mem_append] at hc
    rcases hc with (((hc | hc) | hc) | hc) | hc
    · exact (by decide : ∀ c ∈ "1111111111".toList, c.toNat < 0x10000) c hc
    · exact (by decide : ∀ c ∈ ":".toList, c.toNat < 0x10000) c hc
    · exact hascii c (hall c hc)
    · exact (by decide : ∀ c ∈ ":".toList, c.toNat < 0x10000) c hc
    · exact (by decide : ∀ c ∈ "33333333".toList, c.toNat < 0x10000) c hc

theorem id_injective {i j : Nat} (hi : i < 41) (hj : j < 41)
    (h : (enrolment i).id = (enrolment j).id) : i = j := by
  rw [enrolment_id hi, enrolment_id hj] at h
  have hlists := congrArg String.toList h
  simp only [String.toList_append, List.append_assoc, List.append_cancel_left_eq] at hlists
  rw [← List.append_assoc, ← List.append_assoc, List.append_cancel_right_eq,
    List.append_cancel_right_eq] at hlists
  exact account_injective (String.toList_inj.mp hlists)

/-- The first `n` campaigns, the first of them enabled or not. -/
def store (enabled : Bool) (n : Nat) : Store where
  targets := (List.range n).map fun i =>
    { (enrolment i).row Config.sample Sample.shard none with enabled := enabled || i ≠ 0 }
  shardManagers := [⟨Sample.shard, "1111111111"⟩]

variable {enabled : Bool} {n : Nat}

/-- A column that tells the campaigns apart is one of distinct values. -/
theorem column_distinct {column : Nat → String}
    (h : ∀ i < 41, ∀ j < 41, column i = column j → i = j) (hn : n ≤ 41) :
    ((List.range n).map column).Nodup := by
  refine List.Nodup.map_on (fun i hi j hj hij => ?_) List.nodup_range
  have hlti := List.mem_range.mp hi
  have hltj := List.mem_range.mp hj
  exact h i (by omega) j (by omega) hij

/-- The store meets the constraints. -/
theorem store_constraints (hn : n ≤ 41) :
    (store enabled n).Unique ∧ (store enabled n).References ∧ (store enabled n).Checks := by
  have haccounts : ((List.range n).map account).Nodup :=
    column_distinct (fun _ _ _ _ h => account_injective h) hn
  have hids : ((List.range n).map fun i => (enrolment i).id).Nodup :=
    column_distinct (fun _ hi _ hj h => id_injective hi hj h) hn
  have hcampaign : ((store enabled n).targets.map fun t =>
      (t.managerCustomerId, t.customerId, t.googleCampaignId)).Nodup := by
    refine List.Nodup.of_map (fun p => p.2.1) ?_
    simpa [store, Function.comp_def, Enrolment.row, enrolment] using haccounts
  refine ⟨⟨?_, ?_, hcampaign, ?_, ?_, ?_, ?_, ?_, ?_, ?_⟩, ⟨?_, ?_, ?_, ?_⟩, ⟨?_, ?_, ?_, ?_⟩⟩
  · simpa [store, Function.comp_def, Enrolment.row] using hids
  · simpa [store, Function.comp_def, Enrolment.row, enrolment] using haccounts
  all_goals simp [store]
  · simp [Enrolment.row, Config.sample]
  · decide
  · decide

theorem store_bound (n : Nat) :
    BoundOnly (store enabled n) Sample.shard "1111111111" where
  live := rfl
  bound := rfl
  targets := by simp [store, Enrolment.row, enrolment]
  digits := by decide

def enrol (n : Nat) : Event := ⟨0, 0, .upsertBridgeTarget (input n)⟩

def pause : Event := ⟨0, 0, .setBridgeTargetEnabled (account 0) false⟩

def resume : Event := ⟨0, 0, .setBridgeTargetEnabled (account 0) true⟩

/-- The next campaign is enrolled, where the shard has room for it. -/
theorem enrol_store (hn : n < 41) (hpos : enabled = true ∨ 0 < n)
    (hroom : Room (store enabled n) (account n) Sample.shard) :
    (enrol n).work Config.sample (store enabled n) =
      .ok (.assignment ⟨(enrolment n).id, Sample.shard⟩, store enabled (n + 1)) := by
  have hid : ∀ t ∈ (store enabled n).targets, t.targetId ≠ (enrolment n).id := by
    intro t ht hsame
    obtain ⟨i, hi, rfl⟩ := List.mem_map.mp ht
    have hlt := List.mem_range.mp hi
    have heq := id_injective (by omega) hn hsame
    omega
  have hrecord : ∀ t ∈ (store enabled n).targets, t.campaignRecordId ≠ account n := by
    intro t ht hsame
    obtain ⟨i, hi, rfl⟩ := List.mem_map.mp ht
    have hlt := List.mem_range.mp hi
    have heq := account_injective hsame
    omega
  have hname : (enrolment n).requestedShardId ≠ "default" :=
    show Sample.shard ≠ "default" by decide
  have hrun := upsertBridgeTarget_new (checkEnrolment_input hn) hname (store_bound n) hroom hid
    hrecord
  have hleft : insertTarget Config.sample (enrolment n) Sample.shard (store enabled n) =
      store enabled (n + 1) := by
    have hrow : (enabled || decide (n ≠ 0)) = true := by
      rcases hpos with rfl | hpos
      · rfl
      · simp [Nat.ne_of_gt hpos]
    have hnew : ({ (enrolment n).row Config.sample Sample.shard none with
        enabled := enabled || n ≠ 0 } : CampaignTarget) =
          (enrolment n).row Config.sample Sample.shard none := by
      rw [hrow]
      rfl
    unfold insertTarget store
    rw [List.range_succ, List.map_append, List.map_singleton, hnew]
  show Work.reply (upsertBridgeTarget Config.sample (input n)).run Reply.assignment
    (store enabled n) = _
  rw [← hleft]
  exact Work.reply_ok.mpr ⟨⟨(enrolment n).id, Sample.shard⟩, hrun, rfl⟩

/-- A store of fewer than forty campaigns has room. -/
theorem store_room (hn : n < shardCapacity) (record : String) :
    Room (store enabled n) record Sample.shard := by
  have hle := List.length_filter_le (fun t : CampaignTarget =>
    t.enabled ∧ t.shardId = Sample.shard ∧ t.campaignRecordId ≠ record) (store enabled n).targets
  have hlength : (store enabled n).targets.length = n := by simp [store]
  unfold Room Store.occupants
  omega

/-- So does one of forty whose first is paused. -/
theorem store_room_paused (record : String) :
    Room (store false shardCapacity) record Sample.shard := by
  unfold Room
  rw [occupants_length]
  have hhead : store false shardCapacity = { store false shardCapacity with
      targets := { (enrolment 0).row Config.sample Sample.shard none with enabled := false } ::
        ((List.range 39).map Nat.succ).map fun i =>
          { (enrolment i).row Config.sample Sample.shard none with
            enabled := false || i ≠ 0 } } := rfl
  rw [hhead, List.countP_cons_of_neg (by simp)]
  refine Nat.lt_of_le_of_lt List.countP_le_length ?_
  simp [shardCapacity]

/-- The first campaign is paused or resumed. -/
theorem setEnabled_store (before after : Bool) (n : Nat) :
    setEnabled (account 0) after (store before (n + 1)) =
      .ok ([(enrolment 0).id], store after (n + 1)) := by
  have hlater : ∀ i, account (i + 1) ≠ account 0 :=
    fun i h => absurd (account_injective h) (by simp)
  unfold setEnabled store updateWhere
  rw [List.range_succ_eq_map]
  simp [Enrolment.row, enrolment, Function.comp_def, hlater, List.filter_eq_nil_iff.mpr]

theorem switch_store (before after : Bool) (n : Nat) :
    (⟨0, 0, .setBridgeTargetEnabled (account 0) after⟩ : Event).work Config.sample
      (store before (n + 1)) = .ok (.done, store after (n + 1)) := by
  have hwrite : (writeEnabled (account 0) after).run (store before (n + 1)) =
      .ok ((), store after (n + 1)) := by
    refine Prog.run_bind_ok.mpr ⟨_, _, Prog.run_exec_ok.mpr (setEnabled_store before after n), ?_⟩
    cases after <;> rfl
  have hcheck : (checkResume (account 0) after).run (store before (n + 1)) =
      .ok ((), store before (n + 1)) := by
    cases after with
    | false => rfl
    | true =>
      have hfirst : (store before (n + 1)).targets.find? (fun t =>
          t.campaignRecordId = account 0 ∧ t.archivedAt = none) =
          some { (enrolment 0).row Config.sample Sample.shard none with
            enabled := before || (0 : Nat) ≠ 0 } := by
        unfold store
        rw [List.range_succ_eq_map, List.map_cons, List.find?_cons_of_pos]
        simp [Enrolment.row, enrolment]
      refine Prog.run_bind_ok.mpr ⟨_, _, congrArg (fun t => Except.ok (t, _)) hfirst, ?_⟩
      have hmanager : normalizeFleetManagerId "1111111111" = .ok "1111111111" := by decide
      refine Prog.run_bind_ok.mpr ⟨_, _, Prog.run_lift_ok.mpr ⟨hmanager, rfl⟩, ?_⟩
      exact Prog.run_bind_ok.mpr ⟨_, _, (store_bound (n + 1)).bind, rfl⟩
  have hrun : (setBridgeTargetEnabled (account 0) after).run (store before (n + 1)) =
      .ok ((), store after (n + 1)) :=
    Prog.run_bind_ok.mpr ⟨(), _, hcheck, hwrite⟩
  exact Work.reply_ok.mpr ⟨(), hrun, rfl⟩

/-- Forty campaigns; the first is paused, another takes its place, and it is resumed. -/
def calls : List Event := (List.range 40).map enrol ++ [pause] ++ [enrol 40] ++ [resume]

theorem run_enrols (hn : n ≤ 40) (hpos : 0 < n) :
    ((fleet Config.sample).run Fleet.initial ((List.range n).map enrol)).store = store true n := by
  induction n, hpos using Nat.le_induction with
  | base => decide +kernel
  | succ n hpos ih =>
    rw [List.range_succ, List.map_append, List.map_singleton, EventSystem.run_concat]
    have hwork : (enrol n).work Config.sample (store true n) =
        .ok (.assignment ⟨(enrolment n).id, Sample.shard⟩, store true (n + 1)) :=
      enrol_store (by omega) (Or.inl rfl) (store_room (by unfold shardCapacity; omega) _)
    rw [← ih (by omega)] at hwork
    exact next_store_of_work rfl hwork (store_constraints (by omega))

theorem run_calls : ((fleet Config.sample).run Fleet.initial calls).store = store true 41 := by
  have hfull := run_enrols (Nat.le_refl 40) (by decide)
  unfold calls
  rw [EventSystem.run_concat, EventSystem.run_concat, EventSystem.run_concat]
  generalize (fleet Config.sample).run Fleet.initial ((List.range 40).map enrol) = f at hfull
  have hpause : ((fleet Config.sample).next f pause).store = store false 40 :=
    next_store_of_work rfl (by rw [hfull]; exact switch_store true false 39)
      (store_constraints (by decide))
  generalize (fleet Config.sample).next f pause = f at hpause
  have henrol : ((fleet Config.sample).next f (enrol 40)).store = store false 41 :=
    next_store_of_work rfl
      (by rw [hpause]; exact enrol_store (by decide) (Or.inr (by decide)) (store_room_paused _))
      (store_constraints (by decide))
  generalize (fleet Config.sample).next f (enrol 40) = f at henrol
  exact next_store_of_work rfl (by rw [henrol]; exact switch_store false true 40)
    (store_constraints (by decide))

theorem enabledCount_store (n : Nat) : (store true n).enabledCount Sample.shard = n := by
  unfold Store.enabledCount
  rw [List.countP_eq_length.mpr]
  · simp [store]
  · intro t ht
    obtain ⟨i, -, rfl⟩ := List.mem_map.mp ht
    simp [Enrolment.row]

end Overfill

end LinkSuffix
