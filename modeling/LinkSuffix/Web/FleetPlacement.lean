import LinkSuffix.Web.FleetShards

/-!
# Where the accounts of the Fleet end up

* `Rebuilt`: the shards hold the accounts placed so far, each in the shard it is recorded with.
* `load`: the accounts of a shard, and those still to come back to it.
* `rebuilt_run`, `load_run`: what the loop over the accounts keeps.
-/

namespace LinkSuffix.ScriptFleet

variable {localeCompare : String → String → Int} {size : Nat} {s s' : FleetState} {a : Account}

/-! ## The accounts -/

theorem Account.key_inj {a b : Account} (ha : a.managerId.length = 10)
    (hb : b.managerId.length = 10) (h : a.key = b.key) : a = b := by
  have hlist := congrArg String.toList h
  simp only [Account.key, String.toList_append, List.append_assoc] at hlist
  obtain ⟨hmanager, hrest⟩ := List.append_inj hlist (by
    rw [String.length_toList, String.length_toList, ha, hb])
  have hcustomer := List.append_cancel_left hrest
  obtain ⟨am, ac⟩ := a
  obtain ⟨bm, bc⟩ := b
  rw [Account.mk.injEq]
  exact ⟨String.toList_inj.mp hmanager, String.toList_inj.mp hcustomer⟩

theorem mem_activeAccounts {campaigns : List ScriptCampaign} : a ∈ activeAccounts s campaigns ↔
    ∃ c ∈ campaigns, s.isScriptCampaign c = true ∧ campaignHasCompleteFleetTarget c = true ∧
      c.account = a := by
  have hloop (accounts : List Account) (campaigns : List ScriptCampaign) :
      a ∈ campaigns.foldl (fun accounts c =>
        if s.isScriptCampaign c && campaignHasCompleteFleetTarget c && c.account ∉ accounts then
          accounts ++ [c.account]
        else accounts) accounts ↔ a ∈ accounts ∨ ∃ c ∈ campaigns, s.isScriptCampaign c = true ∧
          campaignHasCompleteFleetTarget c = true ∧ c.account = a := by
    induction campaigns generalizing accounts with
    | nil => simp
    | cons c campaigns ih =>
      rw [List.foldl_cons, ih, List.exists_mem_cons_iff, ← or_assoc]
      refine or_congr_left ?_
      by_cases hactive : s.isScriptCampaign c = true ∧ campaignHasCompleteFleetTarget c = true
      · by_cases hold : c.account ∈ accounts
        · rw [if_neg (by simp [hold])]
          refine ⟨Or.inl, ?_⟩
          rintro (hmem | ⟨-, -, rfl⟩)
          · exact hmem
          · exact hold
        · rw [if_pos (by simp [hactive, hold]), List.mem_append, List.mem_singleton]
          refine or_congr_right ⟨fun h => ⟨hactive.1, hactive.2, h.symm⟩, fun h => h.2.2.symm⟩
      · rw [if_neg (by simp only [Bool.and_eq_true]; exact fun h => hactive h.1)]
        exact ⟨Or.inl, fun h => h.elim id fun h => absurd ⟨h.1, h.2.1⟩ hactive⟩
  unfold activeAccounts
  rw [hloop]
  simp

theorem activeAccounts_nodup {campaigns : List ScriptCampaign} :
    (activeAccounts s campaigns).Nodup := by
  have hloop (accounts : List Account) (campaigns : List ScriptCampaign) (h : accounts.Nodup) :
      (campaigns.foldl (fun accounts c =>
        if s.isScriptCampaign c && campaignHasCompleteFleetTarget c && c.account ∉ accounts then
          accounts ++ [c.account]
        else accounts) accounts).Nodup := by
    induction campaigns generalizing accounts with
    | nil => exact h
    | cons c campaigns ih =>
      refine ih _ ?_
      dsimp only
      split
      · rename_i hnew
        have hnew : c.account ∉ accounts := of_decide_eq_true (Bool.and_eq_true_iff.mp hnew).2
        exact h.append (List.nodup_singleton _) (by simpa using hnew)
      · exact h
  exact hloop [] campaigns List.nodup_nil

theorem active_length {campaigns : List ScriptCampaign} (h : a ∈ activeAccounts s campaigns) :
    a.managerId.length = 10 := by
  obtain ⟨c, -, -, hcomplete, rfl⟩ := mem_activeAccounts.mp h
  unfold campaignHasCompleteFleetTarget at hcomplete
  simp only [Bool.and_eq_true, decide_eq_true_eq] at hcomplete
  exact hcomplete.1.1

/-- Accounts with distinct keys, as they are placed. -/
structure Queue (accounts : List Account) : Prop where
  long : ∀ a ∈ accounts, a.managerId.length = 10
  nodup : accounts.Nodup

theorem placingOrder_queue (campaigns : List ScriptCampaign) :
    Queue (placingOrder localeCompare s campaigns) :=
  ⟨fun _ ha => active_length ((List.mem_insertionSort _).mp ha),
    (List.perm_insertionSort _ _).nodup_iff.mpr activeAccounts_nodup⟩

theorem mem_placingOrder {campaigns : List ScriptCampaign} :
    a ∈ placingOrder localeCompare s campaigns ↔ a ∈ activeAccounts s campaigns :=
  List.mem_insertionSort _

theorem Queue.key_ne {placed later : List Account} (h : Queue (placed ++ a :: later)) {b : Account}
    (hb : b ∈ placed ++ later) : b.key ≠ a.key := by
  intro heq
  have hmem : b ∈ placed ++ a :: later := by
    rcases List.mem_append.mp hb with hb | hb
    · exact List.mem_append_left _ hb
    · exact List.mem_append_right _ (List.mem_cons_of_mem _ hb)
  obtain rfl := Account.key_inj (h.long b hmem)
    (h.long a (List.mem_append_right _ List.mem_cons_self)) heq
  have hnodup := (List.nodup_middle.mp h.nodup)
  exact (List.nodup_cons.mp hnodup).1 hb

theorem Queue.first {placed later : List Account} (h : Queue (placed ++ a :: later)) :
    Queue (placed ++ [a]) := by
  rw [List.append_cons] at h
  exact ⟨fun b hb => h.long b (List.mem_append_left _ hb), h.nodup.of_append_left⟩

/-! ## What is kept of the names -/

theorem Lands.names {home : FleetShard} (h : Lands s a home s') :
    s'.names = s.names ∨ ((home.id ∉ s.shards.map (·.id)) ∧
      s'.names = s.names ++ [(home.id, a.managerId)]) := by
  obtain ⟨shards, hshards, hbase⟩ := h.shards
  have hnames : s'.names = shards.map fun shard => (shard.id, shard.managerCustomerId) := by
    unfold FleetState.names
    rw [hshards, List.map_map]
    refine List.map_congr_left fun shard _ => ?_
    simp only [Function.comp_apply]
    split <;> rfl
  rcases hbase with ⟨-, rfl⟩ | ⟨hnew, -, rfl⟩
  · exact Or.inl hnames
  · refine Or.inr ⟨hnew, ?_⟩
    rw [hnames, List.map_append, ← h.own]
    rfl

theorem Lands.keeps_name {home : FleetShard} (h : Lands s a home s') {name : String × String}
    (hname : name ∈ s.names) : name ∈ s'.names := by
  rcases h.names with heq | ⟨-, heq⟩
  · rw [heq]
    exact hname
  · rw [heq]
    exact List.mem_append_left _ hname

theorem Lands.has_home {home : FleetShard} (h : Lands s a home s') :
    (home.id, a.managerId) ∈ s'.names := by
  obtain ⟨shards, -, hbase⟩ := h.shards
  rcases hbase with ⟨hmem, -⟩ | ⟨hnew, -⟩
  · exact h.keeps_name (mem_names.mpr ⟨home, hmem, rfl, h.own⟩)
  · rcases h.names with heq | ⟨-, heq⟩
    · obtain ⟨shards, hshards, ⟨hmem, -⟩ | ⟨-, -, rfl⟩⟩ := h.shards
      · exact absurd (List.mem_map_of_mem hmem) hnew
      · have hids : s'.names.length = s.names.length + 1 := by
          unfold FleetState.names
          rw [hshards]
          simp
        rw [heq] at hids
        exact absurd hids (Nat.ne_of_lt (Nat.lt_succ_self _))
    · rw [heq]
      exact List.mem_append_right _ List.mem_cons_self

theorem Lands.assigned_self {home : FleetShard} (h : Lands s a home s') :
    s'.accountAssignments a.key = some home.id := by
  rw [h.assigned, Function.update_self]

theorem Lands.assigned_ne {home : FleetShard} (h : Lands s a home s') {key : String}
    (hkey : key ≠ a.key) : s'.accountAssignments key = s.accountAssignments key := by
  rw [h.assigned, Function.update_of_ne hkey]

theorem Lands.stays {home : FleetShard} (h : Lands s a home s') {b : Account} {shardId : String}
    (hkey : b.key ≠ a.key) (hb : Stays s b shardId) : Stays s' b shardId :=
  ⟨(h.assigned_ne hkey).trans hb.recorded, h.keeps_name hb.own, hb.current⟩

theorem Lands.stays_self {home : FleetShard} (h : Lands s a home s') : Stays s' a home.id :=
  ⟨h.assigned_self, h.has_home, h.current⟩

theorem names_unique {shardId m m' : String} (h : (shardId, m) ∈ s.names)
    (h' : (shardId, m') ∈ s.names) : m = m' := by
  obtain ⟨shard, hmem, hid, rfl⟩ := mem_names.mp h
  obtain ⟨shard', hmem', hid', rfl⟩ := mem_names.mp h'
  rw [Lib.key_unique s.distinct hmem hmem' (hid.trans hid'.symm)]

/-! ## The run of the loop -/

theorem placing_cons {later : List Account} {fin : FleetState}
    (hrun : (a :: later).foldlM (placeAccount localeCompare size) s = .ok fin) :
    ∃ s', placeAccount localeCompare size s a = .ok s' ∧
      later.foldlM (placeAccount localeCompare size) s' = .ok fin := by
  rw [List.foldlM_cons] at hrun
  cases hplace : placeAccount localeCompare size s a with
  | error message =>
    rw [hplace] at hrun
    exact absurd hrun nofun
  | ok s' =>
    rw [hplace] at hrun
    exact ⟨s', rfl, hrun⟩

/-- What every placed account keeps holds after all of them. -/
theorem placing_induction {accounts : List Account}
    (P : List Account → List Account → FleetState → Prop)
    (hstep : ∀ placed a later s s', accounts = placed ++ a :: later →
      placeAccount localeCompare size s a = .ok s' → P placed (a :: later) s →
      P (placed ++ [a]) later s')
    {placed later : List Account} {s fin : FleetState} (h : accounts = placed ++ later)
    (hrun : later.foldlM (placeAccount localeCompare size) s = .ok fin) (hP : P placed later s) :
    P accounts [] fin := by
  induction later generalizing placed s with
  | nil =>
    obtain rfl := Except.ok.inj hrun
    rw [h, List.append_nil]
    exact hP
  | cons a later ih =>
    obtain ⟨s', hplace, hrun⟩ := placing_cons hrun
    exact ih (h.trans (List.append_cons ..)) hrun (hstep placed a later s s' h hplace hP)

/-- The shards hold the accounts placed so far, each in the shard it is recorded with. -/
structure Rebuilt (placed : List Account) (s : FleetState) : Prop where
  filled : ∀ shard ∈ s.shards, shard.accountIds =
    (placed.filter fun b => s.accountAssignments b.key = some shard.id).map (·.customerId)
  homes : ∀ b ∈ placed, ∃ shardId, Stays s b shardId

theorem Rebuilt.absent {placed : List Account} (h : Rebuilt placed s) {shardId : String}
    (hnew : shardId ∉ s.shards.map (·.id)) :
    placed.filter (fun b => s.accountAssignments b.key = some shardId) = [] := by
  refine List.filter_eq_nil_iff.mpr fun b hb => ?_
  rw [decide_eq_true_eq]
  intro hrecorded
  obtain ⟨shardId', hstays⟩ := h.homes b hb
  obtain rfl := Option.some.inj (hstays.recorded.symm.trans hrecorded)
  obtain ⟨shard, hmem, hid, -⟩ := mem_names.mp hstays.own
  exact hnew (List.mem_map.mpr ⟨shard, hmem, hid⟩)

/-- A shard that takes an account in does not hold its customer yet. -/
theorem Rebuilt.fresh {placed : List Account} (h : Rebuilt placed s)
    (hqueue : Queue (placed ++ [a])) {shard : FleetShard} (hshard : shard ∈ s.shards)
    (hown : shard.managerCustomerId = a.managerId) : a.customerId ∉ shard.accountIds := by
  rw [h.filled shard hshard]
  intro hmem
  obtain ⟨b, hb, hcustomer⟩ := List.mem_map.mp hmem
  obtain ⟨hb, hrecorded⟩ := List.mem_filter.mp hb
  have hrecorded := of_decide_eq_true hrecorded
  obtain ⟨shardId, hstays⟩ := h.homes b hb
  obtain rfl := Option.some.inj (hstays.recorded.symm.trans hrecorded)
  have hmanager : b.managerId = a.managerId :=
    (names_unique hstays.own (mem_names.mpr ⟨shard, hshard, rfl, rfl⟩)).trans hown
  have hsame : b.key = a.key := by
    unfold Account.key
    rw [hmanager, hcustomer]
  exact hqueue.key_ne (List.mem_append_left [] hb) hsame

theorem Rebuilt.step {placed : List Account} {home : FleetShard} (h : Rebuilt placed s)
    (hqueue : Queue (placed ++ [a])) (hlands : Lands s a home s') :
    Rebuilt (placed ++ [a]) s' := by
  have hne : ∀ b ∈ placed, b.key ≠ a.key := fun b hb =>
    hqueue.key_ne (List.mem_append_left [] hb)
  constructor
  · obtain ⟨shards, hshards, hbase⟩ := hlands.shards
    have hold (shard : FleetShard) (hshard : shard ∈ shards) : shard.accountIds =
        (placed.filter fun b => s.accountAssignments b.key = some shard.id).map (·.customerId) := by
      rcases hbase with ⟨-, rfl⟩ | ⟨hnew, hempty, rfl⟩
      · exact h.filled shard hshard
      · rcases List.mem_append.mp hshard with hshard | hshard
        · exact h.filled shard hshard
        · obtain rfl := List.mem_singleton.mp hshard
          rw [hempty, h.absent hnew]
          rfl
    have hfresh (shard : FleetShard) (hshard : shard ∈ shards) (hid : shard.id = home.id) :
        a.customerId ∉ shard.accountIds := by
      rcases hbase with ⟨hmem, rfl⟩ | ⟨hnew, hempty, rfl⟩
      · obtain rfl := Lib.key_unique s.distinct hshard hmem hid
        exact h.fresh hqueue hshard hlands.own
      · rcases List.mem_append.mp hshard with hshard | hshard
        · exact absurd (hid ▸ List.mem_map_of_mem hshard) hnew
        · obtain rfl := List.mem_singleton.mp hshard
          rw [hempty]
          exact List.not_mem_nil
    intro shard' hshard'
    rw [hshards] at hshard'
    obtain ⟨shard, hshard, rfl⟩ := List.mem_map.mp hshard'
    have hplaced (shardId : String) :
        placed.filter (fun b => s'.accountAssignments b.key = some shardId) =
          placed.filter fun b => s.accountAssignments b.key = some shardId := by
      refine List.filter_congr fun b hb => ?_
      rw [hlands.assigned_ne (hne b hb)]
    by_cases hid : shard.id = home.id
    · rw [if_pos ⟨hid, hfresh shard hshard hid⟩]
      have hself : s'.accountAssignments a.key = some shard.id := hid ▸ hlands.assigned_self
      simp only [List.filter_append, hplaced, List.map_append, ← hold shard hshard,
        List.filter_singleton, hself, decide_true, cond_true, List.map_cons, List.map_nil]
    · have hother : decide (s'.accountAssignments a.key = some shard.id) = false := by
        rw [hlands.assigned_self, decide_eq_false_iff_not]
        exact fun heq => hid (Option.some.inj heq).symm
      simp only [if_neg fun hboth : shard.id = home.id ∧ _ => hid hboth.1, List.filter_append,
        hplaced, ← hold shard hshard, List.filter_singleton, hother, cond_false, List.append_nil]
  · intro b hb
    rcases List.mem_append.mp hb with hb | hb
    · obtain ⟨shardId, hstays⟩ := h.homes b hb
      exact ⟨shardId, hlands.stays (hne b hb) hstays⟩
    · obtain rfl := List.mem_singleton.mp hb
      exact ⟨home.id, hlands.stays_self⟩

/-! ## How full a shard gets -/

/-- How many accounts a shard holds; none before it is opened. -/
def occupied (s : FleetState) (shardId : String) : Nat :=
  ((s.shard? shardId).map fun shard => shard.accountIds.length).getD 0

/-- The accounts of an MCC that are still to be placed, and are recorded with a shard. -/
def returning (s : FleetState) (shardId managerId : String) (later : List Account) : Nat :=
  later.countP fun b => s.accountAssignments b.key = some shardId ∧ b.managerId = managerId

/-- The accounts of a shard, and those still to come back to it. -/
def load (s : FleetState) (shardId managerId : String) (later : List Account) : Nat :=
  occupied s shardId + returning s shardId managerId later

/-- The shard that an account without one goes to has room for it and for the accounts still to
come back to that shard. -/
def HasRoom (localeCompare : String → String → Int) (size : Nat) (s : FleetState) (a : Account)
    (later : List Account) : Prop :=
  recordedShard s a = none → ∀ opened shardId,
    openHome localeCompare size s a = .ok (opened, shardId) →
    occupied s shardId + returning s shardId a.managerId later < size

/-- The active accounts that a shard had before. -/
def previously (s : FleetState) (campaigns : List ScriptCampaign) (shardId : String) : Nat :=
  (activeAccounts s campaigns).countP fun a => (recordedShard s a).any (·.id = shardId)

theorem Rebuilt.occupied {placed : List Account} (h : Rebuilt placed s) (shardId : String) :
    occupied s shardId =
      placed.countP fun b => s.accountAssignments b.key = some shardId := by
  unfold ScriptFleet.occupied
  rw [List.countP_eq_length_filter]
  cases hshard : s.shard? shardId with
  | none =>
    have hnew : shardId ∉ s.shards.map (·.id) := by
      intro hmem
      obtain ⟨shard, hmem, hid⟩ := List.mem_map.mp hmem
      exact absurd (decide_eq_true hid) (List.find?_eq_none.mp hshard shard hmem)
    rw [h.absent hnew]
    rfl
  | some shard =>
    obtain ⟨hmem, rfl⟩ := Lib.find?_key_some hshard
    rw [Option.map_some, Option.getD_some, h.filled shard hmem, List.length_map]

theorem Lands.occupied {placed : List Account} {home : FleetShard} (h : Rebuilt placed s)
    (hqueue : Queue (placed ++ [a])) (hlands : Lands s a home s') (shardId : String) :
    occupied s' shardId = occupied s shardId + if home.id = shardId then 1 else 0 := by
  rw [h.occupied, (h.step hqueue hlands).occupied, List.countP_append, List.countP_singleton,
    hlands.assigned_self]
  have hplaced : placed.countP (fun b => s'.accountAssignments b.key = some shardId) =
      placed.countP fun b => s.accountAssignments b.key = some shardId := by
    refine List.countP_congr fun b hb => ?_
    rw [hlands.assigned_ne (hqueue.key_ne (List.mem_append_left [] hb))]
  rw [hplaced]
  simp only [Option.some.injEq, decide_eq_true_eq]

theorem Lands.returning {home : FleetShard} {later : List Account} (hlands : Lands s a home s')
    (hne : ∀ b ∈ later, b.key ≠ a.key) (shardId managerId : String) :
    returning s' shardId managerId later = returning s shardId managerId later := by
  unfold ScriptFleet.returning
  refine List.countP_congr fun b hb => ?_
  rw [hlands.assigned_ne (hne b hb)]

theorem returning_cons (shardId managerId : String) (later : List Account) :
    returning s shardId managerId (a :: later) = returning s shardId managerId later +
      if s.accountAssignments a.key = some shardId ∧ a.managerId = managerId then 1 else 0 := by
  unfold returning
  rw [List.countP_cons]
  simp only [decide_eq_true_eq]

section Load

variable {placed later : List Account} {home : FleetShard} {shardId managerId : String}

/-- An account that stays where it is leaves every shard's load as it is. -/
theorem load_stays (h : Rebuilt placed s) (hqueue : Queue (placed ++ a :: later))
    (hlands : Lands s a home s') (hstays : Stays s a home.id)
    (hname : (shardId, managerId) ∈ s.names) :
    load s' shardId managerId later = load s shardId managerId (a :: later) := by
  have hlater : ∀ b ∈ later, b.key ≠ a.key := fun b hb => hqueue.key_ne (List.mem_append_right _ hb)
  unfold load
  rw [hlands.occupied h hqueue.first, hlands.returning hlater, returning_cons, Nat.add_assoc,
    Nat.add_comm (if home.id = shardId then 1 else 0)]
  congr 2
  refine if_congr ⟨fun hid => ?_, fun hboth => ?_⟩ rfl rfl
  · subst hid
    exact ⟨hstays.recorded, names_unique hstays.own hname⟩
  · exact Option.some.inj (hstays.recorded.symm.trans hboth.1)

/-- An account that is new in a shard adds to its load. -/
theorem load_new (h : Rebuilt placed s) (hqueue : Queue (placed ++ a :: later))
    (hlands : Lands s a home s') :
    load s' shardId managerId later =
      occupied s shardId + (if home.id = shardId then 1 else 0) +
        returning s shardId managerId later := by
  have hlater : ∀ b ∈ later, b.key ≠ a.key := fun b hb => hqueue.key_ne (List.mem_append_right _ hb)
  unfold load
  rw [hlands.occupied h hqueue.first, hlands.returning hlater]

/-- An account without a shard does not count for any. -/
theorem returning_new (hnone : recordedShard s a = none) (hname : (shardId, managerId) ∈ s.names)
    (hcurrent : shardId ≠ "legacy") :
    returning s shardId managerId (a :: later) = returning s shardId managerId later := by
  rw [returning_cons, if_neg, Nat.add_zero]
  rintro ⟨hrecorded, rfl⟩
  obtain ⟨shard, hshard, -⟩ := stays_iff.mp ⟨hrecorded, hname, hcurrent⟩
  rw [hnone] at hshard
  exact absurd hshard nofun

end Load

/-! ## The whole loop -/

section Run

variable {accounts placed later : List Account} {fin : FleetState} {shardId managerId : String}

theorem rebuilt_run (hqueue : Queue accounts) (h : accounts = placed ++ later)
    (hrun : later.foldlM (placeAccount localeCompare size) s = .ok fin)
    (hrebuilt : Rebuilt placed s) : Rebuilt accounts fin := by
  refine placing_induction (fun placed _ s => Rebuilt placed s) ?_ h hrun hrebuilt
  intro placed a later s s' hsplit hplace hrebuilt
  obtain ⟨home, hlands, -⟩ := placeAccount_cases hplace
  exact hrebuilt.step (hsplit ▸ hqueue).first hlands

theorem names_run {name : String × String}
    (hrun : later.foldlM (placeAccount localeCompare size) s = .ok fin) (hname : name ∈ s.names) :
    name ∈ fin.names := by
  refine placing_induction (fun _ _ s => name ∈ s.names) ?_ (List.nil_append later).symm hrun hname
  intro placed a later s s' hsplit hplace hname
  obtain ⟨home, hlands, -⟩ := placeAccount_cases hplace
  exact hlands.keeps_name hname

theorem lists_run (hrun : later.foldlM (placeAccount localeCompare size) s = .ok fin) :
    fin.enabledCampaignIds = s.enabledCampaignIds ∧
      fin.disabledCampaignIds = s.disabledCampaignIds := by
  refine placing_induction (fun _ _ s' => s'.enabledCampaignIds = s.enabledCampaignIds ∧
    s'.disabledCampaignIds = s.disabledCampaignIds) ?_ (List.nil_append later).symm hrun ⟨rfl, rfl⟩
  rintro placed a later s₁ s₂ hsplit hplace ⟨henabled, hdisabled⟩
  obtain ⟨home, hlands, -⟩ := placeAccount_cases hplace
  exact ⟨hlands.enabled.trans henabled, hlands.disabled.trans hdisabled⟩

theorem assigned_run {key : String}
    (hrun : later.foldlM (placeAccount localeCompare size) s = .ok fin)
    (hkey : key ∉ later.map Account.key) :
    fin.accountAssignments key = s.accountAssignments key := by
  refine placing_induction (fun _ _ s' => s'.accountAssignments key = s.accountAssignments key) ?_
    (List.nil_append later).symm hrun rfl
  intro placed a left s₁ s₂ hsplit hplace hsame
  obtain ⟨home, hlands, -⟩ := placeAccount_cases hplace
  rw [hlands.assigned_ne, hsame]
  rintro rfl
  rw [hsplit] at hkey
  exact hkey (List.mem_map_of_mem (List.mem_append_right _ List.mem_cons_self))

/-- When every account stays, so do the assignments and the names. -/
theorem run_of_stays (h : ∀ a ∈ later, ∃ shardId, Stays s a shardId) :
    ∃ fin, later.foldlM (placeAccount localeCompare size) s = .ok fin ∧
      fin.accountAssignments = s.accountAssignments ∧ fin.names = s.names := by
  induction later generalizing s with
  | nil => exact ⟨s, rfl, rfl, rfl⟩
  | cons a later ih =>
    obtain ⟨shardId, hstays⟩ := h a List.mem_cons_self
    have hnames : (s.push shardId a.customerId).names = s.names := by
      unfold FleetState.names FleetState.push FleetState.mapShards
      rw [List.map_map]
      refine List.map_congr_left fun shard _ => ?_
      simp only [Function.comp_apply]
      split <;> rfl
    have hlater : ∀ b ∈ later, ∃ shardId', Stays (s.push shardId a.customerId) b shardId' := by
      intro b hb
      obtain ⟨shardId', hb⟩ := h b (List.mem_cons_of_mem a hb)
      exact ⟨shardId', hb.recorded, hnames ▸ hb.own, hb.current⟩
    obtain ⟨fin, hrun, hassigned, hfin⟩ := ih hlater
    refine ⟨fin, ?_, hassigned, hfin.trans hnames⟩
    rw [List.foldlM_cons, placeAccount_stays hstays]
    exact hrun

/-- Shards stay, and an account keeps the shard it is recorded with. -/
theorem stays_run (hqueue : Queue accounts) (h : accounts = placed ++ later)
    (hrun : later.foldlM (placeAccount localeCompare size) s = .ok fin) (ha : a ∈ accounts)
    (hstays : Stays s a shardId) : Stays fin a shardId := by
  refine placing_induction (fun _ _ s => Stays s a shardId) ?_ h hrun hstays
  intro placed b later s s' hsplit hplace hstays
  obtain ⟨home, hlands, hcases⟩ := placeAccount_cases hplace
  by_cases hab : a = b
  · subst hab
    rcases hcases with hhome | ⟨hnone, -⟩
    · obtain rfl := Option.some.inj (hhome.recorded.symm.trans hstays.recorded)
      exact hlands.stays_self
    · obtain ⟨shard, hshard, -⟩ := stays_iff.mp hstays
      rw [hnone] at hshard
      exact absurd hshard nofun
  · have hqueue : Queue (placed ++ b :: later) := hsplit ▸ hqueue
    rw [hsplit] at ha
    refine hlands.stays (hqueue.key_ne ?_) hstays
    rcases List.mem_append.mp ha with ha | ha
    · exact List.mem_append_left _ ha
    · exact List.mem_append_right _ ((List.mem_cons.mp ha).resolve_left hab)

/-- One account more does not make a shard's load smaller. -/
theorem load_step {home : FleetShard} (hqueue : Queue (placed ++ a :: later))
    (hrebuilt : Rebuilt placed s) (hlands : Lands s a home s')
    (hcases : Stays s a home.id ∨ recordedShard s a = none)
    (hname : (shardId, managerId) ∈ s.names) (hcurrent : shardId ≠ "legacy") :
    load s shardId managerId (a :: later) ≤ load s' shardId managerId later := by
  rcases hcases with hstays | hnone
  · exact (load_stays hrebuilt hqueue hlands hstays hname).ge
  · rw [load_new hrebuilt hqueue hlands]
    unfold load
    rw [returning_new hnone hname hcurrent]
    omega

theorem load_nil (s : FleetState) (shardId managerId : String) :
    load s shardId managerId [] = occupied s shardId := rfl

/-- A shard's load only grows. -/
theorem load_run {between : List Account} (hqueue : Queue (placed ++ (between ++ later)))
    (hrun : between.foldlM (placeAccount localeCompare size) s = .ok fin)
    (hrebuilt : Rebuilt placed s) (hname : (shardId, managerId) ∈ s.names)
    (hcurrent : shardId ≠ "legacy") :
    load s shardId managerId (between ++ later) ≤ load fin shardId managerId later := by
  induction between generalizing placed s with
  | nil =>
    obtain rfl := Except.ok.inj hrun
    exact Nat.le_refl _
  | cons a between ih =>
    obtain ⟨s', hplace, hrun⟩ := placing_cons hrun
    obtain ⟨home, hlands, hcases⟩ := placeAccount_cases hplace
    have hmore := load_step hqueue hrebuilt hlands (hcases.imp id And.left) hname hcurrent
    have hrest : Queue (placed ++ [a] ++ (between ++ later)) := by
      rw [← List.append_cons]
      exact hqueue
    exact hmore.trans (ih hrest hrun (hrebuilt.step hqueue.first hlands) (hlands.keeps_name hname))

/-- With room at every step, a shard is not filled past its size by a new account. -/
theorem room_step {bound : String → Nat}
    (hqueue : Queue (placed ++ a :: later)) (hrebuilt : Rebuilt placed s)
    (hplace : placeAccount localeCompare size s a = .ok s')
    (hroom : HasRoom localeCompare size s a later)
    (hbound : ∀ shardId managerId, (shardId, managerId) ∈ s.names → shardId ≠ "legacy" →
      load s shardId managerId (a :: later) ≤ max size (bound shardId))
    (hname : (shardId, managerId) ∈ s'.names) (hcurrent : shardId ≠ "legacy") :
    load s' shardId managerId later ≤ max size (bound shardId) := by
  obtain ⟨home, hlands, hcases⟩ := placeAccount_cases hplace
  have hhome := hlands.has_home
  rcases hcases with hstays | ⟨hnone, opened, hopen⟩
  · have hold : (shardId, managerId) ∈ s.names := by
      rcases hlands.names with heq | ⟨hnew, -⟩
      · exact heq ▸ hname
      · obtain ⟨shard, hmem, hid, -⟩ := mem_names.mp hstays.own
        exact absurd (List.mem_map.mpr ⟨shard, hmem, hid⟩) hnew
    rw [load_stays hrebuilt hqueue hlands hstays hold]
    exact hbound shardId managerId hold hcurrent
  · rw [load_new hrebuilt hqueue hlands]
    by_cases hid : home.id = shardId
    · subst hid
      obtain rfl := names_unique hname hhome
      have hless := hroom hnone opened home.id hopen
      rw [if_pos rfl]
      omega
    · have hold : (shardId, managerId) ∈ s.names := by
        rcases hlands.names with heq | ⟨-, heq⟩
        · exact heq ▸ hname
        · rw [heq] at hname
          rcases List.mem_append.mp hname with hname | hname
          · exact hname
          · obtain ⟨rfl, -⟩ := Prod.mk.inj (List.mem_singleton.mp hname)
            exact absurd rfl hid
      have hle := hbound shardId managerId hold hcurrent
      unfold load at hle
      rw [returning_new hnone hold hcurrent] at hle
      rw [if_neg hid, Nat.add_zero]
      exact hle

end Run

end LinkSuffix.ScriptFleet
