import LinkSuffix.Web.FleetPlacement

/-!
# Reconciling the shards of the Fleet

* `Placement`: what the shards should look like after `reconcileFleetShards`.
* `reconcile_rebuilt`: every active account is in the shard it is recorded with, and in no other.
* `reconcile_again`: a second call changes nothing.
* **`placement_iff_room`**: all of it, the size of the shards included, exactly when every shard
  that takes in a new account also has room for the accounts that are still to come back to it.
* `later_owner_overfills`: a new account takes the place of one that comes after it.
-/

namespace LinkSuffix.ScriptFleet

variable {localeCompare : String → String → Int} {size : Nat} {requested : JsNumber}
  {before after : FleetState} {campaigns : List ScriptCampaign}

/-- What the shards should look like. -/
structure Placement (localeCompare : String → String → Int) (requested : JsNumber)
    (before : FleetState) (campaigns : List ScriptCampaign) (after : FleetState) : Prop where
  /-- Every active account is in one shard of its MCC. -/
  home : ∀ a ∈ activeAccounts before campaigns, ∃! shard, shard ∈ after.shards ∧
    shard.id ≠ "legacy" ∧ shard.managerCustomerId = a.managerId ∧ a.customerId ∈ shard.accountIds
  /-- That is the shard it is recorded with. -/
  recorded : ∀ a ∈ activeAccounts before campaigns, ∀ shard ∈ after.shards,
    shard.id ≠ "legacy" → shard.managerCustomerId = a.managerId →
    a.customerId ∈ shard.accountIds → after.accountAssignments a.key = some shard.id
  /-- No other account is in a shard, and none is there twice. -/
  others : ∀ shard ∈ after.shards, ∀ customerId ∈ shard.accountIds,
    ⟨shard.managerCustomerId, customerId⟩ ∈ activeAccounts before campaigns
  once : ∀ shard ∈ after.shards, shard.accountIds.Nodup
  /-- A shard has more accounts than its size only if it had them before. -/
  size : ∀ shard ∈ after.shards, shard.accountIds.length ≤
    max (normalizedShardSize requested) (previously before campaigns shard.id)
  kept : ∀ a ∈ activeAccounts before campaigns, ∀ shard, recordedShard before a = some shard →
    after.accountAssignments a.key = some shard.id
  again : reconcileFleetShards localeCompare after campaigns requested = .ok after

/-! ## Before the loop, and after it -/

theorem emptied_names (s : FleetState) (campaigns : List ScriptCampaign) :
    (emptied s campaigns).names = s.names := by
  unfold FleetState.names emptied FleetState.mapShards
  rw [List.map_map]
  rfl

theorem emptied_assigned {a : Account} (ha : a ∈ activeAccounts before campaigns) :
    (emptied before campaigns).accountAssignments a.key = before.accountAssignments a.key :=
  if_pos (List.mem_map_of_mem ha)

theorem emptied_stays {a : Account} (ha : a ∈ activeAccounts before campaigns) {shardId : String}
    (h : Stays before a shardId) : Stays (emptied before campaigns) a shardId :=
  ⟨(emptied_assigned ha).trans h.recorded, (emptied_names before campaigns) ▸ h.own, h.current⟩

theorem emptied_rebuilt (s : FleetState) (campaigns : List ScriptCampaign) :
    Rebuilt [] (emptied s campaigns) := by
  constructor
  · intro shard hshard
    obtain ⟨old, -, rfl⟩ := List.mem_map.mp hshard
    rfl
  · exact fun b hb => absurd hb List.not_mem_nil

/-- At the start a shard's load is what it had before. -/
theorem emptied_load {shardId managerId : String} (hname : (shardId, managerId) ∈ before.names)
    (hcurrent : shardId ≠ "legacy") :
    load (emptied before campaigns) shardId managerId
        (placingOrder localeCompare before campaigns) =
      previously before campaigns shardId := by
  have hperm : (placingOrder localeCompare before campaigns).Perm
      (activeAccounts before campaigns) := List.perm_insertionSort _ _
  unfold load returning previously
  rw [(emptied_rebuilt before campaigns).occupied, List.countP_nil, Nat.zero_add, hperm.countP_eq]
  refine List.countP_congr fun a ha => ?_
  rw [emptied_assigned ha, decide_eq_true_eq, Option.any_eq_true]
  simp only [decide_eq_true_eq, ← stays_iff]
  constructor
  · rintro ⟨hrecorded, rfl⟩
    exact ⟨hrecorded, hname, hcurrent⟩
  · exact fun hstays => ⟨hstays.recorded, names_unique hstays.own hname⟩

theorem sorted_names (s : FleetState) : (sorted s).names = s.names := by
  unfold FleetState.names sorted FleetState.mapShards
  rw [List.map_map]
  rfl

theorem mem_sorted {s : FleetState} {shard : FleetShard} (h : shard ∈ (sorted s).shards) :
    ∃ old ∈ s.shards, old.id = shard.id ∧ old.managerCustomerId = shard.managerCustomerId ∧
      shard.accountIds.Perm old.accountIds := by
  obtain ⟨old, hold, rfl⟩ := List.mem_map.mp h
  exact ⟨old, hold, rfl, rfl, List.perm_insertionSort _ _⟩

/-- The loop ran, and the shards were sorted after it. -/
theorem reconcile_ok
    (h : reconcileFleetShards localeCompare before campaigns requested = .ok after) :
    ∃ fin, (placingOrder localeCompare before campaigns).foldlM
      (placeAccount localeCompare (normalizedShardSize requested)) (emptied before campaigns) =
        .ok fin ∧ after = sorted fin := by
  unfold reconcileFleetShards at h
  cases hrun : (placingOrder localeCompare before campaigns).foldlM
      (placeAccount localeCompare (normalizedShardSize requested)) (emptied before campaigns) with
  | error message =>
    rw [hrun] at h
    exact absurd h nofun
  | ok fin =>
    rw [hrun] at h
    exact ⟨fin, rfl, (Except.ok.inj h).symm⟩

section Loop

variable {fin : FleetState}
  (hrun : (placingOrder localeCompare before campaigns).foldlM
    (placeAccount localeCompare size) (emptied before campaigns) = .ok fin)

include hrun

theorem loop_rebuilt : Rebuilt (placingOrder localeCompare before campaigns) fin :=
  rebuilt_run (placingOrder_queue campaigns) (List.nil_append _).symm hrun
    (emptied_rebuilt before campaigns)

theorem loop_stays {a : Account} (ha : a ∈ activeAccounts before campaigns) {shardId : String}
    (h : Stays before a shardId) : Stays fin a shardId :=
  stays_run (placingOrder_queue campaigns) (List.nil_append _).symm hrun
    (mem_placingOrder.mpr ha) (emptied_stays ha h)

/-- With room at every step, the shards are filled as they should be. -/
theorem loop_room
    (hroom : ∀ placed a later st, placingOrder localeCompare before campaigns =
      placed ++ a :: later →
      placed.foldlM (placeAccount localeCompare size) (emptied before campaigns) = .ok st →
      HasRoom localeCompare size st a later)
    {shardId managerId : String} (hname : (shardId, managerId) ∈ fin.names)
    (hcurrent : shardId ≠ "legacy") :
    occupied fin shardId ≤ max size (previously before campaigns shardId) := by
  have hqueue : Queue (placingOrder localeCompare before campaigns) := placingOrder_queue campaigns
  have hend := placing_induction (fun placed later s => Rebuilt placed s ∧
      placed.foldlM (placeAccount localeCompare size) (emptied before campaigns) = .ok s ∧
      ∀ shardId managerId, (shardId, managerId) ∈ s.names → shardId ≠ "legacy" →
        load s shardId managerId later ≤ max size (previously before campaigns shardId))
    ?_ (List.nil_append _).symm hrun ⟨emptied_rebuilt before campaigns, rfl, ?_⟩
  · rw [← load_nil fin shardId managerId]
    exact hend.2.2 shardId managerId hname hcurrent
  · rintro placed a later s s' hsplit hplace ⟨hrebuilt, hreached, hbound⟩
    have hqueue : Queue (placed ++ a :: later) := hsplit ▸ hqueue
    obtain ⟨home, hlands, -⟩ := placeAccount_cases hplace
    refine ⟨hrebuilt.step hqueue.first hlands, ?_, fun shardId managerId hname hcurrent =>
      room_step hqueue hrebuilt hplace (hroom placed a later s hsplit hreached) hbound hname
        hcurrent⟩
    rw [List.foldlM_append, hreached]
    exact (bind_pure _).trans hplace
  · intro shardId managerId hname hcurrent
    rw [emptied_names] at hname
    rw [emptied_load hname hcurrent]
    exact Nat.le_max_right _ _

/-- A new account adds to what its shard had before. -/
theorem loop_new {placed later : List Account} {a : Account} {st opened : FleetState}
    {shardId : String}
    (hsplit : placingOrder localeCompare before campaigns = placed ++ a :: later)
    (hreached : placed.foldlM (placeAccount localeCompare size) (emptied before campaigns) = .ok st)
    (hnone : recordedShard st a = none)
    (hopen : openHome localeCompare size st a = .ok (opened, shardId)) :
    occupied st shardId + returning st shardId a.managerId later + 1 ≤ occupied fin shardId ∧
      previously before campaigns shardId + 1 ≤ occupied fin shardId := by
  have hqueue : Queue (placingOrder localeCompare before campaigns) := placingOrder_queue campaigns
  rw [hsplit] at hqueue hrun
  rw [List.foldlM_append, hreached] at hrun
  obtain ⟨st', hplace, hrest⟩ := placing_cons hrun
  have hrebuilt : Rebuilt placed st := rebuilt_run
    ⟨fun b hb => hqueue.long b (List.mem_append_left _ hb), hqueue.nodup.of_append_left⟩
    (List.nil_append _).symm hreached (emptied_rebuilt before campaigns)
  obtain ⟨home, hlands, hstays | ⟨-, opened', hopen'⟩⟩ := placeAccount_cases hplace
  · obtain ⟨shard, hshard, -⟩ := stays_iff.mp hstays
    rw [hnone] at hshard
    exact absurd hshard nofun
  · obtain rfl : home.id = shardId := (Prod.mk.inj (Except.ok.inj (hopen'.symm.trans hopen))).2
    have hlast : Queue (placed ++ [a] ++ (later ++ [])) := by
      rw [List.append_nil, ← List.append_cons]
      exact hqueue
    have hgrows := load_run hlast hrest (hrebuilt.step hqueue.first hlands) hlands.has_home
      hlands.current
    rw [List.append_nil, load_nil, load_new hrebuilt hqueue hlands, if_pos rfl] at hgrows
    refine ⟨by omega, ?_⟩
    by_cases hold : ∃ managerId, (home.id, managerId) ∈ before.names
    · obtain ⟨managerId, hname⟩ := hold
      have hstart : (home.id, managerId) ∈ (emptied before campaigns).names :=
        emptied_names before campaigns ▸ hname
      have hearlier := load_run (by exact hqueue : Queue ([] ++ (placed ++ a :: later))) hreached
        (emptied_rebuilt before campaigns) hstart hlands.current
      have hname' := names_run hreached hstart
      obtain rfl := names_unique (hlands.keeps_name hname') hlands.has_home
      rw [← hsplit, emptied_load hname hlands.current] at hearlier
      unfold load at hearlier
      rw [returning_new hnone hname' hlands.current] at hearlier
      omega
    · have hnone : previously before campaigns home.id = 0 := by
        refine List.countP_eq_zero.mpr fun b hb => ?_
        rw [Option.any_eq_true]
        rintro ⟨shard, hshard, hid⟩
        have hstays := stays_iff.mpr ⟨shard, hshard, of_decide_eq_true hid⟩
        exact hold ⟨b.managerId, hstays.own⟩
      omega

end Loop

/-! ## A second call -/

theorem activeAccounts_congr {s s' : FleetState}
    (henabled : s'.enabledCampaignIds = s.enabledCampaignIds)
    (hdisabled : s'.disabledCampaignIds = s.disabledCampaignIds) (campaigns : List ScriptCampaign) :
    activeAccounts s' campaigns = activeAccounts s campaigns := by
  unfold activeAccounts FleetState.isScriptCampaign
  rw [henabled, hdisabled]

/-- The names of the shards and their accounts are all there is to them. -/
theorem shards_eq {shards shards' : List FleetShard} (f : String → List String)
    (hnames : shards.map (fun shard => (shard.id, shard.managerCustomerId)) =
      shards'.map fun shard => (shard.id, shard.managerCustomerId))
    (h : ∀ shard ∈ shards, shard.accountIds = f shard.id)
    (h' : ∀ shard ∈ shards', shard.accountIds = f shard.id) : shards = shards' := by
  have hread (shards : List FleetShard) (h : ∀ shard ∈ shards, shard.accountIds = f shard.id) :
      shards = (shards.map fun shard => (shard.id, shard.managerCustomerId)).map
        fun name => ⟨name.1, name.2, f name.1⟩ := by
    rw [List.map_map]
    refine ((List.map_congr_left fun shard hshard => ?_).trans (List.map_id shards)).symm
    simp only [Function.comp_apply, ← h shard hshard, id]
  rw [hread shards h, hread shards' h', hnames]

/-- **A second call changes nothing.** -/
theorem reconcile_again
    (h : reconcileFleetShards localeCompare before campaigns requested = .ok after) :
    reconcileFleetShards localeCompare after campaigns requested = .ok after := by
  obtain ⟨fin, hrun, rfl⟩ := reconcile_ok h
  have hrebuilt := loop_rebuilt hrun
  obtain ⟨henabled, hdisabled⟩ := lists_run hrun
  have hactive : activeAccounts (sorted fin) campaigns = activeAccounts before campaigns :=
    activeAccounts_congr henabled hdisabled campaigns
  have horder : placingOrder localeCompare (sorted fin) campaigns =
      placingOrder localeCompare before campaigns := by
    unfold placingOrder
    rw [hactive]
  have hassigned : (emptied (sorted fin) campaigns).accountAssignments =
      fin.accountAssignments := by
    funext key
    by_cases hkey : key ∈ (activeAccounts before campaigns).map Account.key
    · exact if_pos (hactive.symm ▸ hkey)
    · have horder : key ∉ (placingOrder localeCompare before campaigns).map Account.key :=
        fun hmem => hkey (((List.perm_insertionSort _ _).map _).mem_iff.mp hmem)
      have hnone : (emptied (sorted fin) campaigns).accountAssignments key = none :=
        if_neg (hactive.symm ▸ hkey)
      rw [hnone, assigned_run hrun horder]
      exact (if_neg hkey).symm
  have hnames : (emptied (sorted fin) campaigns).names = fin.names :=
    (emptied_names _ _).trans (sorted_names fin)
  have hstay : ∀ a ∈ placingOrder localeCompare before campaigns,
      ∃ shardId, Stays (emptied (sorted fin) campaigns) a shardId := fun a ha => by
    obtain ⟨shardId, hstays⟩ := hrebuilt.homes a ha
    exact ⟨shardId, hassigned ▸ hstays.recorded, hnames ▸ hstays.own, hstays.current⟩
  obtain ⟨fin', hrun', hassigned', hnames'⟩ :=
    @run_of_stays localeCompare (normalizedShardSize requested) _ _ hstay
  rw [← horder] at hrun'
  have hrebuilt' := loop_rebuilt hrun'
  obtain ⟨henabled', hdisabled'⟩ := lists_run hrun'
  have hfin : fin' = fin := by
    refine FleetState.ext henabled' hdisabled' ?_ (hassigned'.trans hassigned)
    refine shards_eq (fun shardId => ((placingOrder localeCompare before campaigns).filter
      fun b => fin.accountAssignments b.key = some shardId).map (·.customerId))
      (hnames'.trans hnames) (fun shard hshard => ?_) hrebuilt.filled
    rw [hrebuilt'.filled shard hshard, horder, hassigned', hassigned]
  unfold reconcileFleetShards
  rw [hrun', hfin]
  rfl

/-! ## The result -/

theorem rebuilt_mem {placed : List Account} {s : FleetState} (h : Rebuilt placed s)
    {shard : FleetShard} (hshard : shard ∈ s.shards) {customerId : String} :
    customerId ∈ shard.accountIds ↔ ∃ a ∈ placed, a.customerId = customerId ∧
      Stays s a shard.id ∧ a.managerId = shard.managerCustomerId := by
  rw [h.filled shard hshard, List.mem_map]
  constructor
  · rintro ⟨a, ha, rfl⟩
    obtain ⟨ha, hrecorded⟩ := List.mem_filter.mp ha
    obtain ⟨shardId, hstays⟩ := h.homes a ha
    obtain rfl := Option.some.inj (hstays.recorded.symm.trans (of_decide_eq_true hrecorded))
    exact ⟨a, ha, rfl, hstays, names_unique hstays.own (mem_names.mpr ⟨shard, hshard, rfl, rfl⟩)⟩
  · rintro ⟨a, ha, rfl, hstays, -⟩
    exact ⟨a, List.mem_filter.mpr ⟨ha, decide_eq_true hstays.recorded⟩, rfl⟩

/-- Whatever the sizes, each account is where it should be. -/
theorem reconcile_rebuilt
    (h : reconcileFleetShards localeCompare before campaigns requested = .ok after)
    (hsize : ∀ shard ∈ after.shards, shard.accountIds.length ≤
      max (normalizedShardSize requested) (previously before campaigns shard.id)) :
    Placement localeCompare requested before campaigns after := by
  have hagain := reconcile_again h
  obtain ⟨fin, hrun, rfl⟩ := reconcile_ok h
  have hrebuilt := loop_rebuilt hrun
  have hmem (shard : FleetShard) (hshard : shard ∈ (sorted fin).shards) (customerId : String)
      (hcustomer : customerId ∈ shard.accountIds) :
      ∃ a ∈ activeAccounts before campaigns, a.customerId = customerId ∧ Stays fin a shard.id ∧
        a.managerId = shard.managerCustomerId := by
    obtain ⟨old, hold, hid, hmanager, hperm⟩ := mem_sorted hshard
    obtain ⟨a, ha, hcustomer, hstays, hown⟩ :=
      (rebuilt_mem hrebuilt hold).mp (hperm.mem_iff.mp hcustomer)
    exact ⟨a, mem_placingOrder.mp ha, hcustomer, hid ▸ hstays, hown.trans hmanager⟩
  have hown (a : Account) (ha : a ∈ activeAccounts before campaigns) (shard : FleetShard)
      (hshard : shard ∈ (sorted fin).shards) (hmanager : shard.managerCustomerId = a.managerId)
      (hcustomer : a.customerId ∈ shard.accountIds) : Stays fin a shard.id := by
    obtain ⟨b, -, hb, hstays, hsame⟩ := hmem shard hshard _ hcustomer
    have heq : b = a := by
      obtain ⟨bm, bc⟩ := b
      obtain ⟨am, ac⟩ := a
      rw [Account.mk.injEq]
      exact ⟨hsame.trans hmanager, hb⟩
    exact heq ▸ hstays
  refine ⟨fun a ha => ?_, fun a ha shard hshard _ hmanager hcustomer =>
    (hown a ha shard hshard hmanager hcustomer).recorded,
    fun shard hshard customerId hcustomer => ?_, fun shard hshard => ?_, hsize,
    fun a ha shard hshard => ?_, hagain⟩
  · obtain ⟨shardId, hstays⟩ := hrebuilt.homes a (mem_placingOrder.mpr ha)
    obtain ⟨old, hold, rfl, hmanager⟩ := mem_names.mp hstays.own
    have hin : a.customerId ∈ old.accountIds := (rebuilt_mem hrebuilt hold).mpr
      ⟨a, mem_placingOrder.mpr ha, rfl, hstays, hmanager.symm⟩
    have hshard : { old with accountIds := old.accountIds.insertionSort (· ≤ ·) } ∈
        (sorted fin).shards := List.mem_map_of_mem hold
    refine ⟨_, ⟨hshard, hstays.current, hmanager, (List.mem_insertionSort _).mpr hin⟩, ?_⟩
    rintro other ⟨hother, -, hmanager', hcustomer⟩
    have hother' := hown a ha other hother hmanager' hcustomer
    refine Lib.key_unique (sorted fin).distinct hother hshard ?_
    exact Option.some.inj (hother'.recorded.symm.trans hstays.recorded)
  · obtain ⟨a, ha, rfl, -, hmanager⟩ := hmem shard hshard customerId hcustomer
    rw [← hmanager]
    exact ha
  · obtain ⟨old, hold, -, -, hperm⟩ := mem_sorted hshard
    rw [hperm.nodup_iff, hrebuilt.filled old hold]
    have hqueue : Queue (placingOrder localeCompare before campaigns) :=
      placingOrder_queue campaigns
    refine (hqueue.nodup.filter _).map_on ?_
    intro a ha b hb hcustomer
    obtain ⟨ha, harecorded⟩ := List.mem_filter.mp ha
    obtain ⟨hb, hbrecorded⟩ := List.mem_filter.mp hb
    obtain ⟨shardId, hastays⟩ := hrebuilt.homes a ha
    obtain ⟨shardId', hbstays⟩ := hrebuilt.homes b hb
    obtain rfl := Option.some.inj (hastays.recorded.symm.trans (of_decide_eq_true harecorded))
    obtain rfl := Option.some.inj (hbstays.recorded.symm.trans (of_decide_eq_true hbrecorded))
    obtain ⟨am, ac⟩ := a
    obtain ⟨bm, bc⟩ := b
    rw [Account.mk.injEq]
    exact ⟨names_unique hastays.own hbstays.own, hcustomer⟩
  · exact (loop_stays hrun ha (stays_iff.mpr ⟨shard, hshard, rfl⟩)).recorded

/-- **The shards are as they should be exactly when every shard that takes in a new account has room
for the accounts that are still to come back to it.** -/
theorem placement_iff_room
    (h : reconcileFleetShards localeCompare before campaigns requested = .ok after) :
    Placement localeCompare requested before campaigns after ↔
      ∀ placed a later st, placingOrder localeCompare before campaigns = placed ++ a :: later →
        placed.foldlM (placeAccount localeCompare (normalizedShardSize requested))
          (emptied before campaigns) = .ok st →
        HasRoom localeCompare (normalizedShardSize requested) st a later := by
  obtain ⟨fin, hrun, rfl⟩ := reconcile_ok h
  have hrebuilt := loop_rebuilt hrun
  have hoccupied (shard : FleetShard) (hshard : shard ∈ (sorted fin).shards) :
      occupied fin shard.id = shard.accountIds.length := by
    obtain ⟨old, hold, hid, -, hperm⟩ := mem_sorted hshard
    have hfind : fin.shard? shard.id = some old :=
      (Lib.find?_key_eq_some_iff fin.distinct).mpr ⟨hold, hid⟩
    unfold occupied
    rw [hfind, hperm.length_eq]
    rfl
  constructor
  · intro hplacement placed a later st hsplit hreached hnone opened shardId hopen
    obtain ⟨hgrows, hmore⟩ := loop_new hrun hsplit hreached hnone hopen
    have hpos : 0 < occupied fin shardId := by omega
    obtain ⟨shard, hshard, rfl⟩ : ∃ shard ∈ (sorted fin).shards, shard.id = shardId := by
      rw [hrebuilt.occupied, List.countP_pos_iff] at hpos
      obtain ⟨b, hb, hrecorded⟩ := hpos
      obtain ⟨shardId', hstays⟩ := hrebuilt.homes b hb
      obtain rfl := Option.some.inj (hstays.recorded.symm.trans (of_decide_eq_true hrecorded))
      obtain ⟨old, hold, hid, -⟩ := mem_names.mp hstays.own
      exact ⟨_, List.mem_map_of_mem hold, hid⟩
    have hsize := hplacement.size shard hshard
    rw [← hoccupied shard hshard] at hsize
    omega
  · intro hroom
    refine reconcile_rebuilt h fun shard hshard => ?_
    rw [← hoccupied shard hshard]
    obtain ⟨old, hold, hid, hmanager, -⟩ := mem_sorted hshard
    by_cases hcurrent : shard.id = "legacy"
    · have hzero : occupied fin shard.id = 0 := by
        rw [hrebuilt.occupied]
        refine List.countP_eq_zero.mpr fun b hb hrecorded => ?_
        obtain ⟨shardId, hstays⟩ := hrebuilt.homes b hb
        obtain rfl := Option.some.inj (hstays.recorded.symm.trans (of_decide_eq_true hrecorded))
        exact hstays.current hcurrent
      rw [hzero]
      exact Nat.zero_le _
    · exact loop_room hrun hroom (mem_names.mpr ⟨old, hold, hid, hmanager⟩) hcurrent

/-! ### A new account before two that own a shard -/

/-- Texts of one length in the order of their characters. -/
def byCharacters (left right : String) : Int :=
  if left < right then -1 else if left = right then 0 else 1

/-- A full shard of two accounts. -/
def fullShard : FleetState where
  enabledCampaignIds := ["new", "old", "older"]
  shards := [⟨"mcc-9999999999-001", "9999999999", ["2222222222", "3333333333"]⟩]
  accountAssignments := fun key =>
    if key = "9999999999:2222222222" ∨ key = "9999999999:3333333333" then some "mcc-9999999999-001"
    else none

/-- The new account's key comes first. -/
def threeCampaigns : List ScriptCampaign :=
  [("new", "1111111111"), ("old", "2222222222"), ("older", "3333333333")].map fun c =>
    { id := c.1, customerId := some c.2, googleCampaignId := some "7",
      loginCustomerId := some "999-999-9999" }

theorem placement_iff_room_three : ∃ after,
    reconcileFleetShards byCharacters fullShard threeCampaigns (.finite 3) = .ok after ∧
      (Placement byCharacters (.finite 3) fullShard threeCampaigns after ↔
        ∀ placed a later st, placingOrder byCharacters fullShard threeCampaigns =
          placed ++ a :: later →
          placed.foldlM (placeAccount byCharacters (normalizedShardSize (.finite 3)))
            (emptied fullShard threeCampaigns) = .ok st →
          HasRoom byCharacters (normalizedShardSize (.finite 3)) st a later) := by
  have hok : ((reconcileFleetShards byCharacters fullShard threeCampaigns (.finite 3)).toBool) =
      true := by decide +kernel
  cases h : reconcileFleetShards byCharacters fullShard threeCampaigns (.finite 3) with
  | error message =>
    rw [h] at hok
    exact absurd hok nofun
  | ok after => exact ⟨after, rfl, placement_iff_room h⟩

/-- **A full shard takes in a new account before its own accounts are back.** -/
theorem later_owner_overfills : ∃ after,
    reconcileFleetShards byCharacters fullShard threeCampaigns (.finite 2) = .ok after ∧
      ¬Placement byCharacters (.finite 2) fullShard threeCampaigns after := by
  have hsizes : (reconcileFleetShards byCharacters fullShard threeCampaigns (.finite 2)).map
      (fun after => after.shards.map fun shard => (shard.id, shard.accountIds.length)) =
        .ok [("mcc-9999999999-001", 3)] := by decide +kernel
  cases h : reconcileFleetShards byCharacters fullShard threeCampaigns (.finite 2) with
  | error message =>
    rw [h] at hsizes
    exact absurd hsizes nofun
  | ok after =>
    refine ⟨after, rfl, fun hplacement => ?_⟩
    rw [h] at hsizes
    have hsizes : after.shards.map (fun shard => (shard.id, shard.accountIds.length)) =
        [("mcc-9999999999-001", 3)] := Except.ok.inj hsizes
    have hmem : ("mcc-9999999999-001", 3) ∈
        after.shards.map fun shard => (shard.id, shard.accountIds.length) := by
      rw [hsizes]
      exact List.mem_cons_self
    obtain ⟨shard, hshard, heq⟩ := List.mem_map.mp hmem
    obtain ⟨hid, hlength⟩ := Prod.mk.inj heq
    have hsize := hplacement.size shard hshard
    have hbound : max (normalizedShardSize (.finite 2))
        (previously fullShard threeCampaigns "mcc-9999999999-001") = 2 := by decide +kernel
    rw [hlength, hid, hbound] at hsize
    exact absurd hsize (by decide)

end LinkSuffix.ScriptFleet
