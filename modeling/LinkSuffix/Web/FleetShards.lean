import LinkSuffix.Js.Value
import LinkSuffix.Lib.Table
import Mathlib.Data.List.Sort

/-!
# The shards of the Apps Script Fleet

`reconcileFleetShards` of `google-ads-script-bridge.ts`: the accounts of the enabled campaigns are
placed in key order. An account keeps the shard it is recorded with; another one goes to the least
filled shard of its MCC that has room, or to a new shard. The `accountIds` of all shards are emptied
before and filled again on the way.

* `ScriptCampaign`, `FleetShard`, `FleetState`: the data. A state's shards have distinct names.
* `activeAccounts`, `newHome`, `placeAccount`, `reconcileFleetShards`: the code.
* `placeAccount_cases`: what placing one account can do.
-/

namespace LinkSuffix.ScriptFleet

/-! ## The data -/

/-- `SCRIPT_FLEET_CAPACITY`. -/
def fleetCapacity : Nat := 2000

/-- `ScriptCampaignRecord`: what a campaign's place depends on. -/
structure ScriptCampaign where
  id : String
  useHourlyScript : Bool := false
  customerId : Option String := none
  googleCampaignId : Option String := none
  loginCustomerId : Option String := none
  deriving DecidableEq

/-- `ScriptFleetShard`: its name, its MCC, and its accounts. -/
structure FleetShard where
  id : String
  managerCustomerId : String
  accountIds : List String := []
  deriving DecidableEq

/-- `ScriptBridgeState`, as far as shards are concerned. `shards` and `accountAssignments` are
records; the names of the shards are those `nextShardId` gives, and `legacy`. -/
@[ext]
structure FleetState where
  enabledCampaignIds : List String := []
  disabledCampaignIds : List String := []
  shards : List FleetShard := []
  accountAssignments : String → Option String := fun _ => none
  distinct : (shards.map (·.id)).Nodup := by decide
  named : "" ∉ shards.map (·.id) := by decide

/-- `digits(value)`. -/
def digits (value : Option String) : String := normalizeId (value.getD "")

/-- An account under its MCC. -/
structure Account where
  managerId : String
  customerId : String
  deriving DecidableEq

/-- `accountKey`. -/
def Account.key (a : Account) : String := a.managerId ++ ":" ++ a.customerId

/-- The account that a campaign belongs to. -/
def ScriptCampaign.account (c : ScriptCampaign) : Account :=
  ⟨digits c.loginCustomerId, digits c.customerId⟩

/-- `campaignHasCompleteFleetTarget`. -/
def campaignHasCompleteFleetTarget (c : ScriptCampaign) : Bool :=
  c.account.managerId.length = 10 && c.account.customerId.length = 10 &&
    digits c.googleCampaignId ≠ ""

namespace FleetState

variable (s : FleetState)

/-- `isScriptCampaign`. -/
def isScriptCampaign (c : ScriptCampaign) : Bool :=
  c.id ∉ s.disabledCampaignIds && (c.id ∈ s.enabledCampaignIds || c.useHourlyScript)

/-- `state.shards[shardId]`. -/
def shard? (shardId : String) : Option FleetShard := s.shards.find? fun shard => shard.id = shardId

/-- The shards, with their names kept. -/
def mapShards (f : FleetShard → FleetShard) (hf : ∀ shard, (f shard).id = shard.id) : FleetState :=
  { s with
    shards := s.shards.map f
    distinct := by simpa only [List.map_map, Function.comp_def, hf] using s.distinct
    named := by simpa only [List.map_map, Function.comp_def, hf] using s.named }

/-- `state.shards[shardId] = shard` with a new name. -/
def addShard (shard : FleetShard) (hnew : shard.id ∉ s.shards.map (·.id)) (hnamed : "" ≠ shard.id) :
    FleetState :=
  { s with
    shards := s.shards ++ [shard]
    distinct := by
      rw [List.map_append]
      exact List.Nodup.append s.distinct (List.nodup_singleton _) (by simpa using hnew)
    named := by
      rw [List.map_append, List.mem_append, not_or]
      exact ⟨s.named, by simpa using hnamed⟩ }

/-- `state.accountAssignments[key] = shardId`. -/
def assign (key shardId : String) : FleetState :=
  { s with accountAssignments := Function.update s.accountAssignments key (some shardId) }

/-- `if (!shard.accountIds.includes(customerId)) shard.accountIds.push(customerId)`. -/
def push (shardId customerId : String) : FleetState :=
  s.mapShards (fun shard =>
    if shard.id = shardId ∧ customerId ∉ shard.accountIds then
      { shard with accountIds := shard.accountIds ++ [customerId] }
    else shard) (by intro shard; split <;> rfl)

end FleetState

/-! ## The code -/

/-- The accounts of the enabled campaigns with a complete target, once each. -/
def activeAccounts (s : FleetState) (campaigns : List ScriptCampaign) : List Account :=
  campaigns.foldl (fun accounts c =>
    if s.isScriptCampaign c && campaignHasCompleteFleetTarget c && c.account ∉ accounts then
      accounts ++ [c.account]
    else accounts) []

/-- `normalizedShardSize`. -/
def normalizedShardSize : JsNumber → Nat
  | .nan => 40
  | .infinity negative => if negative then 1 else 50
  | .finite value =>
    let size : Int := if value = 0 then 40 else if 0 ≤ value then value.floor else value.ceil
    (max 1 (min 50 size)).toNat

/-- The names that `nextShardId` tries. -/
def shardName (managerId : String) (index : Nat) : String :=
  "mcc-" ++ managerId ++ "-" ++ padStart3 index

/-- `nextShardId`. -/
def nextShardId (s : FleetState) (managerId : String) : Option String :=
  ((List.range fleetCapacity).map fun i => shardName managerId (i + 1)).find? fun candidate =>
    candidate ∉ s.shards.map (·.id)

section Code

variable (localeCompare : String → String → Int) (size : Nat) (s : FleetState)

/-- `state.shards[state.accountAssignments[key]]`, where it can stay. -/
def recordedShard (a : Account) : Option FleetShard :=
  ((s.accountAssignments a.key).bind s.shard?).filter fun shard =>
    shard.managerCustomerId = a.managerId && shard.id ≠ "legacy"

/-- The shards of the MCC with room, the least filled one first. -/
def shardsWithRoom (managerId : String) : List FleetShard :=
  (s.shards.filter fun candidate => candidate.id ≠ "legacy" &&
      candidate.managerCustomerId = managerId && candidate.accountIds.length < size).insertionSort
    fun left right => left.accountIds.length < right.accountIds.length ∨
      (left.accountIds.length = right.accountIds.length ∧ localeCompare left.id right.id ≤ 0)

theorem shardName_ne (managerId : String) (index : Nat) : "" ≠ shardName managerId index := by
  intro h
  have hlist := congrArg String.toList h
  simp [shardName] at hlist

theorem nextShardId_spec {managerId shardId : String} (h : nextShardId s managerId = some shardId) :
    shardId ∉ s.shards.map (·.id) ∧ "" ≠ shardId := by
  have hfree := List.find?_some h
  obtain ⟨i, -, rfl⟩ := List.mem_map.mp (List.mem_of_find?_eq_some h)
  exact ⟨of_decide_eq_true hfree, shardName_ne managerId (i + 1)⟩

/-- The shard that an account without one is recorded with. -/
def openHome (a : Account) : Except String (FleetState × String) :=
  match shardsWithRoom localeCompare size s a.managerId with
  | shard :: _ => .ok (s.assign a.key shard.id, shard.id)
  | [] =>
    match h : nextShardId s a.managerId with
    | none => .error ("No shard identifier is available for MCC " ++ a.managerId ++ ".")
    | some shardId =>
      let opened := s.addShard ⟨shardId, a.managerId, []⟩ (nextShardId_spec s h).1
        (nextShardId_spec s h).2
      .ok (opened.assign a.key shardId, shardId)

/-- The body of the loop over the accounts. -/
def placeAccount (a : Account) : Except String FleetState :=
  match recordedShard s a with
  | some shard => .ok (s.push shard.id a.customerId)
  | none => (openHome localeCompare size s a).map fun home => home.1.push home.2 a.customerId

/-- The accounts in the order they are placed. -/
def placingOrder (campaigns : List ScriptCampaign) : List Account :=
  (activeAccounts s campaigns).insertionSort fun left right => localeCompare left.key right.key ≤ 0

/-- The state that the accounts are placed in: no assignment of an inactive account, and empty
shards. -/
def emptied (campaigns : List ScriptCampaign) : FleetState :=
  { s with
    accountAssignments := fun key =>
      if key ∈ (activeAccounts s campaigns).map Account.key then s.accountAssignments key
      else none }.mapShards (fun shard => { shard with accountIds := [] }) fun _ => rfl

/-- `shard.accountIds.sort()`. -/
def sorted : FleetState :=
  s.mapShards (fun shard => { shard with accountIds := shard.accountIds.insertionSort (· ≤ ·) })
    fun _ => rfl

/-- `reconcileFleetShards`. -/
def reconcileFleetShards (campaigns : List ScriptCampaign) (requestedShardSize : JsNumber) :
    Except String FleetState :=
  ((placingOrder localeCompare s campaigns).foldlM
    (placeAccount localeCompare (normalizedShardSize requestedShardSize))
    (emptied s campaigns)).map sorted

end Code

/-! ## What placing one account does -/

section Step

variable {localeCompare : String → String → Int} {size : Nat} {s s' : FleetState} {a : Account}

/-- The names of the shards with their MCCs. -/
def FleetState.names (s : FleetState) : List (String × String) :=
  s.shards.map fun shard => (shard.id, shard.managerCustomerId)

/-- The account is recorded with a shard of its own MCC. -/
structure Stays (s : FleetState) (a : Account) (shardId : String) : Prop where
  recorded : s.accountAssignments a.key = some shardId
  own : (shardId, a.managerId) ∈ s.names
  current : shardId ≠ "legacy"

/-- An account is added to the shard `home`, which is one of the shards or a new one. -/
structure Lands (s : FleetState) (a : Account) (home : FleetShard) (s' : FleetState) : Prop where
  shards : ∃ shards, s'.shards = shards.map (fun shard =>
      if shard.id = home.id ∧ a.customerId ∉ shard.accountIds then
        { shard with accountIds := shard.accountIds ++ [a.customerId] }
      else shard) ∧
    ((home ∈ s.shards ∧ shards = s.shards) ∨
      (home.id ∉ s.shards.map (·.id) ∧ home.accountIds = [] ∧ shards = s.shards ++ [home]))
  assigned : s'.accountAssignments =
    Function.update s.accountAssignments a.key (some home.id)
  own : home.managerCustomerId = a.managerId
  current : home.id ≠ "legacy"
  enabled : s'.enabledCampaignIds = s.enabledCampaignIds
  disabled : s'.disabledCampaignIds = s.disabledCampaignIds

theorem mem_names {shardId managerId : String} : (shardId, managerId) ∈ s.names ↔
    ∃ shard ∈ s.shards, shard.id = shardId ∧ shard.managerCustomerId = managerId := by
  unfold FleetState.names
  rw [List.mem_map]
  simp only [Prod.mk.injEq]

theorem recordedShard_eq_some {shard : FleetShard} : recordedShard s a = some shard ↔
    shard ∈ s.shards ∧ s.accountAssignments a.key = some shard.id ∧
      shard.managerCustomerId = a.managerId ∧ shard.id ≠ "legacy" := by
  unfold recordedShard FleetState.shard?
  rw [Option.filter_eq_some_iff, Option.bind_eq_some_iff]
  simp only [Lib.find?_key_eq_some_iff s.distinct, Bool.and_eq_true, decide_eq_true_eq]
  constructor
  · rintro ⟨⟨shardId, hrecorded, hmem, rfl⟩, hown, hcurrent⟩
    exact ⟨hmem, hrecorded, hown, hcurrent⟩
  · rintro ⟨hmem, hrecorded, hown, hcurrent⟩
    exact ⟨⟨shard.id, hrecorded, hmem, rfl⟩, hown, hcurrent⟩

theorem stays_iff {shardId : String} :
    Stays s a shardId ↔ ∃ shard, recordedShard s a = some shard ∧ shard.id = shardId := by
  constructor
  · intro h
    obtain ⟨shard, hmem, rfl, hown⟩ := mem_names.mp h.own
    exact ⟨shard, recordedShard_eq_some.mpr ⟨hmem, h.recorded, hown, h.current⟩, rfl⟩
  · rintro ⟨shard, h, rfl⟩
    obtain ⟨hmem, hrecorded, hown, hcurrent⟩ := recordedShard_eq_some.mp h
    exact ⟨hrecorded, mem_names.mpr ⟨shard, hmem, rfl, hown⟩, hcurrent⟩

theorem shardName_ne_legacy (managerId : String) (index : Nat) :
    shardName managerId index ≠ "legacy" := by
  intro h
  have hlist := congrArg String.toList h
  simp [shardName] at hlist

/-- A shard of the MCC with room, or a new one. -/
theorem openHome_cases {opened : FleetState} {shardId : String}
    (h : openHome localeCompare size s a = .ok (opened, shardId)) :
    (∃ home ∈ s.shards, home.id = shardId ∧ home.id ≠ "legacy" ∧
      home.managerCustomerId = a.managerId ∧ opened = s.assign a.key home.id) ∨
    ∃ (hnew : shardId ∉ s.shards.map (·.id)) (hnamed : "" ≠ shardId), shardId ≠ "legacy" ∧
      opened = (s.addShard ⟨shardId, a.managerId, []⟩ hnew hnamed).assign a.key shardId := by
  unfold openHome at h
  split at h
  · rename_i home others hroom
    have hmem : home ∈ shardsWithRoom localeCompare size s a.managerId := by
      rw [hroom]
      exact List.mem_cons_self
    obtain ⟨rfl, rfl⟩ := Prod.mk.inj (Except.ok.inj h)
    unfold shardsWithRoom at hmem
    rw [List.mem_insertionSort, List.mem_filter] at hmem
    simp only [Bool.and_eq_true, decide_eq_true_eq] at hmem
    exact Or.inl ⟨home, hmem.1, rfl, hmem.2.1.1, hmem.2.1.2, rfl⟩
  · split at h
    · exact absurd h nofun
    · rename_i name hname
      obtain ⟨rfl, rfl⟩ := Prod.mk.inj (Except.ok.inj h)
      obtain ⟨i, -, rfl⟩ := List.mem_map.mp (List.mem_of_find?_eq_some hname)
      exact Or.inr ⟨_, _, shardName_ne_legacy _ _, rfl⟩

/-- **What placing an account does**: it stays in its shard, or it is recorded with another one. -/
theorem placeAccount_cases (h : placeAccount localeCompare size s a = .ok s') :
    ∃ home, Lands s a home s' ∧
      (Stays s a home.id ∨ (recordedShard s a = none ∧
        ∃ opened, openHome localeCompare size s a = .ok (opened, home.id))) := by
  unfold placeAccount at h
  split at h
  · rename_i shard hshard
    obtain ⟨hmem, hrecorded, hown, hcurrent⟩ := recordedShard_eq_some.mp hshard
    obtain rfl := Except.ok.inj h
    refine ⟨shard, ⟨⟨s.shards, rfl, Or.inl ⟨hmem, rfl⟩⟩, ?_, hown, hcurrent, rfl, rfl⟩,
      Or.inl (stays_iff.mpr ⟨shard, hshard, rfl⟩)⟩
    rw [← hrecorded, Function.update_eq_self]
    rfl
  · rename_i hnone
    cases hopen : openHome localeCompare size s a with
    | error message =>
      rw [hopen] at h
      exact absurd h nofun
    | ok result =>
      obtain ⟨opened, shardId⟩ := result
      rw [hopen] at h
      obtain rfl := Except.ok.inj h
      rcases openHome_cases hopen with ⟨home, hmem, rfl, hcurrent, hown, rfl⟩ |
        ⟨hnew, hnamed, hcurrent, rfl⟩
      · exact ⟨home, ⟨⟨s.shards, rfl, Or.inl ⟨hmem, rfl⟩⟩, rfl, hown, hcurrent, rfl, rfl⟩,
          Or.inr ⟨hnone, _, rfl⟩⟩
      · exact ⟨⟨shardId, a.managerId, []⟩, ⟨⟨_, rfl, Or.inr ⟨hnew, rfl, rfl⟩⟩, rfl, rfl, hcurrent,
          rfl, rfl⟩, Or.inr ⟨hnone, _, rfl⟩⟩

theorem placeAccount_stays {shardId : String} (h : Stays s a shardId) :
    placeAccount localeCompare size s a = .ok (s.push shardId a.customerId) := by
  obtain ⟨shard, hshard, rfl⟩ := stays_iff.mp h
  unfold placeAccount
  rw [hshard]

end Step

end LinkSuffix.ScriptFleet
