import LinkSuffix.Lib.Transaction
import LinkSuffix.Store.Schema
import Mathlib.Data.List.Dedup
import Mathlib.Data.String.Basic

/-!
# Enrolment: targets, shards and manager bindings

The operations of `script-bridge-store.ts` that assign campaigns to shards, each a program with one
statement per query. Those that take the `fleet-enrollment-assignment` advisory lock
(`upsertBridgeTarget`, `registerBridgeShard`, `deleteBridgeShard`, and `setBridgeTargetEnabled` when
it enables) run one at a time; `deleteBridgeTarget` and a pause run freely.
-/

namespace LinkSuffix

open Lib

/-- A transaction body on the store. -/
abbrev StoreProg (α : Type) : Type 1 := Prog Store StoreError α

/-! ## Input -/

/-- `BridgeTargetInput`. -/
structure BridgeTargetInput where
  campaignRecordId : String
  campaignName : String
  managerCustomerId : Option String := none
  customerId : String
  googleCampaignId : String
  shardId : Option String := none
  deriving DecidableEq

/-- `targetId`. -/
def targetId (cfg : Config) (input : BridgeTargetInput) : String :=
  sliceTo 40 (cfg.digest (normalizeId (input.managerCustomerId.getD "") ++ ":" ++
    normalizeId input.customerId ++ ":" ++ normalizeId input.googleCampaignId))

/-- `normalizeFleetShardId`. -/
def normalizeFleetShardId (value : String) : Except StoreError String :=
  let id := trim value
  if isShardId id then .ok id
  else .error (fail ("A valid shard name is required: " ++
    "1-80 letters, numbers, periods, underscores, colons or hyphens."))

/-- `normalizeFleetManagerId`. -/
def normalizeFleetManagerId (value : String) : Except StoreError String :=
  let raw := trim value
  let id := String.ofList (raw.toList.filter fun c => !(isJsSpace c || c = '-'))
  if raw ≠ "" ∧ raw.toList.all (fun c => c.isDigit || isJsSpace c || c = '-')
      ∧ isDigits 10 10 id then .ok id
  else .error (fail "A valid 10-digit Google Ads MCC ID is required.")

/-- The identity `upsertBridgeTarget` works with once its input has passed the checks. -/
structure Enrolment where
  id : String
  campaignRecordId : String
  campaignName : String
  managerCustomerId : String
  customerId : String
  googleCampaignId : String
  requestedShardId : String
  deriving DecidableEq

/-- `(input.shardId || "default").trim()`. -/
def requestedShard (shardId : Option String) : String :=
  match shardId with
  | none => "default"
  | some id => if id = "" then "default" else trim id

/-- The checks at the top of `upsertBridgeTarget`. -/
def checkEnrolment (cfg : Config) (input : BridgeTargetInput) : Except StoreError Enrolment :=
  let managerCustomerId := normalizeId (input.managerCustomerId.getD "")
  let customerId := normalizeId input.customerId
  let googleCampaignId := normalizeId input.googleCampaignId
  let requestedShardId := requestedShard input.shardId
  if trim input.campaignRecordId = "" then .error (fail "Saved campaign record ID is required")
  else if customerId = "" ∨ googleCampaignId = "" then
    .error (fail "Customer ID and Google Ads campaign ID are required")
  else if ¬ isDigits 10 10 managerCustomerId then
    .error (fail "A valid 10-digit Google Ads MCC ID is required for Fleet delivery")
  else if ¬ isDigits 10 10 customerId then
    .error (fail "A valid 10-digit Google Ads customer ID is required")
  else if ¬ isDigits 8 20 googleCampaignId then
    .error (fail "A valid Google Ads campaign ID is required")
  else if ¬ isShardId requestedShardId then .error (fail "Invalid Fleet shard ID")
  else .ok {
    id := targetId cfg input
    campaignRecordId := input.campaignRecordId
    campaignName := input.campaignName
    managerCustomerId := managerCustomerId
    customerId := customerId
    googleCampaignId := googleCampaignId
    requestedShardId := requestedShardId }

/-! ## The manager binding of a shard -/

/-- `SELECT deleted_at …`: whether the shard is a tombstone. -/
def Store.shardDeleted (s : Store) (shardId : String) : Bool :=
  (s.shard? shardId).any fun shard => shard.deletedAt.isSome

/-- The row of `tah_fleet_shard_managers`. -/
def Store.binding (s : Store) (shardId : String) : Option String :=
  (s.shardManagers.find? (·.shardId = shardId)).map (·.managerCustomerId)

/-- `SELECT DISTINCT manager_customer_id … WHERE shard_id=$1 AND archived_at IS NULL`. -/
def Store.assignedManagers (s : Store) (shardId : String) : List String :=
  ((s.targets.filter fun t => t.shardId = shardId ∧ t.archivedAt = none).map
    (·.managerCustomerId)).dedup

/-- `assertShardNotDeleted`. -/
def assertShardNotDeleted (shardId : String) : StoreProg Unit := do
  let deleted ← Prog.query fun s => s.shardDeleted shardId
  Prog.require (deleted = false)
    (shardConflict "This shard was deleted and its name is reserved. Choose a new shard name.")

/-- The `managers` set of `bindFleetShardManager`, in insertion order. -/
def collectManagers (rows : List String) (requestedManager : String) :
    Except StoreError (List String) := do
  let managers ← (rows.filter (· ≠ "")).mapM normalizeFleetManagerId
  return (if requestedManager = "" then managers else managers ++ [requestedManager]).dedup

/-- `INSERT INTO tah_fleet_shard_managers … ON CONFLICT DO UPDATE … WHERE …`: the row count. -/
def saveBinding (shardId managerCustomerId : String) : Work Nat := fun s =>
  match s.binding shardId with
  | none => .ok (1, { s with shardManagers := s.shardManagers ++ [⟨shardId, managerCustomerId⟩] })
  | some bound => .ok (if bound = managerCustomerId then 1 else 0, s)

/-- `bindFleetShardManager`. -/
def bindFleetShardManager (shardId requestedManager : String) : StoreProg String := do
  assertShardNotDeleted shardId
  let bound ← Prog.query fun s => (s.binding shardId).toList
  let assigned ← Prog.query fun s => s.assignedManagers shardId
  let managers ← Prog.lift (collectManagers (bound ++ assigned) requestedManager)
  Prog.require (managers.length ≤ 1) (fail ("Fleet shard " ++ shardId ++
    " belongs to a different MCC; create a new shard for the other MCC."))
  match managers.head? with
  | none => return ""
  | some managerCustomerId => do
    let saved ← Prog.exec (saveBinding shardId managerCustomerId)
    Prog.require (saved = 1) (fail "Fleet shard belongs to a different MCC.")
    return managerCustomerId

/-! ## `upsertBridgeTarget` -/

/-- The occupancy query: the enabled targets of a shard under other records. -/
def Store.occupants (s : Store) (shardId campaignRecordId : String) : List CampaignTarget :=
  s.targets.filter fun t =>
    t.enabled ∧ t.shardId = shardId ∧ t.campaignRecordId ≠ campaignRecordId

/-- The distinct non-empty manager ids of some targets. -/
def managersOf (targets : List CampaignTarget) : List String :=
  ((targets.map (·.managerCustomerId)).filter (· ≠ "")).dedup

/-- `shard_ids`: every shard name with the manager's prefix that a shard or a target has. -/
def Store.shardIds (s : Store) (shardPrefix : String) : List String :=
  ((s.shards.map (·.shardId) ++ s.targets.map (·.shardId)).filter
    (hasPrefix shardPrefix)).dedup

/-- The `WHERE` and `HAVING` of the available-shard query. -/
def Store.shardAvailable (s : Store) (managerCustomerId campaignRecordId shardId : String) : Bool :=
  !s.shardDeleted shardId
    && (s.binding shardId).all (· = managerCustomerId)
    && (s.occupants shardId campaignRecordId).length < shardCapacity
    && ((managersOf (s.targets.filter fun t => t.shardId = shardId ∧ t.enabled)).argmin id).all
      (· = managerCustomerId)

/-- The number at the end of a shard name `<prefix><digits>`. -/
def shardNumber (shardPrefix shardId : String) : Nat :=
  if hasPrefix shardPrefix shardId then
    (parseDigits (shardId.toList.drop shardPrefix.length)).getD 0
  else 0

/-- The next unused name after the highest number. -/
def Store.nextShardId (s : Store) (shardPrefix : String) : String :=
  shardPrefix ++
    padStart3 ((s.shardIds shardPrefix).foldl (fun n id => max n (shardNumber shardPrefix id)) 0 + 1)

/-- `mcc-<manager>-`. -/
def Enrolment.shardPrefix (e : Enrolment) : String := "mcc-" ++ e.managerCustomerId ++ "-"

/-- The shard tried first. -/
def Enrolment.preferred (e : Enrolment) : String :=
  if e.requestedShardId = "default" then e.shardPrefix ++ "001" else e.requestedShardId

/-- The preferred shard is bound, unless it is a default one that was retired. -/
def bindPreferred (e : Enrolment) : StoreProg Bool := do
  let retired ← Prog.query fun s => s.shardDeleted e.preferred
  if e.requestedShardId ≠ "default" ∨ retired = false then do
    let _ ← bindFleetShardManager e.preferred e.managerCustomerId
    return retired
  else return retired

/-- The occupancy checks on the preferred shard: how many other campaigns it has. -/
def checkOccupants (e : Enrolment) : StoreProg Nat := do
  let occupants ← Prog.query fun s => s.occupants e.preferred e.campaignRecordId
  let managers := managersOf occupants
  Prog.require (managers.length ≤ 1) (fail ("Fleet shard " ++ e.preferred ++
    " contains campaigns from multiple MCC accounts"))
  Prog.require (managers.all (· = e.managerCustomerId)) (fail ("Fleet shard " ++ e.preferred ++
    " belongs to MCC " ++ (managers.head?).getD "" ++ "; select a shard for MCC " ++
    e.managerCustomerId))
  return occupants.length

/-- The first available shard of the manager by name, or else the next unused name. -/
def Store.availableShard (s : Store) (e : Enrolment) : Option String :=
  ((s.shardIds e.shardPrefix).filter
    (s.shardAvailable e.managerCustomerId e.campaignRecordId)).argmin id

/-- A full or retired shard is replaced by another. -/
def chooseShard (e : Enrolment) (occupied : Nat) (retired : Bool) : StoreProg String :=
  if shardCapacity ≤ occupied ∨ retired = true then do
    let available ← Prog.query fun s => s.availableShard e
    match available with
    | some shardId => return shardId
    | none => Prog.query fun s => s.nextShardId e.shardPrefix
  else return e.preferred

/-- The shard `upsertBridgeTarget` assigns, bound to the campaign's manager. -/
def assignShard (e : Enrolment) : StoreProg String := do
  let retired ← bindPreferred e
  let occupied ← checkOccupants e
  let assigned ← chooseShard e occupied retired
  let _ ← bindFleetShardManager assigned e.managerCustomerId
  return assigned

/-- The target row an enrolment writes: a new one, or `old` overwritten and re-enabled. -/
def Enrolment.row (cfg : Config) (e : Enrolment) (shardId : String) (old : Option CampaignTarget) :
    CampaignTarget where
  targetId := e.id
  campaignRecordId := e.campaignRecordId
  campaignName := e.campaignName
  managerCustomerId := e.managerCustomerId
  customerId := e.customerId
  googleCampaignId := e.googleCampaignId
  shardId := shardId
  enabled := true
  minDeliveryIntervalMs := cfg.minIntervalMs
  lastAppliedAt := old.bind (·.lastAppliedAt)
  lastAppliedSuffixHash := old.bind (·.lastAppliedSuffixHash)
  archivedAt := none

/-- `UPDATE tah_campaign_targets … RETURNING`: reading `rows[0]` of an empty result throws. -/
def updateTarget (cfg : Config) (e : Enrolment) (shardId : String) : Work Unit := fun s =>
  match s.target? e.id with
  | none => .error (fail "Cannot read properties of undefined (reading 'target_id')")
  | some old =>
    .ok ((), { s with
      targets := updateKey (·.targetId) e.id (fun _ => e.row cfg shardId (some old)) s.targets })

/-- `INSERT INTO tah_campaign_targets`. -/
def insertTarget (cfg : Config) (e : Enrolment) (shardId : String) (s : Store) : Store :=
  { s with targets := s.targets ++ [e.row cfg shardId none] }

/-- The ownership checks and the write that end `upsertBridgeTarget`. -/
def saveTarget (cfg : Config) (e : Enrolment) (shardId : String) : StoreProg Unit := do
  let targetOwner ← Prog.query fun s => s.target? e.id
  let recordOwner ← Prog.query fun s =>
    s.targets.find? (·.campaignRecordId = e.campaignRecordId)
  Prog.require
    (targetOwner.all fun t =>
      !(t.campaignRecordId ≠ e.campaignRecordId && t.enabled && t.archivedAt = none))
    (fail "Another saved campaign already owns this Google Ads target")
  Prog.require (recordOwner.all (·.targetId = e.id))
    (fail ("This saved campaign is already assigned to a different Google Ads target; " ++
      "remove it from Fleet first"))
  if targetOwner.isSome then Prog.exec (updateTarget cfg e shardId)
  else Prog.update (insertTarget cfg e shardId)

/-- What `upsertBridgeTarget` returns. -/
structure Assignment where
  targetId : String
  shardId : String
  deriving DecidableEq

/-- `upsertBridgeTarget`. -/
def upsertBridgeTarget (cfg : Config) (input : BridgeTargetInput) : StoreProg Assignment := do
  let e ← Prog.lift (checkEnrolment cfg input)
  let shardId ← assignShard e
  saveTarget cfg e shardId
  return ⟨e.id, shardId⟩

/-- The error `upsertBridgeTarget` rethrows for a unique violation. -/
def mapUniqueViolation (e : StoreError) : StoreError :=
  if e.code = some "23505" then fail "Another saved campaign already owns this Google Ads target"
  else e

/-! ## Shards -/

/-- `INSERT INTO tah_script_shards … ON CONFLICT DO UPDATE SET token_hash, enabled=true`. -/
def saveShard (shardId tokenHash : String) (s : Store) : Store :=
  match s.shard? shardId with
  | none => { s with shards := s.shards ++ [{ shardId := shardId, tokenHash := tokenHash }] }
  | some _ => { s with
      shards := updateKey (·.shardId) shardId
        (fun shard => { shard with tokenHash := tokenHash, enabled := true }) s.shards }

/-- What `registerBridgeShard` returns. -/
structure ShardIdentity where
  shardId : String
  managerCustomerId : String
  deriving DecidableEq

/-- `registerBridgeShard`. -/
def registerBridgeShard (cfg : Config) (shardId rawToken requestedManager : String) :
    StoreProg ShardIdentity := do
  let id ← Prog.lift (normalizeFleetShardId shardId)
  Prog.require (24 ≤ utf16Length rawToken) (fail "A strong shard token is required")
  let manager ← Prog.lift
    (if requestedManager = "" then .ok "" else normalizeFleetManagerId requestedManager)
  let managerCustomerId ← bindFleetShardManager id manager
  Prog.update (saveShard id (cfg.digest rawToken))
  return ⟨id, managerCustomerId⟩

/-- `["completed","yielded","empty","failed"].includes(status)`. -/
def terminalStatus (status : Option String) : Bool :=
  status.getD "" ∈ ["completed", "yielded", "empty", "failed"]

/-- Whether the shard's script may still be inside its execution window at `nowMs`. -/
def ScriptShard.executing (shard : ScriptShard) (nowMs : Nat) : Bool :=
  let startedAt := shard.lastExecutionStartedAt.getD 0
  let finishedAt := shard.lastExecutionCompletedAt.getD 0
  let activeUntil :=
    if startedAt ≠ 0 then
      if shard.hardStopAt.getD 0 ≠ 0 then shard.hardStopAt.getD 0 else startedAt + 65 * 60000
    else if shard.lastPollAt.getD 0 ≠ 0 then shard.lastPollAt.getD 0 + 65 * 60000
    else 0
  (startedAt = 0 ∨ (terminalStatus shard.lastExecutionStatus = false ∧ finishedAt < startedAt))
    ∧ nowMs < activeUntil

/-- The active leases of a shard: taken by it, or of a campaign on it where the taker is unknown. -/
def Store.shardLeased (s : Store) (shardId : String) (now : Nat) : Bool :=
  s.jobs.any fun j =>
    j.state = .leased && j.leasedUntil.all (now ≤ ·)
      && (j.leaseShardId = some shardId
        || (j.leaseShardId = none && (s.target? j.targetId).any (·.shardId = shardId)))

/-- What `deleteBridgeShard` returns. -/
structure ShardDeletion where
  shardId : String
  alreadyDeleted : Bool
  deriving DecidableEq

/-- `deleteBridgeShard`. `randomToken` is the unguessable token the tombstone is left with. -/
def deleteBridgeShard (cfg : Config) (shardId confirmedShardId randomToken : String)
    (now dateNow : Nat) : StoreProg ShardDeletion := do
  let id ← Prog.lift (normalizeFleetShardId shardId)
  Prog.require (confirmedShardId = id) (fail "Exact shard-name confirmation is required.")
  let found ← Prog.query fun s => s.shard? id
  match found with
  | none => Prog.throw (fail "Registered shard was not found.")
  | some shard =>
    if shard.deletedAt.isSome then return ⟨id, true⟩
    else do
      let assigned ← Prog.query fun s =>
        (s.targets.filter fun t => t.shardId = id ∧ t.archivedAt = none).length
      Prog.require (assigned = 0) (shardConflict ("Move or remove all campaigns from this shard, " ++
        "including paused campaigns, before deleting it."))
      let leased ← Prog.query fun s => s.shardLeased id now
      Prog.require (leased = false) (shardConflict ("This shard still has an active delivery " ++
        "lease. Wait for delivery to settle before deleting it."))
      Prog.require (shard.executing dateNow = false) (shardConflict ("Stop this shard's Google " ++
        "Ads script and wait for its current execution window to finish before deleting it."))
      Prog.update fun s => { s with
        shards := updateKey (·.shardId) id
          (fun shard => { shard with
            enabled := false, deletedAt := some now, tokenHash := cfg.digest randomToken })
          s.shards }
      return ⟨id, false⟩

/-! ## Pausing, resuming and removing a target -/

/-- The lease columns cleared and the job given up. -/
def DeliveryJob.supersede (j : DeliveryJob) : DeliveryJob :=
  { j with
    state := .superseded, leasedAt := none, leasedUntil := none, leaseTokenHash := none
    workerId := none }

/-- `UPDATE tah_campaign_targets SET enabled … RETURNING target_id`. -/
def setEnabled (campaignRecordId : String) (enabled : Bool) : Work (List String) := fun s =>
  let chosen (t : CampaignTarget) : Bool :=
    t.campaignRecordId = campaignRecordId && t.archivedAt = none
  .ok ((s.targets.filter chosen).map (·.targetId),
    { s with targets := updateWhere chosen (fun t => { t with enabled := enabled }) s.targets })

/-- The open jobs of a paused target. -/
def supersedeOpen (targetId : String) (s : Store) : Store :=
  { s with
    jobs := updateWhere (fun j => j.targetId = targetId && (j.state.waiting || j.state = .leased))
      DeliveryJob.supersede s.jobs }

/-- The checks before a target is enabled: it exists, and its shard is bound to its manager. -/
def checkResume (campaignRecordId : String) (enabled : Bool) : StoreProg Unit :=
  if enabled then do
    let target ← Prog.query fun s =>
      s.targets.find? fun t => t.campaignRecordId = campaignRecordId ∧ t.archivedAt = none
    match target with
    | none => Prog.throw (fail "Campaign target was not found")
    | some t => do
      let manager ← Prog.lift (normalizeFleetManagerId t.managerCustomerId)
      let _ ← bindFleetShardManager t.shardId manager
      return ()
  else return ()

/-- The flag is written; a pause also supersedes the open jobs. -/
def writeEnabled (campaignRecordId : String) (enabled : Bool) : StoreProg Unit := do
  let updated ← Prog.exec (setEnabled campaignRecordId enabled)
  match updated with
  | [id] => if enabled then return () else Prog.update (supersedeOpen id)
  | _ => Prog.throw (fail "Campaign target was not found")

/-- `setBridgeTargetEnabled`. -/
def setBridgeTargetEnabled (campaignRecordId : String) (enabled : Bool) : StoreProg Unit := do
  checkResume campaignRecordId enabled
  writeEnabled campaignRecordId enabled

/-- `{ targetId?, campaignRecordId? }`. -/
structure DeleteTargetInput where
  targetId : Option String := none
  campaignRecordId : Option String := none
  deriving DecidableEq

/-- `/^[a-f0-9]{40}$/i`. -/
def isTargetId (value : String) : Bool :=
  value.toList.all (fun c => c.isDigit || ('a' ≤ c.toLower && c.toLower ≤ 'f'))
    && value.length = 40

/-- The row the selector names. -/
def DeleteTargetInput.selects (input : DeleteTargetInput) (t : CampaignTarget) : Bool :=
  let targetIdValue := trim (input.targetId.getD "")
  if targetIdValue ≠ "" then t.targetId = targetIdValue
  else t.campaignRecordId = trim (input.campaignRecordId.getD "")

/-- `DELETE FROM tah_campaign_targets WHERE target_id=$1`, with the cascades to captures and jobs. -/
def removeTarget (targetId : String) (s : Store) : Store :=
  { s with
    targets := s.targets.filter (·.targetId ≠ targetId)
    captures := s.captures.filter (·.targetId ≠ targetId)
    jobs := s.jobs.filter fun j => j.targetId ≠ targetId
      ∧ ¬ s.captures.any fun c => c.captureId = j.captureId && c.targetId = targetId }

/-- `deleteBridgeTarget`: the deleted row, if there was one. -/
def deleteBridgeTarget (input : DeleteTargetInput) : Work (Option CampaignTarget) := fun s =>
  let targetIdValue := trim (input.targetId.getD "")
  let campaignRecordId := trim (input.campaignRecordId.getD "")
  if targetIdValue ≠ "" ∧ ¬ isTargetId targetIdValue then
    .error (fail "A valid Fleet target ID is required")
  else if targetIdValue = "" ∧ campaignRecordId = "" then
    .error (fail "A Fleet target ID or saved campaign record ID is required")
  else if 120 < utf16Length campaignRecordId then .error (fail "Invalid saved campaign record ID")
  else
    match s.targets.find? input.selects with
    | none => .ok (none, s)
    | some t => .ok (some t, removeTarget t.targetId s)

end LinkSuffix
