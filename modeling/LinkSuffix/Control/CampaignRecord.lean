import LinkSuffix.Control.Server

/-!
# The record of a campaign

What the control server writes to the record of one saved campaign (`control.mjs`), all of its
fields included. A handler keeps the object that it had when it was suspended; the map may name
another one by the time it goes on, since a save of the configuration builds a new object, from the
fields of the old one that it lists.

* `Record`: the fields. `savedCampaign`: the object that a save builds.
* `Record.capture`, `Record.reject`, `Record.enroll` and the others: what a handler writes.
* `Server`: the objects, and the one in the map. `persistL4Capture`, `save`.
* `server`: the handlers, interleaved at their awaits.
-/

namespace LinkSuffix.CampaignRecord

open Lib
open ControlServer (Status Selection)

/-! ## The record -/

/-- `capture`. -/
structure Capture extends LinkSuffix.Capture where
  scenarioId : String
  destinationVisited : Bool
  /-- `captureEgressIdentity(run, result, capturedAt)`. -/
  egress : Option String
  deriving DecidableEq

/-- `campaign.latestCaptureEvidence`. -/
structure Evidence where
  kind : String
  capturedAt : Nat
  runId : String
  deriving DecidableEq

/-- `campaign.lastCaptureRejection`. -/
structure Rejection where
  code : String
  message : String
  /-- `at`. -/
  time : Nat
  runId : String
  deriving DecidableEq

/-- What a client sends to save a campaign, and `campaign.config`. -/
structure Payload where
  scenarioId : String := ""
  tier : String := "human"
  hasSchedule : Bool := false
  draftOnly : Bool := false
  redirectCapture : Option String := none
  customerId : String := ""
  googleCampaignId : String := ""
  loginCustomerId : String := ""
  scriptFleetShardId : Option String := none
  syncGoogleAds : Bool := false
  useScriptMesh : Bool := false
  proxyPort : Option Nat := none
  repeats : Nat := 1
  concurrent : Nat := 1
  continuous : Bool := true
  authorized : Bool := true
  deriving DecidableEq

/-- A campaign object. -/
@[ext]
structure Record where
  id : String
  number : Nat
  name : String
  status : Status
  desiredRunning : Bool
  activeRunId : Option String
  restartPending : Bool
  lastError : Option String
  proxySelectionPending : Option Bool
  latestSuffix : Option String
  latestCaptureEgress : Option String
  latestCaptureEvidence : Option Evidence
  lastCapturedAt : Option Nat
  lastStartedWindow : Option String
  createdAt : Nat
  updatedAt : Nat
  config : Payload
  captureHistory : List Capture := []
  lastCaptureRejection : Option Rejection := none
  lastMeshVersion : Option Nat := none
  lastMeshQueuedAt : Option Nat := none
  retryCount : Option Nat := none
  nextRetryAt : Option Nat := none
  fleetActivationState : Option String := none
  fleetAccountLastPollAt : Option String := none
  fleetManifestSeenAt : Option String := none
  fleetActivationWaiting : Option Bool := none
  lastRecoveryAt : Option Nat := none
  lastRecoveryReason : Option String := none
  deriving DecidableEq

/-- `value || other`, of texts. -/
def textOr (value : Option String) (other : String) : String :=
  match value with
  | none => other
  | some value => if value = "" then other else value

/-- `clean(first || second || "default", 80) || "default"`. -/
def shardOr (first second : Option String) : String :=
  textOr (some (clean 80 (textOr first (textOr second "default")))) "default"

/-- The `config` of the object that a save builds. -/
def savedConfig (payload : Payload) (number port : Nat) : Payload :=
  { payload with
    scenarioId := clean 80 (textOr (some payload.scenarioId) s!"Campaign {number}")
    proxyPort := some port
    customerId := clean 40 payload.customerId
    googleCampaignId := clean 80 payload.googleCampaignId
    loginCustomerId := clean 40 payload.loginCustomerId
    repeats := 1
    concurrent := 1
    continuous := payload.tier = "human" }

/-- `String(number).padStart(6, "0")`, behind "campaign-". -/
def campaignId (number : Nat) : String :=
  "campaign-" ++ String.ofList (List.replicate (6 - (toString number).length) '0') ++
    toString number

/-- **The object that `saveCampaignInternal` builds.** -/
def savedCampaign (existing : Option Record) (payload : Payload) (sequence port now : Nat) :
    Record where
  id := (existing.map (·.id)).getD (campaignId sequence)
  number := (existing.map (·.number)).getD sequence
  name := clean 80 (textOr (some payload.scenarioId)
    s!"Campaign {(existing.map (·.number)).getD sequence}")
  status := (existing.map (·.status)).getD (if payload.hasSchedule then .scheduled else .stopped)
  desiredRunning := (existing.map (·.desiredRunning)).getD false
  activeRunId := existing.bind (·.activeRunId)
  restartPending := (existing.map (·.restartPending)).getD false
  lastError := existing.bind (·.lastError)
  proxySelectionPending := existing.bind (·.proxySelectionPending)
  latestSuffix := existing.bind (·.latestSuffix)
  latestCaptureEgress := existing.bind (·.latestCaptureEgress)
  latestCaptureEvidence := existing.bind (·.latestCaptureEvidence)
  lastCapturedAt := existing.bind (·.lastCapturedAt)
  lastStartedWindow := existing.bind (·.lastStartedWindow)
  createdAt := (existing.map (·.createdAt)).getD now
  updatedAt := now
  config := savedConfig payload ((existing.map (·.number)).getD sequence) port

/-! ## Captures -/

/-- A run of the campaign, as a capture or a rejection finds it. -/
structure Source where
  runId : String
  scenarioId : String
  flags : DeliveryFlags
  /-- `run.exitCode === null && !run.stopping`. -/
  live : Bool := true
  deriving DecidableEq

/-- A result that a worker reports, its decision and what it says about its egress. -/
structure Result extends CaptureResult where
  egress : Option String
  /-- What `recordCaptureRejection` appends to the message, if the result is rejected. -/
  details : List String := []
  deriving DecidableEq

/-- `capture`, of an accepted result. -/
def captureOf (source : Source) (result : Result) (evidence finalUrl suffix : String) (now : Nat) :
    Capture where
  capturedAt := now
  runId := source.runId
  sessionId := result.sessionId
  repeatIndex := result.repeatIndex
  evidence := evidence
  finalUrl := finalUrl
  suffix := suffix
  scenarioId := source.scenarioId
  destinationVisited := evidence = "document-response"
  egress := result.egress

namespace Record

/-- What `persistL4Capture` writes. -/
def capture (capture : Capture) (r : Record) : Record :=
  { r with
    lastCaptureRejection := none
    latestSuffix := some capture.suffix
    latestCaptureEgress := capture.egress
    latestCaptureEvidence := some ⟨capture.evidence, capture.capturedAt, capture.runId⟩
    lastCapturedAt := some capture.capturedAt
    captureHistory := sliceLast 100 (r.captureHistory ++ [capture])
    updatedAt := capture.capturedAt }

/-- What a task of `queueL4Capture` writes at its end. -/
def settle (capture : Capture) (meshDelivery : Option Receipt) (syncError : Option String)
    (now : Nat) (r : Record) : Record :=
  let shardId := (meshDelivery.bind (·.shardId)).filter (· ≠ "")
  { r with
    latestSuffix := some capture.suffix
    lastCapturedAt := some capture.capturedAt
    lastMeshVersion := (meshDelivery.bind (·.version)).or r.lastMeshVersion
    lastMeshQueuedAt := if meshDelivery.isSome then some now else r.lastMeshQueuedAt
    config := { r.config with
      scriptFleetShardId := (shardId.map (clean 80)).or r.config.scriptFleetShardId }
    lastError := syncError
    updatedAt := now }

/-- What `recordCaptureRejection` writes. -/
def reject (source : Source) (code message : String) (details : List String) (now : Nat)
    (r : Record) : Record :=
  let message := clean 500 (textOr (some message) "Capture rejected")
  { r with
    lastCaptureRejection := some ⟨clean 80 (textOr (some code) "capture_rejected"), message, now,
      source.runId⟩
    lastError := some (" | ".intercalate ((message :: details).filter (· ≠ "")))
    updatedAt := now }

/-! ## The fleet -/

end Record

/-- What the fleet says about the campaign's target. -/
structure Readiness where
  found : Bool := true
  ready : Bool := false
  /-- `readiness.state`. -/
  activation : Option String := none
  accountLastPollAt : Option String := none
  manifestSeenAt : Option String := none
  shardId : Option String := none
  deriving DecidableEq

namespace Record

/-- `applyCampaignFleetReadiness`. -/
def applyCampaignFleetReadiness (readiness : Readiness) (now : Nat) (r : Record) : Record :=
  { r with
    fleetActivationState := some (textOr (some (clean 80 (textOr readiness.activation "unknown")))
      "unknown")
    fleetAccountLastPollAt := readiness.accountLastPollAt.filter (· ≠ "")
    fleetManifestSeenAt := readiness.manifestSeenAt.filter (· ≠ "")
    fleetActivationWaiting := some !readiness.ready
    updatedAt := now }

/-- What `registerCampaignFleetTarget` writes. -/
def enroll (requestedShardId : Option String) (enrollment : Readiness) (now : Nat) (r : Record) :
    Record :=
  { r with
    config := { r.config with
      useScriptMesh := true
      syncGoogleAds := false
      scriptFleetShardId := some (shardOr enrollment.shardId requestedShardId) }
  }.applyCampaignFleetReadiness enrollment now

/-- What `ensureCampaignFleetReadyForFirstJourney` writes at its end. -/
def firstJourney (readiness : Readiness) (retryMs now : Nat) (r : Record) : Record :=
  let r := r.applyCampaignFleetReadiness readiness now
  if readiness.ready then { r with nextRetryAt := none }
  else { r with nextRetryAt := some (now + retryMs), lastError := none }

/-- The shard that the fleet has assigned, if it is another one. -/
def reassign (readiness : Readiness) (r : Record) : Record :=
  match readiness.shardId.filter (· ≠ "") with
  | none => r
  | some shardId =>
    { r with config := { r.config with scriptFleetShardId := some (clean 80 shardId) } }

/-- `setCampaignFleetEnrollment`, after the answer of the bridge. -/
def setFleet (shardId : Option String) (now : Nat) (r : Record) : Record :=
  match shardId with
  | some shardId =>
    { r with
      config := { r.config with
        useScriptMesh := true, syncGoogleAds := false, scriptFleetShardId := some shardId }
      updatedAt := now }
  | none =>
    { r with
      config := { r.config with useScriptMesh := false, scriptFleetShardId := none }
      fleetActivationState := none
      fleetAccountLastPollAt := none
      fleetManifestSeenAt := none
      fleetActivationWaiting := none
      updatedAt := now }

/-! ## Runs -/

/-- `start_campaign`. -/
def start (r : Record) : Record :=
  { r with
    desiredRunning := true, status := .queued, lastError := none, retryCount := some 0
    nextRetryAt := none }

/-- `stop_campaign`. -/
def stop (r : Record) : Record :=
  { r with desiredRunning := false, restartPending := false, status := .stopped }

/-- `restart_campaign`. -/
def restart (running : Bool) (r : Record) : Record :=
  { r with
    desiredRunning := true, status := .queued, restartPending := running, lastError := none
    retryCount := some 0, nextRetryAt := none }

/-- A launch, in `pumpCampaignQueue`. -/
def launched (runId : String) (r : Record) : Record :=
  { r with
    activeRunId := some runId, status := .running, lastError := none, retryCount := some 0
    nextRetryAt := none }

/-- A failed launch or fleet check, in `pumpCampaignQueue`. -/
def retry (message : String) (now : Nat) (r : Record) : Record :=
  let retryCount := min 10 (r.retryCount.getD 0 + 1)
  { r with
    retryCount := some retryCount
    nextRetryAt := some (now + min 300000 (5000 * 2 ^ (retryCount - 1)))
    status := .queued
    lastError := some message }

/-- What `finalizeRun` writes. -/
def finalize (continuous : Bool) (code : Int) (error : Option String) (now : Nat) (r : Record) :
    Record :=
  let next : Record :=
    if r.restartPending then
      { r with
        activeRunId := none, restartPending := false, desiredRunning := true, status := .queued }
    else if r.desiredRunning ∧ continuous then { r with activeRunId := none, status := .queued }
    else
      { r with
        activeRunId := none
        desiredRunning := false
        status := if r.config.hasSchedule then .scheduled else if code = 0 then .completed
          else .stopped }
  { next with
    lastError := if code = 0 ∨ code = 143 then none
      else some (error.getD s!"Run exited with code {code}")
    updatedAt := now }

/-- What `recoverStalledContinuousRuns` writes. -/
def recover (reason : String) (now : Nat) (r : Record) : Record :=
  { r with lastRecoveryAt := some now, lastRecoveryReason := some reason, updatedAt := now }

/-- What `reconcileCampaignSchedules` writes, with the window that is open, if one is. -/
def reconcile (window : Option String) (running : Bool) (r : Record) : Record :=
  match window with
  | none =>
    { r with
      status := if ¬running ∧ r.status ≠ .queued then .scheduled else r.status
      desiredRunning := false }
  | some windowKey =>
    if ¬running ∧ r.lastStartedWindow ≠ some windowKey then
      { r with lastStartedWindow := some windowKey, desiredRunning := true, status := .queued }
    else r

/-! ## Selections -/

/-- `proxySelectionPending = true; status = "stopped"; desiredRunning = false`. -/
def holdSelection (r : Record) : Record :=
  { r with proxySelectionPending := some true, status := .stopped, desiredRunning := false }

/-- The selection has been assigned. -/
def selected (settledStatus : Status) (r : Record) : Record :=
  { r with proxySelectionPending := some false, status := settledStatus, lastError := none }

/-- The `catch` of `settleCampaignProxySelection`. -/
def unselected (r : Record) : Record :=
  { r.holdSelection with
    lastError := some "Proxy selection could not be completed. Open Edit and Save changes again." }

/-- `create_campaign` starts what it has saved. -/
def queue (draftOnly : Bool) (r : Record) : Record :=
  if ¬r.config.hasSchedule ∧ ¬draftOnly then { r with desiredRunning := true, status := .queued }
  else r

end Record

/-! ## The handlers -/

/-- A campaign object, by its place among those that were built. -/
abbrev Ref := Nat

/-- Where a save is suspended. -/
inductive SaveStage where
  | waiting
  | selecting
  | selected (selection : Selection)
  | policy
  | holding (ref : Ref) (settledStatus : Status)
  | assigning (ref : Ref) (settledStatus : Status)
  | settled (ref : Ref)
  | refused (message : String)
  | durable (ref : Ref)
  deriving DecidableEq

/-- A handler suspended at an await, with the object that it holds. -/
inductive Call where
  /-- `saveCampaign`, behind the saves with a lower ticket. -/
  | saving (ticket : Nat) (created : Bool) (payload : Payload) (stage : SaveStage)
  /-- `create_campaign` or `update_campaign` with the saved campaign, and at its enrollment. -/
  | saved (created : Bool) (draftOnly : Bool) (ref : Ref)
  | registering (created : Bool) (draftOnly : Bool) (ref : Ref)
  /-- A task of `queueL4Capture` at its publication. -/
  | publishing (ref : Ref) (channel : Channel) (capture : Capture)
  /-- `finalizeRun` at `captureQueues.get`, and at the publication of a last capture. -/
  | captures (source : Source) (continuous : Bool) (code : Int) (error : Option String)
  | lastCapture (continuous : Bool) (code : Int) (error : Option String)
  /-- `pumpCampaignQueue` at the readiness of the fleet, at the enrollment and at the launch. -/
  | readiness (ref : Ref)
  | enrollment (ref : Ref)
  | launching (ref : Ref)
  /-- `setCampaignFleetEnrollment` at the bridge. -/
  | enrolling (ref : Ref) (shardId : String)
  | withdrawing (ref : Ref)
  /-- `delete_campaign` at the bridge. -/
  | deleting
  deriving DecidableEq

/-- What a piece learns from outside: the clock, what the awaited promise or a check left out here
threw, and the answer itself. -/
structure Answer where
  now : Nat := 0
  error : Option String := none
  /-- The gateway port of a save. -/
  port : Nat := 0
  selection : Option Selection := none
  readiness : Readiness := {}
  /-- The start gap is over, and there is memory for a launch. -/
  admitted : Bool := true
  runId : String := ""
  /-- The result that `captureExactL4Suffix` reads. -/
  result : Option Result := none
  outcome : Outcome := .ok {}

/-- A command of a client, a timer, or what a worker reports. -/
inductive Input where
  | createCampaign (payload : Payload)
  | updateCampaign (payload : Payload)
  | setCampaignFleet (enabled : Bool) (shardId : Option String)
  | startCampaign
  | stopCampaign
  | restartCampaign (running : Bool)
  | deleteCampaign
  /-- A task of `queueL4Capture` begins. -/
  | captured (source : Source) (result : Result) (now : Nat)
  | captureRejected (source : Source) (code message : String) (details : List String) (now : Nat)
  | finalize (source : Source) (continuous : Bool) (code : Int) (error : Option String)
  /-- The pump selects the campaign. -/
  | pump (now : Nat)
  | watchdog (reason : String) (now : Nat)
  | reconcile (window : Option String) (running : Bool)
  deriving DecidableEq

/-- What a piece shows. -/
inductive Reply where
  | silent
  /-- The campaign has accepted a capture. -/
  | accepted (capture : Capture)
  | refused (message : String)
  deriving DecidableEq

/-- The objects of one campaign, and the one that the map names. -/
structure Server where
  objects : List Record := []
  current : Option Ref := none
  saveTickets : Nat := 0
  saveTail : Nat := 0
  deriving DecidableEq

/-- What the server was started with. -/
structure Settings where
  fleetActivationRetryMs : Nat

namespace Server

variable (settings : Settings) (s : Server)

/-- `campaigns.get(id)`. -/
def stored : Option (Ref × Record) := do
  let ref ← s.current
  let record ← s.objects[ref]?
  return (ref, record)

/-- A write to the fields of an object. -/
def modify (ref : Ref) (f : Record → Record) : Server :=
  { s with objects := s.objects.modify ref f }

/-- A write to the object that the map names, if it names one. -/
def modifyStored (f : Record → Record) : Server :=
  match s.current with
  | none => s
  | some ref => s.modify ref f

/-- `campaigns.set(campaignId, campaign)`. -/
def store (record : Record) : Server :=
  { s with objects := s.objects ++ [record], current := some s.objects.length }

/-- The next save of the chain may begin. -/
def endSave : Server := { s with saveTail := s.saveTail + 1 }

/-- What a save stores, with what the settlement of the selection writes before it awaits, and
where the save is then suspended. -/
def put (record : Record) (changed : Bool) : Server × SaveStage :=
  if changed then (s.store record.holdSelection, .holding s.objects.length record.status)
  else (s.store record, .durable s.objects.length)

/-- `saveCampaignInternal` from `campaigns.get` to its next await. -/
def commitSave (ticket : Nat) (created : Bool) (payload : Payload) (changed : Bool)
    (port now : Nat) : Piece Server Call Reply :=
  let commit (existing : Option Record) : Piece Server Call Reply :=
    let next := s.put (savedCampaign existing payload 1 port now) changed
    ⟨next.1, [.saving ticket created payload next.2], .silent⟩
  if created then
    -- The first object is the created one. What is created after it is another campaign.
    if s.objects = [] then commit none else ⟨s.endSave, [], .silent⟩
  else
    match s.stored with
    | none => ⟨s.endSave, [], .refused "Campaign was not found"⟩
    | some (_, record) => commit (some record)

/-- `payload = { ...payload, redirectCapture: campaigns.get(id).config.redirectCapture }`. -/
def carried (created : Bool) (payload : Payload) : Payload :=
  if ¬created ∧ payload.redirectCapture.isNone then
    { payload with redirectCapture := s.stored.bind (·.2.config.redirectCapture) }
  else payload

/-- One piece of `saveCampaign`. -/
def save (ticket : Nat) (created : Bool) (payload : Payload) (stage : SaveStage) (a : Answer) :
    Piece Server Call Reply :=
  let threw (message : String) : Piece Server Call Reply := ⟨s.endSave, [], .refused message⟩
  match stage, a.error with
  | .waiting, _ =>
    if ticket = s.saveTail then
      ⟨s, [.saving ticket created (s.carried created payload) .selecting], .silent⟩
    else ⟨s, [.saving ticket created payload .waiting], .silent⟩
  | .refused message, _ => threw message
  | .selecting, none =>
    match a.selection with
    | none => ⟨s, [.saving ticket created payload .policy], .silent⟩
    | some selection => ⟨s, [.saving ticket created payload (.selected selection)], .silent⟩
  | .selected selection, none =>
    s.commitSave ticket created payload selection.changed a.port a.now
  | .policy, none => s.commitSave ticket created payload false a.port a.now
  | .holding ref settledStatus, none =>
    ⟨s, [.saving ticket created payload (.assigning ref settledStatus)], .silent⟩
  | .assigning ref settledStatus, none =>
    ⟨s.modify ref (.selected settledStatus), [.saving ticket created payload (.settled ref)],
      .silent⟩
  | .settled ref, none => ⟨s, [.saving ticket created payload (.durable ref)], .silent⟩
  | .durable ref, none => ⟨s.endSave, [.saved created payload.draftOnly ref], .silent⟩
  | .assigning ref _, some message | .settled ref, some message =>
    ⟨s.modify ref .unselected, [.saving ticket created payload (.refused message)], .silent⟩
  | _, some message => threw message

/-- `recordCaptureRejection`. -/
def recordCaptureRejection (source : Source) (code message : String) (details : List String)
    (now : Nat) : Server :=
  match s.stored with
  | none => s
  | some (ref, record) =>
    if source.live ∧ code ≠ "missing_suffix" ∧ record.activeRunId = some source.runId ∧
        record.desiredRunning then
      s.modify ref (.reject source code message details now)
    else s

/-- `persistL4Capture`, with the capture if the campaign has accepted it. -/
def persistL4Capture (source : Source) (result : Result) (now : Nat) : Server × Option Capture :=
  match result.decision with
  | .rejected code message =>
    (s.recordCaptureRejection source code message result.details now, none)
  | .accepted evidence finalUrl suffix =>
    match s.stored with
    | none => (s, none)
    | some (ref, _) =>
      let capture := captureOf source result evidence finalUrl suffix now
      (s.modify ref (.capture capture), some capture)

/-- A task of `queueL4Capture`, up to its publication. -/
def captured (source : Source) (result : Result) (now : Nat) : Piece Server Call Reply :=
  let persisted := s.persistL4Capture source result now
  match s.stored, persisted.2 with
  | some (ref, record), some capture =>
    match source.flags.channel with
    | some channel =>
      if record.latestSuffix = some capture.suffix then
        ⟨persisted.1.modify ref (.settle capture none none now), [], .accepted capture⟩
      else ⟨persisted.1, [.publishing ref channel capture], .accepted capture⟩
    | none => ⟨persisted.1.modify ref (.settle capture none none now), [], .accepted capture⟩
  | _, _ => ⟨persisted.1, [], .silent⟩

/-- The publication has settled. -/
def published (ref : Ref) (channel : Channel) (capture : Capture) (a : Answer) :
    Piece Server Call Reply :=
  match a.outcome with
  | .ok receipt =>
    let meshDelivery := if channel = .mesh then some receipt else none
    ⟨s.modify ref (.settle capture meshDelivery none a.now), [], .silent⟩
  | .error message => ⟨s.modify ref (.settle capture none (some message) a.now), [], .silent⟩

/-- `finalizeRun` behind the captures of the run. -/
def afterCaptures (source : Source) (continuous : Bool) (code : Int) (error : Option String)
    (a : Answer) : Piece Server Call Reply :=
  match a.result with
  | none => ⟨s.modifyStored (.finalize continuous code error a.now), [], .silent⟩
  | some result =>
    let persisted := s.persistL4Capture source result a.now
    let reply : Reply := match persisted.2 with
      | some capture => .accepted capture
      | none => .silent
    if persisted.2.isSome ∧ source.flags.channel.isSome then
      ⟨persisted.1, [.lastCapture continuous code error], reply⟩
    else ⟨persisted.1.modifyStored (.finalize continuous code error a.now), [], reply⟩

/-- The pump, behind the readiness of the fleet. -/
def fleetReady (ref : Ref) (readiness : Readiness) (a : Answer) : Piece Server Call Reply :=
  ⟨s.modify ref (.firstJourney readiness settings.fleetActivationRetryMs a.now),
    if a.admitted then [.launching ref] else [], .silent⟩

/-- The end of `create_campaign` or `update_campaign`. -/
def endSaveHandler (created draftOnly : Bool) (ref : Ref) : Piece Server Call Reply :=
  ⟨if created then s.modify ref (.queue draftOnly) else s, [], .silent⟩

/-- Whether `selectQueuedCampaign` may select the campaign. -/
def selectable (record : Record) (now : Nat) : Bool :=
  record.proxySelectionPending ≠ some true && record.status = .queued && record.desiredRunning &&
    record.nextRetryAt.getD 0 ≤ now

/-- A command on the campaign, refused if there is none. -/
def onStored (f : Ref → Record → Piece Server Call Reply) : Piece Server Call Reply :=
  match s.stored with
  | none => ⟨s, [], .refused "Campaign was not found"⟩
  | some (ref, record) => f ref record

/-- A command that `assertProxySelectionReady` may refuse. -/
def whenSelected (record : Record) (piece : Piece Server Call Reply) : Piece Server Call Reply :=
  if record.proxySelectionPending = some true then
    ⟨s, [], .refused ControlServer.Server.selectionIncomplete⟩
  else piece

/-- `handle`, the timers and the messages of the workers. -/
def accept : Input → Piece Server Call Reply
  | .createCampaign payload =>
    ⟨{ s with saveTickets := s.saveTickets + 1 }, [.saving s.saveTickets true payload .waiting],
      .silent⟩
  | .updateCampaign payload =>
    ⟨{ s with saveTickets := s.saveTickets + 1 }, [.saving s.saveTickets false payload .waiting],
      .silent⟩
  | .setCampaignFleet enabled shardId => s.onStored fun ref record =>
    ⟨s, [if enabled then .enrolling ref (shardOr shardId record.config.scriptFleetShardId)
      else .withdrawing ref], .silent⟩
  | .startCampaign => s.onStored fun ref record => s.whenSelected record
      ⟨if record.activeRunId.isNone then s.modify ref .start else s, [], .silent⟩
  | .stopCampaign => s.onStored fun ref _ => ⟨s.modify ref .stop, [], .silent⟩
  | .restartCampaign running => s.onStored fun ref record => s.whenSelected record
      ⟨s.modify ref (.restart running), [], .silent⟩
  | .deleteCampaign => s.onStored fun _ _ => ⟨s, [.deleting], .silent⟩
  | .captured source result now => s.captured source result now
  | .captureRejected source code message details now =>
    ⟨s.recordCaptureRejection source code message details now, [], .silent⟩
  | .finalize source continuous code error =>
    ⟨s, [.captures source continuous code error], .silent⟩
  | .pump now =>
    match s.stored with
    | none => ⟨s, [], .silent⟩
    | some (ref, record) =>
      if selectable record now then
        ⟨s, [if record.config.useScriptMesh then .readiness ref else .launching ref], .silent⟩
      else ⟨s, [], .silent⟩
  | .watchdog reason now => ⟨s.modifyStored (.recover reason now), [], .silent⟩
  | .reconcile window running =>
    match s.stored with
    | none => ⟨s, [], .silent⟩
    | some (ref, record) =>
      if record.proxySelectionPending = some true ∨ ¬record.config.hasSchedule ∨
          record.config.draftOnly then ⟨s, [], .silent⟩
      else ⟨s.modify ref (.reconcile window running), [], .silent⟩

/-- A suspended handler goes on. -/
def resume (call : Call) (a : Answer) : Piece Server Call Reply :=
  match call, a.error with
  | .saving ticket created payload stage, _ => s.save ticket created payload stage a
  | .publishing ref channel capture, _ => s.published ref channel capture a
  | .captures source continuous code error, _ => s.afterCaptures source continuous code error a
  | .lastCapture continuous code error, _ =>
    ⟨s.modifyStored (.finalize continuous code error a.now), [], .silent⟩
  | .saved created draftOnly ref, _ =>
    if (s.objects[ref]?).any (·.config.useScriptMesh) then
      ⟨s, [.registering created draftOnly ref], .silent⟩
    else s.endSaveHandler created draftOnly ref
  | .registering created draftOnly ref, none =>
    (s.modify ref fun r => r.enroll r.config.scriptFleetShardId a.readiness a.now).endSaveHandler
      created draftOnly ref
  | .readiness ref, none =>
    if a.readiness.found then (s.modify ref (.reassign a.readiness)).fleetReady settings ref
      a.readiness a
    else ⟨s, [.enrollment ref], .silent⟩
  | .enrollment ref, none =>
    (s.modify ref fun r => r.enroll r.config.scriptFleetShardId a.readiness a.now).fleetReady
      settings ref a.readiness a
  | .launching ref, none => ⟨s.modify ref (.launched a.runId), [], .silent⟩
  | .enrolling ref shardId, none =>
    ⟨(s.modify ref (.enroll (some shardId) a.readiness a.now)).modify ref
      (.setFleet (some (shardOr a.readiness.shardId (some shardId))) a.now), [], .silent⟩
  | .withdrawing ref, none => ⟨s.modify ref (.setFleet none a.now), [], .silent⟩
  | .deleting, none => ⟨{ s with current := none }, [], .silent⟩
  | .readiness ref, some message | .enrollment ref, some message | .launching ref, some message =>
    ⟨s.modify ref (.retry message a.now), [], .silent⟩
  | _, some message => ⟨s, [], .refused message⟩

end Server

/-- The handlers, interleaved at their awaits. -/
def server (settings : Settings) : AwaitSystem Server Call Input Answer Reply where
  accept := Server.accept
  resume := Server.resume settings
  silent := .silent

end LinkSuffix.CampaignRecord
