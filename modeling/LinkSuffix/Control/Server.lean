import LinkSuffix.Control.CaptureQueue
import LinkSuffix.Control.WorkerPool
import LinkSuffix.Lib.Await
import Mathlib.Algebra.Group.Nat.Defs
import Mathlib.Algebra.Ring.Int.Defs

/-!
# The control server

The saved campaigns, the runs and the handlers of the control server. A handler runs without
interruption up to an `await`; there it is one of the suspended calls, and any other handler may
run before it goes on. A campaign is an object with an identity: the map names the object stored
under an id, while a suspended handler keeps the object it had.

* `startRun`: policy lookup, target check, then the admission against the active runs.
* `pumpCampaignQueue`, `reconcileCampaignSchedules`, `runScheduleTick`: what launches runs.
* `finalizeRun`: the end of a run, around the wait for its captures.
* `saveCampaign`: one save at a time, around the assignment of a proxy selection.
* `controlServer`: every handler, as an event system.

What a piece learns from outside (the clock, the database, DNS, the fleet, a check on a field that
is left out here) is part of the event. A child process that fails to start is one that exits at
once; the watchdog's `terminateRun` is a `cancel_run`.
-/

namespace LinkSuffix.ControlServer

open Lib

/-! ## Settings and payloads -/

/-- The limits and switches the process was started with. -/
structure Settings where
  maxLocalWorkers : Nat
  maxTotalConcurrency : Nat
  maxBrowserConcurrency : Nat
  maxTotalRps : Nat
  sharedOrchestratorEnabled : Bool
  noProxy : Bool
  universalProxyEnabled : Bool
  campaignStartGapMs : Nat
  fleetActivationChecksPerPump : Nat
  fleetActivationRetryMs : Nat
  maxSavedCampaigns : Nat := 5000
  pool : PoolOptions
  deriving DecidableEq

/-- A saved campaign, by the number in `campaign-000001`. -/
abbrev CampaignId := Nat

/-- A campaign object. -/
abbrev Ref := Nat

inductive Tier where
  | trivialHttp | headless | stealth | human
  deriving DecidableEq

/-- `loadProfile`, whose mode is `burst`. -/
structure Burst where
  targetRps : Int
  durationSeconds : Int
  rampSeconds : Int
  maxRequests : Int
  deriving DecidableEq

structure ClockSchedule where
  timezone : String
  startTime : String
  stopTime : String
  days : List Nat
  deriving DecidableEq

/-- `scheduleWindow(schedule)`. -/
structure Window where
  active : Bool := false
  windowKey : String := ""
  deriving DecidableEq

/-- What a client sends to launch a run or save a campaign. -/
structure Payload where
  campaignRecordId : Option CampaignId := none
  scheduleId : Option String := none
  tier : Tier := .human
  continuous : Bool := true
  mitm : Bool := false
  authorized : Bool := true
  syncGoogleAds : Bool := false
  useScriptMesh : Bool := false
  scriptFleetShardId : Option String := none
  draftOnly : Bool := false
  repeats : Int := 1
  concurrent : Int := 1
  loadProfile : Option Burst := none
  proxyPort : Option Int := none
  schedule : Option ClockSchedule := none
  deriving DecidableEq

/-- The verified legacy gateway. -/
structure Gateway where
  port : Int
  verified : Bool
  deriving DecidableEq

/-- The checks of `validate` on these fields; the message it throws. -/
def validate (p : Payload) (registry noProxy : Bool) (proxy : Option Gateway) : Option String :=
  if p.repeats < 1 ∨ 10000 < p.repeats then some "Repeats must be between 1 and 10,000"
  else if p.concurrent < 1 ∨ 100 < p.concurrent then
    some "Concurrency must be between 1 and 100"
  else if p.loadProfile.isSome ∧ p.tier ≠ .trivialHttp then
    some "Burst mode is available only for Raw HTTP"
  else if p.loadProfile.any fun b => b.targetRps < 1 ∨ 500 < b.targetRps then
    some "Target RPS must be between 1 and 500"
  else if p.loadProfile.any fun b => b.durationSeconds < 1 ∨ 60 < b.durationSeconds then
    some "Burst duration must be between 1 and 60 seconds"
  else if p.loadProfile.any fun b => b.rampSeconds < 0 ∨ b.durationSeconds < b.rampSeconds then
    some "Ramp must be between 0 and the burst duration"
  else if p.loadProfile.any fun b => b.maxRequests < 1 ∨ 10000 < b.maxRequests then
    some "Request ceiling must be between 1 and 10,000"
  else if p.continuous ∧ p.tier ≠ .human then
    some "Continuous campaigns are available only for L4"
  else if p.mitm ∧ p.tier ≠ .trivialHttp then
    some "TLS ClientHello capture is currently available only for Raw HTTP runs"
  else if ¬registry ∧ ¬noProxy ∧ ¬proxy.any (·.verified) then
    some "Verify IPRoyal before launching traffic"
  else none

/-! ## Admission of a port -/

/-- `registryRunRequired`. -/
def registryRunRequired (settings : Settings) (policyEnabled : Bool) (p : Payload) :
    Except String Bool :=
  if ¬policyEnabled then .ok false
  else if ¬settings.universalProxyEnabled then
    .error "The saved proxy requires universal proxy runtime to be enabled"
  else if settings.noProxy then
    .error "The saved proxy cannot run while direct networking is enabled"
  else if ¬settings.sharedOrchestratorEnabled ∨ p.tier ≠ .human ∨ ¬p.continuous ∨ p.mitm then
    .error "The saved proxy requires continuous shared-browser mode without MITM"
  else .ok true

/-- `legacyRunPort`. -/
def legacyRunPort (p : Payload) (registry direct : Bool) (fallbackPort : Option Int) :
    Except String (Option Int) :=
  if registry ∨ direct then .ok none
  else
    match p.proxyPort.or fallbackPort with
    | none => .error "Select a valid dedicated gateway port"
    | some port =>
      if port < 1 ∨ 65535 < port then .error "Select a valid dedicated gateway port"
      else .ok (some port)

/-! ## Runs and campaigns -/

inductive ExecutionMode where
  | shared | dedicated
  deriving DecidableEq

/-- A run. -/
structure Run where
  id : RunId
  campaignRecordId : Option CampaignId
  scheduleId : Option String
  proxyPort : Option Int
  tier : Tier
  continuous : Bool
  syncGoogleAds : Bool
  useScriptMesh : Bool
  concurrent : Int
  targetRps : Int
  executionMode : ExecutionMode
  exitCode : Option Int := none
  workerId : Option Nat := none
  deriving DecidableEq

/-- `permitManaged(run)`. -/
def Run.permitManaged (run : Run) : Bool := run.tier = .human ∧ run.continuous

inductive Status where
  | stopped | queued | running | scheduled | completed
  deriving DecidableEq

/-- A campaign object. -/
structure Campaign where
  id : CampaignId
  config : Payload := {}
  status : Status := .stopped
  desiredRunning : Bool := false
  activeRunId : Option RunId := none
  restartPending : Bool := false
  proxySelectionPending : Bool := false
  lastStartedWindow : Option String := none
  retryCount : Nat := 0
  nextRetryAt : Option Nat := none
  captured : LinkSuffix.Campaign := {}
  deriving DecidableEq

namespace Campaign

/-- `start_campaign` on a campaign with no run. -/
def start (c : Campaign) : Campaign :=
  { c with desiredRunning := true, status := .queued, retryCount := 0, nextRetryAt := none }

/-- `stop_campaign`. -/
def stop (c : Campaign) : Campaign :=
  { c with desiredRunning := false, restartPending := false, status := .stopped }

/-- `restart_campaign`. -/
def restart (pending : Bool) (c : Campaign) : Campaign :=
  { c with
    desiredRunning := true
    status := .queued
    restartPending := pending
    retryCount := 0
    nextRetryAt := none }

/-- The record of a launch. -/
def launched (runId : RunId) (c : Campaign) : Campaign :=
  { c with activeRunId := some runId, status := .running, retryCount := 0, nextRetryAt := none }

/-- The record of a failed launch. -/
def retry (now : Nat) (c : Campaign) : Campaign :=
  let retryCount := min 10 (c.retryCount + 1)
  { c with
    retryCount := retryCount
    nextRetryAt := some (now + min 300000 (5000 * 2 ^ (retryCount - 1)))
    status := .queued }

/-- What `finalizeRun` writes. -/
def finalize (continuous : Bool) (code : Int) (c : Campaign) : Campaign :=
  if c.restartPending then
    { c with
      activeRunId := none, restartPending := false, desiredRunning := true, status := .queued }
  else if c.desiredRunning ∧ continuous then { c with activeRunId := none, status := .queued }
  else
    { c with
      activeRunId := none
      desiredRunning := false
      status :=
        if c.config.schedule.isSome then .scheduled else if code = 0 then .completed
        else .stopped }

/-- `proxySelectionPending = true; status = "stopped"; desiredRunning = false`. -/
def holdSelection (c : Campaign) : Campaign :=
  { c with proxySelectionPending := true, status := .stopped, desiredRunning := false }

end Campaign

/-- An entry of `schedules`: its position in the map, and the identity of its object. -/
structure ScheduleEntry where
  stamp : Nat
  ref : Nat
  id : String
  schedule : ClockSchedule
  enabled : Bool
  payload : Payload
  lastStartedWindow : Option String
  deriving DecidableEq

/-! ## Suspended calls -/

/-- What a pump carries through its loop. -/
structure PumpContext where
  registryIds : List CampaignId := []
  fleetReadinessChecks : Nat := 0
  deriving DecidableEq

/-- Who awaits a launch. -/
inductive Caller where
  | createRun
  | pump (context : PumpContext) (ref : Ref)
  | tick (stamp ref : Nat) (windowKey : String)
  deriving DecidableEq

/-- The selection a save is to settle. -/
structure Selection where
  registry : Bool
  changed : Bool
  deriving DecidableEq

/-- Where a save is suspended. -/
inductive SaveStage where
  | waiting
  | selecting (existing : Option Ref)
  | selected (selection : Option Selection)
  | policy
  | holding (ref : Ref) (settledStatus : Status)
  | assigning (ref : Ref) (settledStatus : Status)
  | settled (ref : Ref)
  | refused (ref : Ref) (message : String)
  | durable (ref : Ref)
  deriving DecidableEq

/-- A handler suspended at an await. -/
inductive Call where
  /-- `startRun` at `policyFor`. -/
  | policy (payload : Payload) (caller : Caller)
  /-- `startRun` at `assertTargetAllowed`. -/
  | target (payload : Payload) (registry : Bool) (caller : Caller)
  /-- `startRun` at the channel of the worker. -/
  | assigning (run : RunId) (worker : Nat) (caller : Caller)
  /-- `startRun` before the `catch` of a pool that refused. -/
  | unassigned (run : RunId) (message : String) (caller : Caller)
  /-- The caller of a `startRun` that returned. -/
  | launched (run : RunId) (caller : Caller)
  /-- The caller of a `startRun` that threw. -/
  | failed (message : String) (caller : Caller)
  /-- `pumpCampaignQueue` at `registryCampaignIds`. -/
  | registryIds
  /-- `pumpCampaignQueue` at the readiness of the fleet, and at the enrollment inside it. -/
  | readiness (context : PumpContext) (ref : Ref) (now : Nat)
  | enrollment (context : PumpContext) (ref : Ref) (now : Nat)
  /-- `finalizeRun` at `captureQueues.get`, and at the publication of a last capture. -/
  | captures (run : RunId) (code : Int)
  | lastCapture (run : RunId) (code : Int)
  /-- A task of `queueL4Capture` at its publication. -/
  | publishing (ref : Option Ref) (channel : Channel) (capture : Capture)
  /-- `delete_campaign` at the script bridge. -/
  | deleting (id : CampaignId)
  /-- `saveCampaign`, behind the saves with a lower ticket. -/
  | saving (ticket : Nat) (created : Bool) (id : Option CampaignId) (payload : Payload)
      (stage : SaveStage)
  /-- `create_campaign` or `update_campaign` with the saved campaign, and at its enrollment. -/
  | saved (created : Bool) (ref : Ref) (draftOnly : Bool)
  | registering (created : Bool) (ref : Ref) (draftOnly : Bool)
  deriving DecidableEq

/-- What the fleet says about a target. -/
structure FleetReadiness where
  found : Bool := true
  ready : Bool := true
  deriving DecidableEq

/-- What a piece learns from outside: the clock, how the awaited promise settled (or that a check
left out here threw), and the answer itself. -/
structure Answer where
  now : Nat := 0
  error : Option String := none
  policyEnabled : Bool := false
  registryIds : List CampaignId := []
  resourcesAllowed : Bool := true
  window : ClockSchedule → Window := fun _ => {}
  selection : Option Selection := none
  readiness : FleetReadiness := {}
  lastCapture : Bool := false
  outcome : Outcome := .ok {}

/-! ## The state -/

/-- The state of the server. `stops` are the runs a stop message or a SIGTERM was sent for. -/
structure Server where
  runs : List RunId := []
  run : RunId → Option Run := fun _ => none
  campaignIds : List CampaignId := []
  campaigns : CampaignId → Option Ref := fun _ => none
  campaign : Ref → Option Campaign := fun _ => none
  nextRef : Ref := 0
  schedules : List ScheduleEntry := []
  scheduleStamp : Nat := 0
  pool : WorkerPool := {}
  proxy : Option Gateway := none
  activeLimit : Nat := 500
  sequence : Nat := 0
  campaignSequence : Nat := 0
  campaignPumpRunning : Bool := false
  schedulerTicking : Bool := false
  nextCampaignStartAt : Nat := 0
  saveTickets : Nat := 0
  saveTail : Nat := 0
  stops : List RunId := []

/-- The state after a piece, and the calls it suspended. -/
abbrev Suspended := Server × List Call

namespace Server

variable (settings : Settings) (s : Server)

/-- The run counts as active. -/
def active (run : Run) : Bool :=
  run.exitCode.isNone && match run.executionMode with
    | .shared => s.pool.has run.id
    | .dedicated => true

/-- `activeRuns()`. -/
def activeRuns : List Run := (s.runs.filterMap s.run).filter s.active

/-- `campaigns.get(id)`. -/
def stored (id : CampaignId) : Option (Ref × Campaign) := do
  let ref ← s.campaigns id
  let campaign ← s.campaign ref
  return (ref, campaign)

/-- A write to the fields of a campaign object. -/
def modify (ref : Ref) (f : Campaign → Campaign) : Server :=
  { s with campaign := Function.update s.campaign ref ((s.campaign ref).map f) }

/-- A write to the fields of a run. -/
def modifyRun (runId : RunId) (f : Run → Run) : Server :=
  { s with run := Function.update s.run runId ((s.run runId).map f) }

/-- `runs.delete(id)`. -/
def dropRun (runId : RunId) : Server := { s with runs := s.runs.filter (· ≠ runId) }

/-- The active run of a campaign that a handler finds. -/
def activeRunOf (id : CampaignId) : Option Run :=
  s.activeRuns.find? (·.campaignRecordId = some id)

/-- A stop message or a signal reaches the run. -/
def reaches (run : Run) : Bool :=
  match run.executionMode with
  | .shared => s.pool.stop run.id
  | .dedicated => run.exitCode.isNone

/-- `terminateRun(run)`. -/
def terminateRun (run : Run) : Server × Bool :=
  if s.reaches run then ({ s with stops := s.stops ++ [run.id] }, true) else (s, false)

/-- `if (run) terminateRun(run)`. -/
def terminate (run : Option Run) : Server :=
  match run with
  | none => s
  | some run => (s.terminateRun run).1

/-! ## Launching a run -/

/-- What `assertProxySelectionReady` throws. -/
def selectionIncomplete : String :=
  "Proxy selection is not complete. Open campaign Edit and Save changes again before starting."

/-- `assertProxySelectionReady(campaigns.get(id))`. -/
def selectionPending (id : Option CampaignId) : Bool :=
  (id.bind s.stored).any (·.2.proxySelectionPending)

/-- The first piece of `startRun`. -/
def startRun (payload : Payload) (caller : Caller) : Suspended :=
  if s.selectionPending payload.campaignRecordId then
    (s, [.failed selectionIncomplete caller])
  else (s, [.policy payload caller])

/-- `startRun` once the policy of the campaign is known. -/
def checkPayload (payload : Payload) (caller : Caller) (a : Answer) : Suspended :=
  match a.error with
  | some message => (s, [.failed message caller])
  | none =>
    match registryRunRequired settings a.policyEnabled payload with
    | .error message => (s, [.failed message caller])
    | .ok registry =>
      match validate payload registry settings.noProxy s.proxy with
      | some message => (s, [.failed message caller])
      | none =>
        if ¬payload.authorized then
          (s, [.failed "Confirm that you are authorized to test this target" caller])
        else if payload.syncGoogleAds ∧ payload.useScriptMesh then
          (s, [.failed ("Choose either direct Google Ads API sync or Rolling Apps Script Mesh "
            ++ "delivery") caller])
        else (s, [.target payload registry caller])

/-- `requestedRps`. -/
def requestedRps (payload : Payload) : Int :=
  match payload.loadProfile with
  | some burst => burst.targetRps
  | none => 0

/-- `requestedUsesPermits`. -/
def usesPermits (payload : Payload) : Bool := payload.tier = .human ∧ payload.continuous

/-- What a payload adds to `aggregateBrowserConcurrency`. -/
def requestedBrowser (payload : Payload) : Int :=
  if payload.tier = .trivialHttp ∨ usesPermits payload then 0 else payload.concurrent

/-- `effectiveActiveLimit`. -/
def effectiveActiveLimit : Nat :=
  min s.activeLimit (min settings.maxLocalWorkers
    (if settings.sharedOrchestratorEnabled then settings.pool.capacity
    else settings.maxLocalWorkers))

/-- The aggregate concurrency of runs. -/
def concurrency (runs : List Run) : Int := (runs.map (·.concurrent)).sum

/-- The runs that `aggregateBrowserConcurrency` counts. -/
def browserRuns (runs : List Run) : List Run :=
  runs.filter fun run => run.tier ≠ .trivialHttp ∧ ¬run.permitManaged

/-- The aggregate request rate of runs. -/
def requestRate (runs : List Run) : Int := (runs.map (·.targetRps)).sum

/-- The admission against the active runs: the legacy port of the new run, or the message thrown. -/
def admission (payload : Payload) (registry : Bool) : Except String (Option Int) :=
  let live := s.activeRuns
  if payload.campaignRecordId.any fun id => live.any (·.campaignRecordId = some id) then
    .error "This campaign already has an active journey process"
  else
    match legacyRunPort payload registry settings.noProxy (s.proxy.map (·.port)) with
    | .error message => .error message
    | .ok port =>
      if port.any fun port => live.any (·.proxyPort = some port) then
        .error s!"Gateway port {port.getD 0} is already leased by another active run"
      else if s.effectiveActiveLimit settings ≤ live.length then
        .error s!"Per-server active worker limit ({s.effectiveActiveLimit settings}) reached"
      else if ¬usesPermits payload ∧
          (settings.maxTotalConcurrency : Int) < concurrency live + payload.concurrent then
        .error s!"Aggregate concurrency limit ({settings.maxTotalConcurrency}) exceeded"
      else if (settings.maxBrowserConcurrency : Int) < concurrency (browserRuns live)
          + requestedBrowser payload then
        .error s!"Aggregate browser concurrency limit ({settings.maxBrowserConcurrency}) exceeded"
      else if (settings.maxTotalRps : Int) < requestRate live + requestedRps payload then
        .error s!"Aggregate request rate limit ({settings.maxTotalRps} RPS) exceeded"
      else .ok port

/-- The run a payload asks for. -/
def newRun (payload : Payload) (port : Option Int) : Run where
  id := s.sequence + 1
  campaignRecordId := payload.campaignRecordId
  scheduleId := payload.scheduleId
  proxyPort := port
  tier := payload.tier
  continuous := usesPermits payload
  syncGoogleAds := payload.tier = .human ∧ payload.syncGoogleAds
  useScriptMesh := payload.tier = .human ∧ payload.useScriptMesh
  concurrent := payload.concurrent
  targetRps := requestedRps payload
  executionMode :=
    if settings.sharedOrchestratorEnabled ∧ usesPermits payload ∧ ¬payload.mitm then .shared
    else .dedicated

/-- `runs.set(id, run)`. -/
def register (run : Run) : Server :=
  { s with
    sequence := run.id
    runs := s.runs.filter (· ≠ run.id) ++ [run.id]
    run := Function.update s.run run.id (some run) }

/-- A registered run is handed to a worker, or its process is spawned. -/
def handOver (run : Run) (caller : Caller) : Suspended :=
  match run.executionMode with
  | .dedicated => (s, [.launched run.id caller])
  | .shared =>
    match s.pool.start settings.pool run.id with
    | .error message => (s, [.unassigned run.id message caller])
    | .ok (pool, worker) => ({ s with pool := pool }, [.assigning run.id worker.id caller])

/-- The piece of `startRun` after the target check reaches `runs.set`. -/
def admits (payload : Payload) (registry : Bool) (a : Answer) : Bool :=
  a.error.isNone && match s.admission settings payload registry with
    | .error _ => false
    | .ok port => port.isNone || s.proxy.isSome

/-- `startRun` once the target is allowed: the uninterrupted piece from `activeRuns()` to the
hand-over. -/
def launch (payload : Payload) (registry : Bool) (caller : Caller) (a : Answer) : Suspended :=
  match a.error with
  | some message => (s, [.failed message caller])
  | none =>
    match s.admission settings payload registry with
    | .error message => (s, [.failed message caller])
    | .ok port =>
      -- the credentials of the gateway are read after `++sequence`
      if port.isSome ∧ s.proxy.isNone then
        ({ s with sequence := s.sequence + 1 },
          [.failed "Cannot read properties of null (reading 'host')" caller])
      else
        let run := s.newRun settings payload port
        (s.register run).handOver settings run caller

/-! ## The pump -/

/-- `selectQueuedCampaign`'s condition on a campaign without a pending selection. -/
def launchable (registryIds : List CampaignId) (now : Nat) (c : Campaign) : Bool :=
  ¬c.proxySelectionPending ∧ c.status = .queued ∧ c.desiredRunning ∧ c.nextRetryAt.getD 0 ≤ now ∧
    (c.id ∈ registryIds ∨ ¬(c.config.proxyPort.any fun port =>
      0 < port ∧ s.activeRuns.any (·.proxyPort = some port)))

/-- `selectQueuedCampaign`: the launchable campaign with the lowest number. -/
def selectQueued (registryIds : List CampaignId) (now : Nat) : Option (Ref × Campaign) :=
  ((s.campaignIds.insertionSort (· ≤ ·)).filterMap s.stored).find? fun c =>
    s.launchable registryIds now c.2

/-- `finally { campaignPumpRunning = false; }`. -/
def endPump : Suspended := ({ s with campaignPumpRunning := false }, [])

/-- The selected campaign is launched, unless its turn has not come. -/
def launchQueued (context : PumpContext) (ref : Ref) (now : Nat) (a : Answer) : Suspended :=
  match s.campaign ref with
  | none => s.endPump
  | some c =>
    if now < s.nextCampaignStartAt then s.endPump
    else if ¬a.resourcesAllowed then s.endPump
    else s.startRun { c.config with campaignRecordId := some c.id } (.pump context ref)

/-- One iteration of the loop, up to its first await. -/
def pumpLoop (context : PumpContext) (a : Answer) : Suspended :=
  if s.activeRuns.length < min s.activeLimit settings.maxLocalWorkers then
    match s.selectQueued context.registryIds a.now with
    | none => s.endPump
    | some (ref, c) =>
      if c.config.useScriptMesh then
        if settings.fleetActivationChecksPerPump ≤ context.fleetReadinessChecks then s.endPump
        else
          (s, [.readiness
            { context with fleetReadinessChecks := context.fleetReadinessChecks + 1 } ref a.now])
      else s.launchQueued context ref a.now a
  else s.endPump

/-- `pumpCampaignQueue()`, up to its first await. -/
def pumpCampaignQueue : Suspended :=
  if s.campaignPumpRunning then (s, [])
  else if (s.campaignIds.filterMap s.stored).any fun c =>
      c.2.status = .queued ∧ c.2.desiredRunning then
    ({ s with campaignPumpRunning := true }, [.registryIds])
  else (s, [])

/-- After the launch was recorded: the next start is spread, or the loop goes on. -/
def afterLaunch (context : PumpContext) (a : Answer) : Suspended :=
  let next := { s with nextCampaignStartAt := a.now + settings.campaignStartGapMs }
  if 0 < settings.campaignStartGapMs then next.endPump else next.pumpLoop settings context a

/-- `ensureCampaignFleetReadyForFirstJourney` has an answer about the readiness. -/
def fleetReady (context : PumpContext) (ref : Ref) (now : Nat) (a : Answer) : Suspended :=
  let nextRetryAt := if a.readiness.ready then none
    else some (a.now + settings.fleetActivationRetryMs)
  (s.modify ref fun c => { c with nextRetryAt := nextRetryAt }).launchQueued context ref now a

/-- The readiness of the fleet could not be established: the loop goes on with the next. -/
def fleetFailed (context : PumpContext) (ref : Ref) (a : Answer) : Suspended :=
  (s.modify ref (Campaign.retry a.now)).pumpLoop settings context a

/-! ## Schedules -/

/-- The campaign's part of `reconcileCampaignSchedules`. -/
def reconcileCampaign (window : ClockSchedule → Window) (id : CampaignId) : Server :=
  match s.stored id with
  | none => s
  | some (ref, c) =>
    if c.proxySelectionPending then s
    else
      match c.config.schedule with
      | none => s
      | some schedule =>
        if c.config.draftOnly then s
        else
          let window := window schedule
          let active := s.activeRunOf id
          if ¬window.active then
            (s.terminate active).modify ref fun c =>
              { c with
                status := if active.isNone ∧ c.status ≠ .queued then .scheduled else c.status
                desiredRunning := false }
          else if active.isNone ∧ c.lastStartedWindow ≠ some window.windowKey then
            s.modify ref fun c =>
              { c with
                lastStartedWindow := some window.windowKey
                desiredRunning := true
                status := .queued }
          else s

/-- `reconcileCampaignSchedules()`. -/
def reconcileCampaignSchedules (window : ClockSchedule → Window) : Suspended :=
  (s.campaignIds.foldl (fun s id => s.reconcileCampaign window id) s).pumpCampaignQueue

/-- The loop of `runScheduleTick` over the entries it has not visited, up to its first await. -/
def tickLoop (window : ClockSchedule → Window) : List ScheduleEntry → Server → Suspended
  | [], s => ({ s with schedulerTicking := false }, [])
  | entry :: rest, s =>
    if ¬entry.enabled then tickLoop window rest s
    else
      let active := s.activeRuns.find? (·.scheduleId = some entry.id)
      let window' := window entry.schedule
      if ¬window'.active then tickLoop window rest (s.terminate active)
      else if active.isSome ∨ entry.lastStartedWindow = some window'.windowKey then
        tickLoop window rest s
      else s.startRun entry.payload (.tick entry.stamp entry.ref window'.windowKey)

/-- `runScheduleTick()`. -/
def runScheduleTick (window : ClockSchedule → Window) : Suspended :=
  if s.schedulerTicking then (s, [])
  else tickLoop window s.schedules { s with schedulerTicking := true }

/-- The loop of `runScheduleTick` after the entry at `stamp`. -/
def tickAfter (stamp : Nat) (a : Answer) : Suspended :=
  tickLoop a.window (s.schedules.filter (stamp < ·.stamp)) s

/-- `schedule.lastStartedWindow = window.windowKey`. -/
def scheduleStarted (ref : Nat) (windowKey : String) : Server :=
  { s with schedules := s.schedules.map fun entry =>
      if entry.ref = ref then { entry with lastStartedWindow := some windowKey } else entry }

/-- `saveSchedule`, of a payload that passed. -/
def saveSchedule (id : String) (schedule : ClockSchedule) (payload : Payload) : Server :=
  let payload := { payload with
    schedule := none, continuous := true, repeats := 1, concurrent := 1, scheduleId := some id }
  let entry : ScheduleEntry := {
    stamp := s.scheduleStamp + 1
    ref := s.scheduleStamp + 1
    id := id
    schedule := schedule
    enabled := true
    payload := payload
    lastStartedWindow := none }
  { s with
    scheduleStamp := s.scheduleStamp + 1
    schedules :=
      if s.schedules.any (·.id = id) then
        s.schedules.map fun old =>
          if old.id = id then
            { entry with stamp := old.stamp, lastStartedWindow := old.lastStartedWindow }
          else old
      else s.schedules ++ [entry] }

/-! ## The end of a run -/

/-- The first piece of `finalizeRun`. -/
def finalizeRun (runId : RunId) (code : Int) : Suspended :=
  match s.run runId with
  | none => (s, [])
  | some run =>
    if run.exitCode.isSome then (s, [])
    else (s.modifyRun runId fun r => { r with exitCode := some code }, [.captures runId code])

/-- `finalizeRun` of each run, in turn. -/
def finalizeRuns (code : Int) : List RunId → Server → Suspended
  | [], s => (s, [])
  | runId :: rest, s =>
    let first := s.finalizeRun runId code
    let others := finalizeRuns code rest first.1
    (others.1, first.2 ++ others.2)

/-- The last piece of `finalizeRun`. -/
def endRun (runId : RunId) (code : Int) : Suspended :=
  match s.run runId with
  | none => (s, [])
  | some run =>
    let s := match run.campaignRecordId.bind s.campaigns with
      | none => s
      | some ref => s.modify ref (Campaign.finalize run.continuous code)
    (s.dropRun runId).pumpCampaignQueue

/-- `finalizeRun` once the captures of the run have settled. -/
def afterCaptures (runId : RunId) (code : Int) (a : Answer) : Suspended :=
  match s.run runId with
  | none => (s, [])
  | some run =>
    if code = 0 ∧ run.tier = .human ∧ ¬run.continuous ∧ a.lastCapture
        ∧ (run.syncGoogleAds ∨ run.useScriptMesh) then
      (s, [.lastCapture runId code])
    else s.endRun runId code

/-! ## Captures -/

/-- What a settled publication, or the lack of one, writes to the campaign. -/
def recordCapture (ref : Option Ref) (capture : Capture) (meshDelivery : Option Receipt) : Server :=
  match ref with
  | none => s
  | some ref =>
    let shardId : Option String := (meshDelivery.bind (·.shardId)).filter (· ≠ "")
    s.modify ref fun c => { c with captured := { c.captured with
      latestSuffix := some capture.suffix
      lastCapturedAt := some capture.capturedAt
      lastMeshVersion := (meshDelivery.bind (·.version)).or c.captured.lastMeshVersion
      scriptFleetShardId := (shardId.map (clean 80)).or c.captured.scriptFleetShardId } }

/-- A task of `queueL4Capture`, up to its publication. -/
def beginCapture (run : Run) (result : CaptureResult) (now : Nat) : Suspended :=
  let ref := run.campaignRecordId.bind s.campaigns
  let captured := ((ref.bind s.campaign).map (·.captured)).getD {}
  match persistL4Capture captured (toString run.id) result now with
  | none => (s, [])
  | some (capture, captured') =>
    let s := match ref with
      | none => s
      | some ref => s.modify ref fun c => { c with captured := captured' }
    let flags : DeliveryFlags := ⟨run.syncGoogleAds, run.useScriptMesh⟩
    match flags.channel with
    | some channel =>
      if captured.latestSuffix = some capture.suffix then (s.recordCapture ref capture none, [])
      else (s, [.publishing ref channel capture])
    | none => (s.recordCapture ref capture none, [])

/-- The publication has settled. -/
def endCapture (ref : Option Ref) (channel : Channel) (capture : Capture) (outcome : Outcome) :
    Server :=
  s.recordCapture ref capture (if channel = .mesh then outcome.toOption else none)

/-! ## Saving a campaign -/

/-- The next save of the chain may begin. -/
def endSave : Server := { s with saveTail := s.saveTail + 1 }

/-- The object `saveCampaignInternal` builds. -/
def savedCampaign (id : CampaignId) (existing : Option Campaign) (payload : Payload) (port : Int) :
    Campaign where
  id := id
  config := { payload with
    campaignRecordId := none
    repeats := 1
    concurrent := 1
    proxyPort := some port
    continuous := payload.tier = .human }
  status := match existing with
    | some c => c.status
    | none => if payload.schedule.isSome then .scheduled else .stopped
  desiredRunning := existing.any (·.desiredRunning)
  activeRunId := existing.bind (·.activeRunId)
  restartPending := existing.any (·.restartPending)
  proxySelectionPending := existing.any (·.proxySelectionPending)
  lastStartedWindow := existing.bind (·.lastStartedWindow)
  captured := {
    latestSuffix := existing.bind (·.captured.latestSuffix)
    lastCapturedAt := existing.bind (·.captured.lastCapturedAt)
    scriptFleetShardId := payload.scriptFleetShardId }

/-- `campaigns.set(campaignId, campaign)`. -/
def store (campaign : Campaign) : Server :=
  { s with
    campaignIds :=
      if campaign.id ∈ s.campaignIds then s.campaignIds else s.campaignIds ++ [campaign.id]
    campaigns := Function.update s.campaigns campaign.id (some s.nextRef)
    campaign := Function.update s.campaign s.nextRef (some campaign)
    nextRef := s.nextRef + 1 }

/-- `saveCampaignInternal` from its checks to `campaigns.set`, with what the settlement of the
selection writes before it awaits; the stage it is then suspended at, or the message thrown. -/
def commitSave (id : Option CampaignId) (payload : Payload) (registry changed : Bool) :
    Except String (Server × SaveStage) :=
  match validate payload registry settings.noProxy s.proxy with
  | some message => .error message
  | none =>
    if registry ∧ (payload.tier ≠ .human ∨ payload.mitm) then
      .error "The saved proxy requires continuous shared-browser mode without MITM"
    else if payload.syncGoogleAds ∧ payload.useScriptMesh then
      .error "Choose either direct Google Ads API sync or Rolling Apps Script Mesh delivery"
    else
      match legacyRunPort payload registry false (s.proxy.map (·.port)) with
      | .error message => .error message
      | .ok port =>
        let existing := id.bind s.stored
        if id.isSome ∧ existing.isNone then .error "Campaign was not found"
        else if existing.isNone ∧ settings.maxSavedCampaigns ≤ s.campaignIds.length then
          .error s!"Saved campaign limit ({settings.maxSavedCampaigns}) reached"
        else
          let existing := existing.map (·.2)
          let number := (existing.map (·.id)).getD (s.campaignSequence + 1)
          let s := { s with
            campaignSequence := s.campaignSequence + if existing.isNone then 1 else 0 }
          let campaign := savedCampaign number existing payload (port.getD 0)
          if changed then
            .ok (s.store campaign.holdSelection, .holding s.nextRef campaign.status)
          else .ok (s.store campaign, .durable s.nextRef)

/-- The selection may not change under a campaign that runs or is to run. -/
def selectionBlocked (existing : Option Ref) (changed : Bool) : Bool :=
  changed ∧ (existing.bind s.campaign).any fun c =>
    c.status ≠ .stopped ∨ c.desiredRunning ∨ c.activeRunId.isSome

/-- The selection with `changed` as `prepareCampaignProxySelection` computes it. -/
def prepared (existing : Option Ref) (selection : Selection) : Selection :=
  { selection with
    changed := selection.changed ∨ (existing.bind s.campaign).any (·.proxySelectionPending) }

/-- One piece of `saveCampaign`. -/
def save (ticket : Nat) (created : Bool) (id : Option CampaignId) (payload : Payload)
    (stage : SaveStage) (a : Answer) : Piece Server Call (Option String) :=
  let suspend (stage : SaveStage) : List Call := [.saving ticket created id payload stage]
  let threw (message : String) : Piece Server Call (Option String) :=
    { state := s.endSave, reply := some message }
  match stage with
  | .waiting =>
    if ticket = s.saveTail then
      { state := s, calls := suspend (.selecting (id.bind s.campaigns)), reply := none }
    else { state := s, calls := suspend .waiting, reply := none }
  | .selecting existing =>
    match a.error, a.selection with
    | some message, _ => threw message
    | none, none => { state := s, calls := suspend (.selected none), reply := none }
    | none, some selection =>
      let selection := s.prepared existing selection
      if s.selectionBlocked existing selection.changed then
        threw ("Stop the campaign and wait for its active run to finish before switching proxy "
          ++ "provider")
      else { state := s, calls := suspend (.selected (some selection)), reply := none }
  | .selected none => { state := s, calls := suspend .policy, reply := none }
  | .selected (some selection) =>
    match a.error, s.commitSave settings id payload selection.registry selection.changed with
    | some message, _ => threw message
    | none, .error message => threw message
    | none, .ok (s, stage) => { state := s, calls := suspend stage, reply := none }
  | .policy =>
    match a.error, s.commitSave settings id payload a.policyEnabled false with
    | some message, _ => threw message
    | none, .error message => threw message
    | none, .ok (s, stage) => { state := s, calls := suspend stage, reply := none }
  | .holding ref settledStatus =>
    match a.error with
    | some message => threw message
    | none => { state := s, calls := suspend (.assigning ref settledStatus), reply := none }
  | .assigning ref settledStatus =>
    match a.error with
    | some message =>
      { state := s.modify ref .holdSelection, calls := suspend (.refused ref message), reply := none }
    | none =>
      { state := s.modify ref fun c =>
          { c with proxySelectionPending := false, status := settledStatus }
        calls := suspend (.settled ref), reply := none }
  | .settled ref =>
    match a.error with
    | some message =>
      { state := s.modify ref .holdSelection, calls := suspend (.refused ref message), reply := none }
    | none => { state := s, calls := suspend (.durable ref), reply := none }
  | .refused _ message => threw message
  | .durable ref =>
    match a.error with
    | some message => threw message
    | none =>
      { state := s.endSave, calls := [.saved created ref payload.draftOnly], reply := none }

/-- The end of `create_campaign` or `update_campaign`. -/
def endSaveHandler (created : Bool) (ref : Ref) (draftOnly : Bool) (a : Answer) : Suspended :=
  if created then
    let s := s.modify ref fun c =>
      if c.config.schedule.isNone ∧ ¬draftOnly then
        { c with desiredRunning := true, status := .queued }
      else c
    let first := s.reconcileCampaignSchedules a.window
    let second := first.1.pumpCampaignQueue
    (second.1, first.2 ++ second.2)
  else s.pumpCampaignQueue

/-- The fleet has enrolled the campaign's target. -/
def enrolled (ref : Ref) : Server :=
  s.modify ref fun c =>
    { c with config := { c.config with useScriptMesh := true, syncGoogleAds := false } }

end Server

/-! ## The handlers -/

/-- A command of a client, a timer, or what a worker or a child process reports. -/
inductive Input where
  | createRun (payload : Payload)
  | createCampaign (payload : Payload)
  /-- The id is empty when the client sent none. -/
  | updateCampaign (id : Option CampaignId) (payload : Payload)
  | startCampaign (id : CampaignId)
  | stopCampaign (id : CampaignId)
  | restartCampaign (id : CampaignId)
  | deleteCampaign (id : CampaignId)
  | setActiveLimit (limit : Nat)
  | createSchedule (id : String) (schedule : ClockSchedule) (payload : Payload)
      (window : ClockSchedule → Window)
  | removeSchedule (id : String)
  | cancelRun (run : RunId)
  | removeRun (run : RunId)
  | setProxy (proxy : Option Gateway)
  | scheduleTick (window : ClockSchedule → Window)
  | reconcile (window : ClockSchedule → Window)
  | pump
  | captured (run : RunId) (result : CaptureResult) (now : Nat)
  | exited (worker : Nat) (run : RunId) (code : Int)
  | workerLost (worker : Nat) (code : Int)
  | childExited (run : RunId) (code : Int)

/-- A piece that shows the client no error. -/
def ofSuspended (next : Suspended) : Piece Server Call (Option String) :=
  { state := next.1, calls := next.2, reply := none }

/-- A piece that sends the client an error. -/
def refuse (s : Server) (message : String) : Piece Server Call (Option String) :=
  { state := s, reply := some message }

namespace Server

variable (settings : Settings) (s : Server)

/-- `create_campaign` and `update_campaign` join the chain of saves. -/
def saveCampaign (created : Bool) (id : Option CampaignId) (payload : Payload) :
    Piece Server Call (Option String) where
  state := { s with saveTickets := s.saveTickets + 1 }
  calls := [.saving s.saveTickets created id payload .waiting]
  reply := none

def startCampaign (id : CampaignId) : Piece Server Call (Option String) :=
  match s.stored id with
  | none => refuse s "Campaign was not found"
  | some (ref, c) =>
    if c.proxySelectionPending then refuse s selectionIncomplete
    else if c.activeRunId.isNone then ofSuspended (s.modify ref .start).pumpCampaignQueue
    else ofSuspended s.pumpCampaignQueue

def stopCampaign (id : CampaignId) : Piece Server Call (Option String) :=
  match s.stored id with
  | none => refuse s "Campaign was not found"
  | some (ref, _) => ofSuspended ((s.modify ref .stop).terminate (s.activeRunOf id), [])

def restartCampaign (id : CampaignId) : Piece Server Call (Option String) :=
  match s.stored id with
  | none => refuse s "Campaign was not found"
  | some (ref, c) =>
    if c.proxySelectionPending then refuse s selectionIncomplete
    else
      match s.activeRunOf id with
      | none => ofSuspended (s.modify ref (.restart false)).pumpCampaignQueue
      | some run => ofSuspended ((s.modify ref (.restart true)).terminate (some run), [])

def deleteCampaign (id : CampaignId) : Piece Server Call (Option String) :=
  match s.stored id with
  | none => refuse s "Campaign was not found"
  | some _ =>
    match s.activeRunOf id with
    | none => ofSuspended (s, [.deleting id])
    | some run =>
      ofSuspended
        ((s.modifyRun run.id fun r => { r with useScriptMesh := false }).terminate (some run),
          [.deleting id])

/-- `campaigns.delete(id)`. -/
def unstore (id : CampaignId) : Server :=
  { s with
    campaignIds := s.campaignIds.filter (· ≠ id)
    campaigns := Function.update s.campaigns id none }

/-- `pidAlive(run.pid)`, or a child that has not exited. -/
def processAlive (run : Run) : Bool :=
  match run.executionMode with
  | .dedicated => run.exitCode.isNone
  | .shared => run.workerId.any fun id => s.pool.workers.any (·.id = id)

def removeRun (runId : RunId) : Piece Server Call (Option String) :=
  if runId ∈ s.runs ∧ (s.run runId).any s.processAlive then
    refuse s "Stop the active run before dismissing it"
  else ofSuspended (s.dropRun runId, [])

/-- An `exit` message of a worker. -/
def exited (worker : Nat) (runId : RunId) (code : Int) : Suspended :=
  match s.pool.exited worker runId with
  | none => (s, [])
  | some pool => ({ s with pool := pool } : Server).finalizeRun runId code

/-- The `exit` or `error` event of a child process. -/
def childExited (runId : RunId) (code : Int) : Suspended :=
  if (s.run runId).any (·.executionMode = .dedicated) then s.finalizeRun runId code else (s, [])

/-- A result a worker reported about a run. -/
def capturedResult (runId : RunId) (result : CaptureResult) (now : Nat) : Suspended :=
  match s.run runId with
  | none => (s, [])
  | some run => s.beginCapture run result now

/-- `handle`, the timers and the process events. -/
def accept : Input → Piece Server Call (Option String)
  | .createRun payload => ofSuspended (s.startRun payload .createRun)
  | .createCampaign payload => s.saveCampaign true none payload
  | .updateCampaign id payload => s.saveCampaign false id payload
  | .startCampaign id => s.startCampaign id
  | .stopCampaign id => s.stopCampaign id
  | .restartCampaign id => s.restartCampaign id
  | .deleteCampaign id => s.deleteCampaign id
  | .setActiveLimit limit =>
    ofSuspended ({ s with activeLimit := min 5000 (max 1 limit) } : Server).pumpCampaignQueue
  | .createSchedule id schedule payload window =>
    ofSuspended ((s.saveSchedule id schedule payload).runScheduleTick window)
  | .removeSchedule id =>
    let s := s.terminate (s.activeRuns.find? (·.scheduleId = some id))
    ofSuspended ({ s with schedules := s.schedules.filter (·.id ≠ id) }, [])
  | .cancelRun runId =>
    ofSuspended (s.terminate ((s.run runId).filter (·.id ∈ s.runs)), [])
  | .removeRun runId => s.removeRun runId
  | .setProxy proxy => ofSuspended ({ s with proxy := proxy }, [])
  | .scheduleTick window => ofSuspended (s.runScheduleTick window)
  | .reconcile window => ofSuspended (s.reconcileCampaignSchedules window)
  | .pump => ofSuspended s.pumpCampaignQueue
  | .captured runId result now => ofSuspended (s.capturedResult runId result now)
  | .exited worker runId code => ofSuspended (s.exited worker runId code)
  | .workerLost worker code =>
    ofSuspended (finalizeRuns code (s.pool.lost worker).2
      { s with pool := (s.pool.lost worker).1 })
  | .childExited runId code => ofSuspended (s.childExited runId code)

/-- A suspended handler goes on. -/
def resume (call : Call) (a : Answer) : Piece Server Call (Option String) :=
  match call with
  | .policy payload caller => ofSuspended (s.checkPayload settings payload caller a)
  | .target payload registry caller => ofSuspended (s.launch settings payload registry caller a)
  | .assigning runId worker caller =>
    match a.error with
    | none =>
      ofSuspended (s.modifyRun runId fun r => { r with workerId := some worker },
        [.launched runId caller])
    | some message => ofSuspended (s.dropRun runId, [.failed message caller])
  | .unassigned runId message caller => ofSuspended (s.dropRun runId, [.failed message caller])
  | .launched _ .createRun => ofSuspended (s, [])
  | .launched runId (.pump context ref) =>
    ofSuspended ((s.modify ref (.launched runId)).afterLaunch settings context a)
  | .launched _ (.tick stamp ref windowKey) =>
    ofSuspended ((s.scheduleStarted ref windowKey).tickAfter stamp a)
  | .failed message .createRun => refuse s message
  | .failed _ (.pump context ref) =>
    ofSuspended ((s.modify ref (.retry a.now)).afterLaunch settings context a)
  | .failed _ (.tick stamp _ _) => ofSuspended (s.tickAfter stamp a)
  | .registryIds =>
    match a.error with
    | some _ => ofSuspended s.endPump
    | none => ofSuspended (s.pumpLoop settings { registryIds := a.registryIds } a)
  | .readiness context ref now =>
    match a.error with
    | some _ => ofSuspended (s.fleetFailed settings context ref a)
    | none =>
      if a.readiness.found then ofSuspended (s.fleetReady settings context ref now a)
      else ofSuspended (s, [.enrollment context ref now])
  | .enrollment context ref now =>
    match a.error with
    | some _ => ofSuspended (s.fleetFailed settings context ref a)
    | none => ofSuspended ((s.enrolled ref).fleetReady settings context ref now a)
  | .captures runId code => ofSuspended (s.afterCaptures runId code a)
  | .lastCapture runId code => ofSuspended (s.endRun runId code)
  | .publishing ref channel capture =>
    ofSuspended (s.endCapture ref channel capture a.outcome, [])
  | .deleting id =>
    match a.error with
    | some message => refuse s message
    | none => ofSuspended (s.unstore id, [])
  | .saving ticket created id payload stage =>
    s.save settings ticket created id payload stage a
  | .saved created ref draftOnly =>
    if (s.campaign ref).any (·.config.useScriptMesh) then
      ofSuspended (s, [.registering created ref draftOnly])
    else ofSuspended (s.endSaveHandler created ref draftOnly a)
  | .registering created ref draftOnly =>
    match a.error with
    | some message => refuse s message
    | none => ofSuspended ((s.enrolled ref).endSaveHandler created ref draftOnly a)

end Server

/-- The server, with its handlers suspended at their awaits. -/
def controlServer (settings : Settings) :
    AwaitSystem Server Call Input Answer (Option String) where
  accept := Server.accept
  resume := Server.resume settings
  silent := none

/-- The server as it comes up with no run of an earlier process left: the campaigns are those that
were saved, without their runs. -/
structure Booted (s : InFlight Server Call) : Prop where
  calls : s.calls = []
  runs : s.shared.runs = []
  run : ∀ runId, s.shared.run runId = none
  workers : s.shared.pool.workers = []
  taskOwners : ∀ runId, s.shared.pool.taskOwners runId = none
  stops : s.shared.stops = []
  pump : s.shared.campaignPumpRunning = false
  campaignIds : ∀ id, id ∈ s.shared.campaignIds ↔ (s.shared.campaigns id).isSome
  numbers : ∀ id ∈ s.shared.campaignIds, id ≤ s.shared.campaignSequence
  stored : ∀ id ref, s.shared.campaigns id = some ref → ref < s.shared.nextRef ∧
    ∃ c, s.shared.campaign ref = some c ∧ c.id = id ∧ c.activeRunId = none ∧ c.status ≠ .running

end LinkSuffix.ControlServer
