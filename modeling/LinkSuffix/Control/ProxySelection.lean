import LinkSuffix.Control.Server
import LinkSuffix.Lib.Table
import LinkSuffix.Lib.Writer

/-!
# Settling a proxy selection

A save that changes the proxy selection of a campaign writes two stores without a common
transaction: the campaign list, persisted to a file and to the database, and the policy table.
`settleCampaignProxySelection` persists a stopped draft first, then assigns the policy, then persists
the campaign as it was. The process may stop at any point, and every write may fail.

* `persist`: the file is written at once; the database gets the list from the serialized writer.
* `save`, `settle`: the pieces of a save, between its awaits.
* `processes`: the save, the other handlers on the campaigns, the writer and a crash.

The model is of a server with a database; without one `saveCampaignProxy` always throws. A launch is
its first piece (`pump`, `createRun`) and what it writes to the campaign when it returns.
-/

namespace LinkSuffix.ControlServer.ProxySelection

open Lib

/-- The route that a campaign's `config` selects, or that its policy holds: a policy that is
disabled or missing is the legacy gateway. -/
inductive Choice where
  | legacy
  | registry (providerId poolId : String)
  deriving DecidableEq

/-- `proxyPoolId`. -/
def Choice.poolId : Choice → String
  | .legacy => ""
  | .registry _ poolId => poolId

/-- A campaign object, and the selection in its `config` when it has one. -/
structure Saved where
  ref : Ref
  campaign : Campaign
  choice : Option Choice

/-- The id under which an object is stored. -/
def Saved.id (r : Saved) : CampaignId := r.campaign.id

/-- A persisted campaign list. -/
abbrev Snapshot := List Saved

/-- A launch that has not returned: the campaign, the object it was read from, and whether the pump
awaits it. -/
structure Launch where
  id : CampaignId
  ref : Ref
  pump : Bool
  deriving DecidableEq

/-- A campaign as the next process loads it. -/
def Saved.reloaded (fromDatabase : Bool) (r : Saved) : Saved :=
  { r with campaign := { r.campaign with
      activeRunId := none
      status :=
        if r.campaign.status = .running then if fromDatabase then .queued else .stopped
        else r.campaign.status } }

/-- Where the save is suspended. -/
inductive Stage where
  | idle
  /-- At the first `persist()`. -/
  | holding (id : CampaignId) (choice : Choice) (settledStatus : Status)
  /-- At `assign`. -/
  | assigning (id : CampaignId) (choice : Choice) (settledStatus : Status)
  /-- At the second `persist()`. -/
  | settled (id : CampaignId)
  /-- At the `persist()` of the `catch`. -/
  | refused (id : CampaignId)
  /-- At the last `persistCampaignsDurably()`. -/
  | durable (id : CampaignId) (changed : Bool)

/-- The process and its stores. -/
structure Process where
  campaigns : Snapshot := []
  policy : CampaignId → Choice := fun _ => .legacy
  file : Snapshot := []
  database : Writer Snapshot := { stored := [] }
  nextRef : Ref := 0
  campaignSequence : Nat := 0
  launching : List Launch := []
  running : List CampaignId := []
  stage : Stage := .idle

/-- How a write settled. One that failed may have committed. -/
inductive WriteOutcome where
  | ok | failed | failedAfterCommit
  deriving DecidableEq

namespace Process

variable (s : Process)

/-- `persistCampaigns()`; `written` is whether the file could be written. -/
def persist (written : Bool) : Process :=
  if written then { s with file := s.campaigns, database := s.database.enqueue s.campaigns } else s

/-- `persistCampaignsDurably()`, which the save awaits. -/
def persistDurably (written : Bool) : Process :=
  if written then { s with file := s.campaigns, database := s.database.await s.campaigns }
  else { s with database := s.database.unmarked }

/-- `campaigns.get(id)`. -/
def get (id : CampaignId) : Option Saved := s.campaigns.find? fun r => r.id = id

/-- A write to the fields of a stored campaign. -/
def modify (id : CampaignId) (f : Campaign → Campaign) : Process :=
  { s with
    campaigns :=
      updateKey Saved.id id (fun r => { r with campaign := f r.campaign }) s.campaigns }

/-- `campaigns.set(campaignId, campaign)`. -/
def store (campaign : Campaign) (choice : Option Choice) : Process :=
  { s with
    campaigns := upsertKey Saved.id ⟨s.nextRef, campaign, choice⟩ s.campaigns
    nextRef := s.nextRef + 1 }

/-! ## The save -/

/-- `changed` of `prepareCampaignProxySelection`. -/
def changes (existing : Option Saved) (choice : Choice) : Bool :=
  match existing with
  | none => choice.poolId ≠ ""
  | some r => choice.poolId ≠ (s.policy r.id).poolId ∨ r.campaign.proxySelectionPending

/-- The selection may not change under a campaign that runs or is to run. -/
def blocked (existing : Option Saved) : Bool :=
  existing.any fun r => r.campaign.status ≠ .stopped ∨ r.campaign.desiredRunning ∨
    r.campaign.activeRunId.isSome

/-- The object that a save builds. -/
def built (existing : Option Saved) (payload : Payload) (port : Int) : Campaign :=
  Server.savedCampaign ((existing.map (·.id)).getD (s.campaignSequence + 1))
    (existing.map (·.campaign)) payload port

/-- `++campaignSequence`, for a new campaign. -/
def numbered (existing : Option Saved) : Process :=
  { s with campaignSequence := s.campaignSequence + if existing.isNone then 1 else 0 }

/-- A save that settles a selection, up to its first `persist`. -/
def saveDraft (campaign : Campaign) (choice : Option Choice) (selected : Choice)
    (written : Bool) : Process :=
  { ((s.store campaign.holdSelection choice).persistDurably written) with
    stage := .holding campaign.id selected campaign.status }

/-- A save that leaves the selection, up to its only `persist`. -/
def saveReady (campaign : Campaign) (choice : Option Choice) (written : Bool) : Process :=
  { ((s.store campaign choice).persistDurably written) with stage := .durable campaign.id false }

/-- `saveCampaignInternal` of a payload that passed its checks. -/
def save (id : Option CampaignId) (payload : Payload) (port : Int) (choice : Option Choice)
    (written : Bool) : Process :=
  let existing := id.bind s.get
  match s.stage with
  | .idle =>
    if id.isSome ∧ existing.isNone then s
    else
      match choice.filter (s.changes existing) with
      | some selected =>
        if blocked existing then s
        else
          (s.numbered existing).saveDraft (s.built existing payload port) choice selected written
      | none => (s.numbered existing).saveReady (s.built existing payload port) choice written
  | _ => s

/-- What `saveCampaignProxy` checks in the persisted campaign. -/
def assignable (id : CampaignId) (choice : Choice) : Bool :=
  (s.database.stored.find? fun r => r.id = id).any fun r =>
    r.campaign.status = .stopped ∧ ¬r.campaign.desiredRunning ∧ r.campaign.activeRunId.isNone ∧
      (choice = .legacy ∨ (r.campaign.config.tier = .human ∧ r.campaign.config.continuous ∧
        ¬r.campaign.config.mitm))

/-- The policy of the campaign is written. -/
def assign (id : CampaignId) (choice : Choice) : Process :=
  { s with policy := Function.update s.policy id choice }

/-- `proxySelectionPending = false; status = settledStatus`. -/
def released (settledStatus : Status) (c : Campaign) : Campaign :=
  { c with proxySelectionPending := false, status := settledStatus }

/-- The `catch` of `settleCampaignProxySelection`. -/
def refuse (id : CampaignId) (written : Bool) : Process :=
  { ((s.modify id .holdSelection).persistDurably written) with stage := .refused id }

/-- The save goes on once what it awaits has settled so. A write of the list is done when the writer
has done it; an assignment that may not be made throws before it commits. -/
def settle (outcome : WriteOutcome) (written : Bool) : Process :=
  match s.stage with
  | .idle => s
  | .holding id choice settledStatus =>
    if outcome = .ok then
      if s.database.landed then { s with stage := .assigning id choice settledStatus } else s
    else { s with stage := .idle }
  | .assigning id choice settledStatus =>
    if ¬s.assignable id choice ∨ outcome = .failed then s.refuse id written
    else if outcome = .ok then
      { (((s.assign id choice).modify id (released settledStatus)).persistDurably written) with
        stage := .settled id }
    else (s.assign id choice).refuse id written
  | .settled id =>
    if outcome = .ok then
      if s.database.landed then { (s.persistDurably written) with stage := .durable id true } else s
    else s.refuse id written
  | .refused _ => { s with stage := .idle }
  | .durable _ _ =>
    if outcome = .ok then
      if s.database.landed then { s with stage := .idle } else s
    else { s with stage := .idle }

/-- The campaign whose save of a changed selection fails so. -/
def failure (outcome : WriteOutcome) : Option CampaignId :=
  match s.stage with
  | .holding id _ _ => if outcome = .ok then none else some id
  | .refused id => some id
  | .durable id true => if outcome = .ok then none else some id
  | _ => none

/-! ## The other handlers -/

/-- The campaign's part of `reconcileCampaignSchedules`. -/
def reconciled (window : ClockSchedule → Window) (c : Campaign) : Campaign :=
  if c.proxySelectionPending then c
  else
    match c.config.schedule with
    | none => c
    | some schedule =>
      if c.config.draftOnly then c
      else if ¬(window schedule).active then
        { c with
          status := if c.id ∉ s.running ∧ c.status ≠ .queued then .scheduled else c.status
          desiredRunning := false }
      else if c.id ∉ s.running ∧ c.lastStartedWindow ≠ some (window schedule).windowKey then
        { c with
          lastStartedWindow := some (window schedule).windowKey
          desiredRunning := true
          status := .queued }
      else c

/-- A write to a campaign without a pending selection. -/
def modifyReady (id : CampaignId) (f : Campaign → Campaign) : Process :=
  s.modify id fun c => if c.proxySelectionPending then c else f c

/-- `startRun`, up to its first await: refused for a campaign with a pending selection. -/
def startRun (id : CampaignId) (pump : Bool) : Process :=
  match s.get id with
  | none => if pump then s else { s with launching := s.launching ++ [⟨id, s.nextRef, pump⟩] }
  | some r =>
    if r.campaign.proxySelectionPending then s
    else if pump ∧ ¬(r.campaign.status = .queued ∧ r.campaign.desiredRunning) then s
    else { s with launching := s.launching ++ [⟨id, r.ref, pump⟩] }

/-- The pump writes to the object that it launched. -/
def recordLaunch (launch : Launch) (f : Campaign → Campaign) : Process :=
  if launch.pump then
    { s with
      campaigns := updateWhere (fun r => r.id = launch.id ∧ r.ref = launch.ref)
        (fun r => { r with campaign := f r.campaign }) s.campaigns }
  else s

/-- A launch returns with a run, or throws. -/
def launched (launch : Launch) (run : Option RunId) (now : Nat) (written : Bool) : Process :=
  if launch ∈ s.launching then
    let s := { s with launching := s.launching.erase launch }
    match run with
    | some runId =>
      (({ s with running := s.running ++ [launch.id] } : Process).recordLaunch launch
        (.launched runId)).persist written
    | none => (s.recordLaunch launch (.retry now)).persist written
  else s

/-- `finalizeRun` of a run of the campaign. -/
def ended (id : CampaignId) (continuous : Bool) (code : Int) (written : Bool) : Process :=
  if id ∈ s.running then
    (({ s with running := s.running.erase id } : Process).modify id
      (.finalize continuous code)).persist written
  else s

/-- The process stops, and the next one loads this list. -/
def reload (fromDatabase : Bool) (snapshot : Snapshot) : Process :=
  { s with
    campaigns := snapshot.map (Saved.reloaded fromDatabase)
    database := { stored := s.database.stored }
    campaignSequence := (snapshot.map Saved.id).foldr max 0
    launching := []
    running := []
    stage := .idle }

end Process

/-! ## The system -/

inductive Event where
  | save (id : Option CampaignId) (payload : Payload) (port : Int) (choice : Option Choice)
      (written : Bool)
  | settle (outcome : WriteOutcome) (written : Bool)
  | write (applied : Bool)
  | start (id : CampaignId) (written : Bool)
  | stop (id : CampaignId) (written : Bool)
  | restart (id : CampaignId) (written : Bool)
  | delete (id : CampaignId) (written : Bool)
  | reconcile (window : ClockSchedule → Window) (written : Bool)
  | pump (id : CampaignId)
  | createRun (id : CampaignId)
  | launched (launch : Launch) (run : Option RunId) (now : Nat) (written : Bool)
  | ended (id : CampaignId) (continuous : Bool) (code : Int) (written : Bool)
  | crash (fromDatabase : Bool)

open Process in
def step (s : Process) : Event → Process × Option CampaignId
  | .save id payload port choice written => (s.save id payload port choice written, none)
  | .settle outcome written => (s.settle outcome written, s.failure outcome)
  | .write applied => ({ s with database := s.database.done applied }, none)
  | .start id written =>
    ((s.modifyReady id fun c => if c.activeRunId.isNone then c.start else c).persist written, none)
  | .stop id written => ((s.modify id .stop).persist written, none)
  | .restart id written =>
    ((s.modifyReady id (.restart (s.running.contains id))).persist written, none)
  | .delete id written =>
    (({ s with campaigns := s.campaigns.filter (·.id ≠ id) } : Process).persist written, none)
  | .reconcile window written =>
    (({ s with
      campaigns := s.campaigns.map fun r =>
        { r with campaign := s.reconciled window r.campaign } } : Process).persist written, none)
  | .pump id => (s.startRun id true, none)
  | .createRun id => (s.startRun id false, none)
  | .launched launch run now written => (s.launched launch run now written, none)
  | .ended id continuous code written => (s.ended id continuous code written, none)
  | .crash fromDatabase =>
    (s.reload fromDatabase (if fromDatabase then s.database.stored else s.file), none)

/-- The process and its stores; the reply is the campaign whose save of a changed selection failed. -/
def processes : EventSystem Process Event (Option CampaignId) where
  step := step

end LinkSuffix.ControlServer.ProxySelection
