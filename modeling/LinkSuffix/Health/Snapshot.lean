import LinkSuffix.Health.Evaluation

/-!
# The capacity snapshot

`capacitySnapshot` (`control.mjs`), which `evaluateHealth` reads, and what a search by name finds in
an object.

* `Plain`: what a shared worker reports of its pool, or of a route: plain values, under none of
  `hostNames`.
* `Readings`, `evaluateResourceAdmission`, `workerPool`, `campaignRow`, `capacitySnapshot`.
* `Silent`: a value in which the search finds none of some names.
-/

namespace LinkSuffix.Health

/-! ## What the workers report -/

/-- A value that holds no others. -/
def isAtom (value : JsValue) : Bool :=
  match value with
  | .array _ => false
  | .object _ => false
  | _ => true

/-- The names that the alerts of the host are looked for under. -/
def hostNames : List String :=
  ["postgresHealthy", "databaseHealthy", "postgresUp", "redisHealthy", "redisUp", "leaderHealthy",
    "leaderActive", "isLeader", "cpuPercent", "cpuUsagePercent", "hostCpuPercent", "memoryPercent",
    "memoryUsedPercent", "hostMemoryPercent", "diskFreePercent", "freeDiskPercent", "activeWorkers",
    "browserWorkersActive", "workerLimit", "browserWorkerLimit", "maxWorkers", "queuedCampaigns",
    "queuedWorkers", "browserQueueDepth"]

/-- A field that no search for a host name stops at. -/
def PlainField (field : String × JsValue) : Prop := field.1 ∉ hostNames ∧ isAtom field.2 = true

instance (field : String × JsValue) : Decidable (PlainField field) :=
  inferInstanceAs (Decidable (_ ∧ _))

theorem plain_of_names {fields : List (String × JsValue)} (names : List String)
    (hnames : fields.map (·.1) = names) (hhost : ∀ name ∈ names, name ∉ hostNames)
    (hatoms : ∀ value ∈ fields.map (·.2), isAtom value = true) : ∀ field ∈ fields, PlainField field :=
  fun _ hfield => ⟨hhost _ (hnames ▸ List.mem_map_of_mem hfield),
    hatoms _ (List.mem_map_of_mem hfield)⟩

/-- A record of plain fields. -/
structure Plain where
  fields : List (String × JsValue)
  plain : ∀ field ∈ fields, PlainField field

theorem plain_spread {base value : List (String × JsValue)} (hbase : ∀ field ∈ base, PlainField field)
    (hvalue : ∀ field ∈ value, PlainField field) :
    ∀ field ∈ JsValue.spread base value, PlainField field := by
  induction value generalizing base with
  | nil => exact hbase
  | cons first rest ih =>
    have hfirst : PlainField first := hvalue first List.mem_cons_self
    refine ih ?_ fun field hfield => hvalue field (List.mem_cons_of_mem _ hfield)
    intro field hfield
    dsimp only at hfield
    split at hfield
    · obtain ⟨old, hold, rfl⟩ := List.mem_map.mp hfield
      split
      · exact hfirst
      · exact hbase old hold
    · rcases List.mem_append.mp hfield with h | h
      · exact hbase field h
      · exact List.mem_singleton.mp h ▸ hfirst

/-- `{ ...base, ...value }` -/
def Plain.spread (base value : Plain) : Plain where
  fields := JsValue.spread base.fields value.fields
  plain := plain_spread base.plain value.plain

/-- The statistics of a worker that has not reported any. -/
def Plain.initial : Plain where
  fields := [("browserInstances", .ofNat 0), ("activeContexts", .ofNat 0),
    ("launchingInstances", .ofNat 0)]
  plain := by decide +kernel

/-- `activeTasks`, which a report adds. -/
def Plain.activeTasks (activeTasks : Rat) : Plain where
  fields := [("activeTasks", numberValue activeTasks)]
  plain := fun _ hfield => List.mem_singleton.mp hfield ▸
    ⟨(by decide : "activeTasks" ∉ hostNames), rfl⟩

/-- `pool_stats`: a worker's statistics after a report. -/
def poolStats (stats report : Plain) (activeTasks : Rat) : Plain :=
  (stats.spread report).spread (.activeTasks activeTasks)

/-- `browserPoolStats()` -/
def browserPoolStats (browserInstances activeContexts activeProxyRoutes launchingInstances
    idleTimeoutMs : Nat) : Plain where
  fields := [("browserInstances", .ofNat browserInstances), ("activeContexts", .ofNat activeContexts),
    ("activeProxyRoutes", .ofNat activeProxyRoutes),
    ("launchingInstances", .ofNat launchingInstances), ("idleTimeoutMs", .ofNat idleTimeoutMs)]
  plain := plain_of_names ["browserInstances", "activeContexts", "activeProxyRoutes",
    "launchingInstances", "idleTimeoutMs"] rfl (by decide) (by simp [isAtom, JsValue.ofNat])

/-- `RouteDecision`, with the fields that are undefined left out. -/
structure RouteDecision where
  outcome : String
  hostname : String
  reason : String
  preflightSkipped : Bool
  periodicProbe : Option Bool := none
  cacheUntil : Option Rat := none

def RouteDecision.plain (decision : RouteDecision) : Plain where
  fields :=
    [("outcome", .string decision.outcome), ("hostname", .string decision.hostname),
      ("reason", .string decision.reason), ("preflightSkipped", .bool decision.preflightSkipped)] ++
      (decision.periodicProbe.map fun probe => ("periodicProbe", JsValue.bool probe)).toList ++
      (decision.cacheUntil.map fun time => ("cacheUntil", numberValue time)).toList
  plain := by
    intro field hfield
    rcases List.mem_append.mp hfield with h | h
    · rcases List.mem_append.mp h with h | h
      · exact plain_of_names ["outcome", "hostname", "reason", "preflightSkipped"] rfl (by decide)
          (by simp [isAtom]) field h
      · obtain ⟨probe, -, rfl⟩ := Option.map_eq_some_iff.mp (Option.mem_toList.mp h)
        exact ⟨(by decide : "periodicProbe" ∉ hostNames), rfl⟩
    · obtain ⟨time, -, rfl⟩ := Option.map_eq_some_iff.mp (Option.mem_toList.mp h)
      exact ⟨(by decide : "cacheUntil" ∉ hostNames), rfl⟩

/-- `recordRouteDecision`: the decision a run keeps. -/
def recordRouteDecision (decision : Plain) (time : String) : Plain :=
  let given := (JsValue.lookup decision.fields "reason").or (.string "unknown")
  let cleaned := sliceTo 120 (trim given.toText)
  let reason := if cleaned = "" then "unknown" else cleaned
  decision.spread ⟨[("reason", .string reason), ("at", .string time)],
    plain_of_names ["reason", "at"] rfl (by decide) (by simp [isAtom])⟩

/-! ## What is measured -/

structure Host where
  hostname : String
  platform : String
  architecture : String
  nodeVersion : String
  uptimeSeconds : Rat
  logicalCpuCount : Nat
  effectiveCpuCount : Rat
  /-- Of the first CPU. -/
  cpuModel : String

/-- `memoryCapacity()` -/
structure Memory where
  totalBytes : Rat
  availableBytes : Rat
  source : String

/-- `diskCapacity()`; a size of zero is not known. -/
structure Disk where
  totalBytes : Rat
  availableBytes : Rat

def Disk.usedBytes (disk : Disk) : Rat := max 0 (disk.totalBytes - disk.availableBytes)

def Disk.availableRatio (disk : Disk) : Rat :=
  if 0 < disk.totalBytes then disk.availableBytes / disk.totalBytes else 1

structure ProcessUsage where
  pid : Nat
  rss : Rat
  heapUsed : Rat
  heapTotal : Rat
  external : Rat
  uptime : Rat

/-- `distributedStore.capacity()` -/
structure Infrastructure where
  postgresConfigured : Bool
  postgresHealthy : Bool
  sizeBytes : Rat := 0
  connections : Rat := 0
  maxConnections : Rat := 0
  redisConfigured : Bool
  redisHealthy : Bool
  usedMemoryBytes : Rat := 0
  maxMemoryBytes : Rat := 0
  keys : Rat := 0

/-- `distributedStore.health()` -/
structure Services where
  postgres : Bool
  redis : Bool
  leader : Bool

structure GatewayInfo where
  verified : Bool
  location : String
  timezone : String

/-- The limits and the planning model of the control server. -/
structure ControlLimits where
  savedCampaignLimit : Rat := 5000
  activeLimit : Rat
  maxLocalWorkers : Rat
  maxBrowserConcurrency : Rat
  maxTotalConcurrency : Rat
  maxTotalRps : Rat
  launchGapMs : Rat
  launchSpreadMs : Rat
  sharedOrchestratorEnabled : Bool
  sharedWorkerProcesses : Rat
  sharedWorkerSlots : Rat
  minimumAvailableMemoryRatio : Rat
  maximumNormalizedLoad : Rat
  targetCpuPercent : Rat
  minimumFreeDiskRatio : Rat
  estimatedCampaignMemoryBytes : Rat
  estimatedCampaignCpuPercent : Rat
  estimatedSharedTaskMemoryBytes : Rat
  estimatedSharedTaskCpuPercent : Rat
  recommendedVcpu : Rat

/-- A process of the shared pool. -/
structure SharedWorker where
  id : String
  pid : Option Nat
  tasks : Nat
  ready : Bool
  stats : Plain

structure Storage where
  byRun : String → Rat
  totalBytes : Rat
  filesVisited : Nat
  truncated : Bool

structure RouteTelemetry where
  since : Rat
  preflightAttempts : Nat
  redirectFirstCaptures : Nat
  browserFallbacks : Nat
  cachedFallbacks : Nat
  fallbackReasons : List (String × Nat)

/-- The campaign of a run, as a row shows it. -/
structure RunCampaign where
  number : Nat
  name : String
  targetHost : String

structure ActiveRun where
  id : String
  campaignRecordId : String
  campaign : Option RunCampaign
  scenarioId : String
  tier : String
  pid : Option Nat
  startedAt : Rat
  proxyPort : Option Nat
  executionMode : String
  workerId : String
  lastRouteDecision : Option Plain

/-- All that a snapshot is taken of. `systemCpuPercent()` is `null` at first. -/
structure Readings where
  generatedAt : Rat
  host : Host
  systemCpu : Option Rat
  controlCpu : Rat
  oneMinuteLoad : Rat
  memory : Memory
  disk : Disk
  process : ProcessUsage
  infrastructure : Option Infrastructure
  distributed : Bool
  health : Services
  proxy : Option GatewayInfo
  limits : ControlLimits
  /-- The status of each saved campaign. -/
  campaigns : List String
  lockedPorts : Nat
  storage : Storage
  resourceAdmissionBlocks : Nat
  workers : List SharedWorker
  assignedTasks : Nat
  telemetry : RouteTelemetry
  active : List ActiveRun

/-! ## What is derived -/

structure Admission where
  allowed : Bool
  memoryRatio : Rat
  normalizedLoad : Rat
  reasons : List String

def evaluateResourceAdmission (availableMemoryBytes totalMemoryBytes oneMinuteLoad cpuCount
    minimumAvailableMemoryRatio maximumNormalizedLoad : Rat) : Admission :=
  let memoryRatio := if 0 < totalMemoryBytes then availableMemoryBytes / totalMemoryBytes else 1
  let normalizedLoad := if 0 < cpuCount then oneMinuteLoad / cpuCount else 0
  let reasons := (if memoryRatio < minimumAvailableMemoryRatio then ["memory"] else []) ++
    (if maximumNormalizedLoad < normalizedLoad then ["load"] else [])
  { allowed := reasons.isEmpty
    memoryRatio := memoryRatio
    normalizedLoad := normalizedLoad
    reasons := reasons }

namespace Readings

variable (r : Readings)

def taskCapacity : Rat := r.limits.sharedWorkerProcesses * r.limits.sharedWorkerSlots

def hardCeiling : Rat :=
  max 0 (min (min r.limits.activeLimit r.limits.maxLocalWorkers)
    (if r.limits.sharedOrchestratorEnabled then r.taskCapacity else r.limits.maxBrowserConcurrency))

def activeCount : Rat := r.active.length

def countOf (status : String) : Nat := (r.campaigns.filter (· = status)).length

def queuedCount : Nat := r.countOf "queued"

def memoryUsedRatio : Rat :=
  if 0 < r.memory.totalBytes then 1 - r.memory.availableBytes / r.memory.totalBytes else 0

def admission : Admission :=
  evaluateResourceAdmission r.memory.availableBytes r.memory.totalBytes r.oneMinuteLoad
    r.host.effectiveCpuCount r.limits.minimumAvailableMemoryRatio r.limits.maximumNormalizedLoad

def limitHeadroom : Rat := max 0 (r.hardCeiling - r.activeCount)

def plannedTaskMemory : Rat :=
  if r.limits.sharedOrchestratorEnabled then r.limits.estimatedSharedTaskMemoryBytes
  else r.limits.estimatedCampaignMemoryBytes

def plannedTaskCpu : Rat :=
  if r.limits.sharedOrchestratorEnabled then r.limits.estimatedSharedTaskCpuPercent
  else r.limits.estimatedCampaignCpuPercent

def additionalByMemory : Rat :=
  let reserved := r.memory.totalBytes * r.limits.minimumAvailableMemoryRatio
  max 0 (max 0 (r.memory.availableBytes - reserved) / r.plannedTaskMemory).floor

def additionalByCpu : Rat :=
  match r.systemCpu with
  | none => r.limitHeadroom
  | some systemCpu =>
    max 0 (max 0 (r.limits.targetCpuPercent - systemCpu) * r.host.effectiveCpuCount /
      r.plannedTaskCpu).floor

def diskBlocked : Bool :=
  decide (0 < r.disk.totalBytes ∧ r.disk.availableRatio < r.limits.minimumFreeDiskRatio)

def safeAdditional : Rat :=
  max 0 (min (min r.limitHeadroom r.additionalByMemory)
    (min r.additionalByCpu (if r.diskBlocked then 0 else r.limitHeadroom)))

/-- `` `${n} campaign${n === 1 ? "" : "s"}` `` -/
def counted (n : Rat) (one many : String) : String :=
  (JsNumber.finite n).toText ++ if n = 1 then one else many

def recommendations : List String :=
  let memoryUsedRatio := r.memoryUsedRatio
  let advice :=
    (if r.diskBlocked then
      ["Increase disk capacity or remove old evidence before starting another campaign."] else []) ++
    (if 85 / 100 ≤ memoryUsedRatio then
      ["RAM pressure is critical; stop one or more active campaigns or increase memory."]
    else if 7 / 10 ≤ memoryUsedRatio then
      ["RAM headroom is narrowing; add campaigns cautiously."] else []) ++
    (if r.systemCpu.any (r.limits.targetCpuPercent ≤ ·) then
      ["CPU is at the planning ceiling; do not add campaigns until load falls."] else []) ++
    (if 100 ≤ r.limits.activeLimit ∧ r.host.effectiveCpuCount < r.limits.recommendedVcpu then
      ["The 100 browser-required campaign target needs at least " ++
        (JsNumber.finite r.limits.recommendedVcpu).toText ++
        " effective vCPU; this server exposes " ++ toFixed1 r.host.effectiveCpuCount ++ "."]
      else []) ++
    (if 0 < r.queuedCount then
      [counted r.queuedCount " campaign is" " campaigns are" ++
        " queued; increase workers only when CPU and RAM headroom permit."] else []) ++
    (if ¬r.health.postgres ∨ ¬r.health.redis then
      ["A state service is unhealthy; restore PostgreSQL and Redis before increasing capacity."]
      else [])
  if advice.isEmpty then
    ["Current headroom supports approximately " ++
      counted r.safeAdditional " additional active campaign" " additional active campaigns" ++
      " under the configured planning model."]
  else advice

def state : String :=
  if ¬r.admission.allowed ∨ r.diskBlocked ∨ ¬r.health.postgres ∨ ¬r.health.redis then "critical"
  else if r.systemCpu.any (65 ≤ ·) ∨ 7 / 10 ≤ r.memoryUsedRatio ∨ 0 < r.queuedCount then "warning"
  else "healthy"

end Readings

/-! ## The snapshot -/

/-- A text, or `null`. -/
def textOr (fallback : JsValue) (text : String) : JsValue :=
  if text = "" then fallback else .string text

def natOrNull (value : Option Nat) : JsValue := (value.map JsValue.ofNat).getD .null

/-- A row of `workerPool.workers`. -/
def workerRow (worker : SharedWorker) : JsValue :=
  .object (JsValue.spread
    [("id", .string worker.id), ("pid", natOrNull worker.pid), ("activeTasks", .ofNat worker.tasks),
      ("ready", .bool worker.ready)] worker.stats.fields)

/-- `rows.reduce((sum, row) => sum + Number(row[name] || 0), 0)` in JSON. -/
def totalOf (name : String) (rows : List JsValue) : JsValue :=
  ((rows.mapM fun row => finite? ((row.get name).or (.ofNat 0)).toNumber).map fun values =>
    numberValue values.sum).getD .null

/-- `orchestratorWorkers.snapshot()` -/
def workerPool (r : Readings) : List (String × JsValue) :=
  let rows := r.workers.map workerRow
  [("enabled", .bool true), ("configuredProcesses", numberValue r.limits.sharedWorkerProcesses),
    ("slotsPerProcess", numberValue r.limits.sharedWorkerSlots),
    ("taskCapacity", numberValue r.taskCapacity), ("liveProcesses", .ofNat rows.length),
    ("activeTasks", .ofNat r.assignedTasks), ("browserInstances", totalOf "browserInstances" rows),
    ("activeBrowserContexts", totalOf "activeContexts" rows), ("workers", .array rows)]

def executionMode (run : ActiveRun) : String :=
  if run.executionMode = "" then "dedicated" else run.executionMode

/-- A row of `campaigns`. -/
def campaignRow (r : Readings) (run : ActiveRun) : JsValue :=
  let campaignName := (run.campaign.map (·.name)).getD ""
  let startedAt := if run.startedAt = 0 then r.generatedAt else run.startedAt
  let shared : Bool := run.executionMode = "shared"
  .object [("campaignRecordId", textOr .null run.campaignRecordId),
    ("campaignNumber", ((run.campaign.map (·.number)).filter (0 < ·)).elim .null .ofNat),
    ("campaignName", textOr (textOr (.string run.id) run.scenarioId) campaignName),
    ("runId", .string run.id), ("status", .string "running"), ("tier", .string run.tier),
    ("pid", natOrNull run.pid), ("startedAt", numberValue run.startedAt),
    ("runtimeMs", numberValue (max 0 (r.generatedAt - startedAt))),
    ("proxyPort", natOrNull run.proxyPort),
    ("targetHost", .string ((run.campaign.map (·.targetHost)).getD "")),
    ("executionMode", .string (executionMode run)), ("workerId", textOr .null run.workerId),
    ("routeDecision", run.lastRouteDecision.elim .null fun decision => .object decision.fields),
    ("plannedCpuPercent", numberValue (if shared then r.limits.estimatedSharedTaskCpuPercent
      else r.limits.estimatedCampaignCpuPercent)),
    ("plannedMemoryBytes", numberValue (if shared then r.limits.estimatedSharedTaskMemoryBytes
      else r.limits.estimatedCampaignMemoryBytes)),
    ("evidenceBytes", numberValue (r.storage.byRun run.id))]

namespace Readings

variable (r : Readings)

def hostFields : List (String × JsValue) :=
  [("hostname", .string r.host.hostname), ("platform", .string r.host.platform),
    ("architecture", .string r.host.architecture), ("nodeVersion", .string r.host.nodeVersion),
    ("uptimeSeconds", numberValue r.host.uptimeSeconds),
    ("logicalCpuCount", .ofNat r.host.logicalCpuCount),
    ("effectiveCpuCount", numberValue r.host.effectiveCpuCount),
    ("cpuModel", textOr (.string "Unknown CPU") r.host.cpuModel),
    ("memorySource", .string r.memory.source)]

def diskFields : List (String × JsValue) :=
  [("totalBytes", numberValue r.disk.totalBytes),
    ("availableBytes", numberValue r.disk.availableBytes),
    ("usedBytes", numberValue r.disk.usedBytes),
    ("availableRatio", numberValue r.disk.availableRatio)]

def loadFields : List (String × JsValue) :=
  [("systemCpuPercent", r.systemCpu.elim .null numberValue),
    ("oneMinuteLoad", numberValue r.oneMinuteLoad),
    ("normalizedLoad", numberValue r.admission.normalizedLoad),
    ("totalMemoryBytes", numberValue r.memory.totalBytes),
    ("availableMemoryBytes", numberValue r.memory.availableBytes),
    ("usedMemoryBytes", numberValue (max 0 (r.memory.totalBytes - r.memory.availableBytes))),
    ("memoryUsedRatio", numberValue r.memoryUsedRatio), ("disk", .object r.diskFields)]

def processFields : List (String × JsValue) :=
  [("pid", .ofNat r.process.pid), ("cpuPercent", numberValue r.controlCpu),
    ("rssBytes", numberValue r.process.rss), ("heapUsedBytes", numberValue r.process.heapUsed),
    ("heapTotalBytes", numberValue r.process.heapTotal),
    ("externalBytes", numberValue r.process.external),
    ("uptimeSeconds", numberValue r.process.uptime)]

/-- The state of the stores, where their capacity could not be read. -/
def fallbackInfrastructure : Infrastructure where
  postgresConfigured := r.distributed
  postgresHealthy := r.health.postgres
  redisConfigured := r.distributed
  redisHealthy := r.health.redis

def postgresFields (infrastructure : Infrastructure) : List (String × JsValue) :=
  [("configured", .bool infrastructure.postgresConfigured),
    ("healthy", .bool infrastructure.postgresHealthy),
    ("sizeBytes", numberValue infrastructure.sizeBytes),
    ("connections", numberValue infrastructure.connections),
    ("maxConnections", numberValue infrastructure.maxConnections)]

def redisFields (infrastructure : Infrastructure) : List (String × JsValue) :=
  [("configured", .bool infrastructure.redisConfigured),
    ("healthy", .bool infrastructure.redisHealthy),
    ("usedMemoryBytes", numberValue infrastructure.usedMemoryBytes),
    ("maxMemoryBytes", numberValue infrastructure.maxMemoryBytes),
    ("keys", numberValue infrastructure.keys)]

def infrastructureFields : List (String × JsValue) :=
  let infrastructure := r.infrastructure.getD r.fallbackInfrastructure
  [("postgres", .object (postgresFields infrastructure)),
    ("redis", .object (redisFields infrastructure))]

def serviceFields : List (String × JsValue) :=
  [("leader", .bool r.health.leader), ("postgresHealthy", .bool r.health.postgres),
    ("redisHealthy", .bool r.health.redis), ("proxyConfigured", .bool r.proxy.isSome),
    ("proxyVerified", .bool (r.proxy.any (·.verified))),
    ("proxyLocation", .string ((r.proxy.map (·.location)).getD "")),
    ("proxyTimezone", .string ((r.proxy.map (·.timezone)).getD ""))]

def limitFields : List (String × JsValue) :=
  [("savedCampaignLimit", numberValue r.limits.savedCampaignLimit),
    ("activeLimit", numberValue r.limits.activeLimit),
    ("maxLocalWorkers", numberValue r.limits.maxLocalWorkers),
    ("maxBrowserConcurrency", numberValue r.limits.maxBrowserConcurrency),
    ("maxTotalConcurrency", numberValue r.limits.maxTotalConcurrency),
    ("maxTotalRps", numberValue r.limits.maxTotalRps),
    ("launchGapMs", numberValue r.limits.launchGapMs),
    ("launchSpreadMs", numberValue r.limits.launchSpreadMs),
    ("sharedOrchestratorEnabled", .bool r.limits.sharedOrchestratorEnabled),
    ("sharedWorkerProcesses", numberValue r.limits.sharedWorkerProcesses),
    ("sharedWorkerSlots", numberValue r.limits.sharedWorkerSlots),
    ("minimumAvailableMemoryRatio", numberValue r.limits.minimumAvailableMemoryRatio),
    ("maximumNormalizedLoad", numberValue r.limits.maximumNormalizedLoad),
    ("targetCpuPercent", numberValue r.limits.targetCpuPercent),
    ("minimumFreeDiskRatio", numberValue r.limits.minimumFreeDiskRatio),
    ("plannedCampaignMemoryBytes", numberValue r.plannedTaskMemory),
    ("plannedCampaignCpuPercent", numberValue r.plannedTaskCpu)]

def workloadFields : List (String × JsValue) :=
  [("savedCampaigns", .ofNat r.campaigns.length), ("activeCampaigns", .ofNat r.active.length),
    ("queuedCampaigns", .ofNat r.queuedCount), ("errorCampaigns", .ofNat (r.countOf "error")),
    ("lockedGatewayPorts", .ofNat r.lockedPorts),
    ("activeEvidenceBytes", numberValue r.storage.totalBytes),
    ("evidenceFilesVisited", .ofNat r.storage.filesVisited),
    ("evidenceScanTruncated", .bool r.storage.truncated),
    ("resourceAdmissionAllowed", .bool r.admission.allowed),
    ("resourceAdmissionReasons", .ofTexts r.admission.reasons),
    ("resourceAdmissionBlocks", .ofNat r.resourceAdmissionBlocks)]

def capacityFields : List (String × JsValue) :=
  [("hardActiveCeiling", numberValue r.hardCeiling),
    ("safeActiveNow", numberValue (r.activeCount + r.safeAdditional)),
    ("safeAdditionalCampaigns", numberValue r.safeAdditional),
    ("additionalByMemory", numberValue r.additionalByMemory),
    ("additionalByCpu", numberValue r.additionalByCpu),
    ("limitHeadroom", numberValue r.limitHeadroom),
    ("recommendations", .ofTexts r.recommendations)]

/-- The twelve reasons with the highest counts. -/
def fallbackReasons : List JsValue :=
  ((r.telemetry.fallbackReasons.mergeSort fun a b => b.2 ≤ a.2).take 12).map fun entry =>
    .object [("reason", .string entry.1), ("count", .ofNat entry.2)]

def routingFields : List (String × JsValue) :=
  [("since", numberValue r.telemetry.since),
    ("preflightAttempts", .ofNat r.telemetry.preflightAttempts),
    ("redirectFirstCaptures", .ofNat r.telemetry.redirectFirstCaptures),
    ("browserFallbacks", .ofNat r.telemetry.browserFallbacks),
    ("cachedFallbacks", .ofNat r.telemetry.cachedFallbacks),
    ("fallbackReasons", .array r.fallbackReasons)]

def planningFields : List (String × JsValue) :=
  [("browserRequiredCampaignTarget", .ofNat 100),
    ("recommendedVcpu", numberValue r.limits.recommendedVcpu),
    ("effectiveVcpu", numberValue r.host.effectiveCpuCount),
    ("vcpuReady", .bool (r.limits.recommendedVcpu ≤ r.host.effectiveCpuCount))]

end Readings

def capacitySnapshot (r : Readings) : JsValue :=
  .object [("version", .ofNat 1), ("generatedAt", numberValue r.generatedAt),
    ("state", .string r.state), ("host", .object r.hostFields), ("load", .object r.loadFields),
    ("process", .object r.processFields), ("infrastructure", .object r.infrastructureFields),
    ("services", .object r.serviceFields), ("limits", .object r.limitFields),
    ("workload", .object r.workloadFields), ("capacity", .object r.capacityFields),
    ("workerPool", .object (workerPool r)), ("routing", .object r.routingFields),
    ("planning", .object r.planningFields), ("campaigns", .array (r.active.map (campaignRow r)))]

end LinkSuffix.Health
