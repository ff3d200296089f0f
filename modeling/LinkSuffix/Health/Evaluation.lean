import LinkSuffix.Health.Alerts
import LinkSuffix.Js.Json
import Mathlib.Data.Rat.Floor

/-!
# The evaluation of health

`evaluateHealth` (`health-alert-store.ts`): the alerts raised from five sources, any of which may be
unreadable. A date of a database row is its epoch in milliseconds.

* `record`, `records`, `textValue`, `findValue`, `timestampMs`, `ageMs`: how the sources are read.
* `systemCandidates`, `capacityCandidates`, `campaignCandidates`, `deliveryCandidates`,
  `shardCandidates`: the alerts of each family.
* `emitted`, `evaluateHealth`: all of them, in the order they are raised, and by fingerprint.
-/

namespace LinkSuffix.Health

/-! ## Reading -/

/-- `record(value)`. -/
def record (value : JsValue) : JsValue :=
  match value with
  | .object fields => .object fields
  | _ => .object []

/-- `Object.keys(item).length > 0`. -/
def hasKeys (item : JsValue) : Bool := !item.record.isEmpty

def records (value : JsValue) : List JsValue :=
  match value with
  | .array items => (items.map record).filter hasKeys
  | .object fields => ((fields.map (·.2)).map record).filter hasKeys
  | _ => []

/-- The text of a field, where it has one. -/
def fieldText (candidate : JsValue) : Option String :=
  match candidate with
  | .string text => if trim text = "" then none else some (trim text)
  | .number number => if number.isFinite then some number.toText else none
  | _ => none

/-- `textValue(value, ...keys)`. -/
def textValue (value : JsValue) (keys : List String) : String :=
  (keys.findSome? fun key => fieldText (value.get key)).getD ""

/-- `value === "true" || value === 1`, and so on. -/
def asBoolean (candidate : JsValue) : Option Bool :=
  match candidate with
  | .bool value => some value
  | .string text => if text = "true" then some true else if text = "false" then some false else none
  | .number number =>
    if number = .finite 1 then some true else if number = .finite 0 then some false else none
  | _ => none

def booleanValue (value : JsValue) (keys : List String) : Option Bool :=
  keys.findSome? fun key => asBoolean (value.get key)

/-- The first result that is not `undefined`. -/
def firstDefined (find : JsValue → JsValue) : List JsValue → JsValue
  | [] => .undefined
  | child :: children =>
    match find child with
    | .undefined => firstDefined find children
    | found => found

/-- The value of the first of some keys that an object has. -/
def ownValue (fields : List (String × JsValue)) (keys : List String) : Option JsValue :=
  (keys.find? fun key => key ∈ fields.map (·.1)).map (JsValue.lookup fields)

/-- `findValue(root, keys, depth)`, with `7 - depth` levels to go. -/
def findValueIn (keys : List String) : Nat → JsValue → JsValue
  | 0, _ => .undefined
  | levels + 1, .object fields =>
    (ownValue fields keys).getD (firstDefined (findValueIn keys levels) (fields.map (·.2)))
  | levels + 1, .array items => firstDefined (findValueIn keys levels) items
  | _ + 1, _ => .undefined

def findValue (root : JsValue) (keys : List String) : JsValue := findValueIn keys 7 root

/-- A finite number. -/
def finite? : JsNumber → Option Rat
  | .finite value => some value
  | _ => none

def findNumber (root : JsValue) (keys : List String) : Option Rat :=
  finite? (findValue root keys).toNumber

def findBoolean (root : JsValue) (keys : List String) : Option Bool :=
  asBoolean (findValue root keys)

/-- `timestampMs` of a number. -/
def numberMs (value : Rat) : Rat :=
  if value > 1000000000000 then value else if value > 1000000000 then value * 1000 else 0

section Clock

variable (dateParse : String → JsNumber)

def timestampMs (value : JsValue) : Rat :=
  match value with
  | .number (.finite value) => numberMs value
  | .string text =>
    if trim text = "" then 0
    else
      match textToNumber text with
      | .finite value => numberMs value
      | _ => (finite? (dateParse text)).getD 0
  | _ => 0

/-- `ageMs(value, now)`; nothing where it is infinite. -/
def ageMs (now : Rat) (value : JsValue) : Option Rat :=
  let timestamp := timestampMs dateParse value
  if timestamp = 0 then none else some (max 0 (now - timestamp))

/-- An age that may be infinite is more than a limit. -/
def exceeds (age : Option Rat) (limit : Rat) : Bool := age.all (limit < ·)

/-- `Math.floor(age / 60_000)` as text. -/
def minutes (age : Option Rat) : String :=
  (age.map fun age => toString (age / 60000).floor).getD "Infinity"

/-- `value.toFixed(1)` of a number that is not negative. -/
def toFixed1 (value : Rat) : String :=
  let tenths := (value * 10 + 1 / 2).floor.toNat
  toString (tenths / 10) ++ "." ++ toString (tenths % 10)

/-- The first of some keys with a time. -/
def newestKey (item : JsValue) (keys : List String) : Rat :=
  (keys.map fun key => timestampMs dateParse (item.get key)).find? (· ≠ 0) |>.getD 0

/-- `newest(items, keys)`: the first of the latest. -/
def newest (items : List JsValue) (keys : List String) : Option JsValue :=
  items.foldl (fun best item =>
    match best with
    | none => some item
    | some best =>
      if newestKey dateParse best keys < newestKey dateParse item keys then some item
      else some best) none

end Clock

/-! ## Candidates by fingerprint -/

/-- `addCandidate`: the first, unless a critical one follows a warning. -/
def addCandidate (target : List Candidate) (candidate : Candidate) : List Candidate :=
  match target.find? fun old => old.fingerprint = candidate.fingerprint with
  | none => target ++ [candidate]
  | some previous =>
    if previous.severity = .warning ∧ candidate.severity = .critical then
      target.map fun old => if old.fingerprint = candidate.fingerprint then candidate else old
    else target

/-! ## The sources -/

/-- What the five reads gave; an error is the message of what was thrown. -/
structure Sources where
  capacity : Except String JsValue
  bridge : Except String JsValue
  registry : Except String (List JsValue)
  relationalShards : Except String (List JsValue)
  relationalDeliveries : Except String (List JsValue)

/-- A source could not be read. -/
def rejected {α : Type} (source : Except String α) : Bool := source.toOption.isNone

namespace Sources

variable (sources : Sources)

/-- `capacity`: nothing where it could not be read. -/
def capacityValue : JsValue := (sources.capacity.toOption.map record).getD (.object [])

def bridgeValue : JsValue := (sources.bridge.toOption.map record).getD (.object [])

def registryRows : List JsValue := (sources.registry.toOption.getD []).map record

def shardRows : List JsValue := sources.relationalShards.toOption.getD []

def deliveryRows : List JsValue := sources.relationalDeliveries.toOption.getD []

/-- The sources with a snapshot that was read. -/
def withCapacity (capacity : JsValue) : Sources := { sources with capacity := .ok capacity }

end Sources

/-! ## The system and the host -/

/-- `${id} reported an unhealthy state.` -/
def dependencyCandidate (id title remediation : String) (activationAfterMs : Nat) : Candidate where
  fingerprint := "system:" ++ id ++ "-unhealthy"
  severity := .critical
  component := id
  scope := "infrastructure"
  code := id ++ "_unhealthy"
  title := title
  message := id ++ " reported an unhealthy state."
  remediation := remediation
  activationAfterMs := activationAfterMs

/-- The dependencies that a capacity snapshot reports unhealthy. -/
def dependencyCandidates (capacity : JsValue) : List Candidate :=
  (if findBoolean capacity ["postgresHealthy", "databaseHealthy", "postgresUp"] = some false then
    [dependencyCandidate "postgres" "PostgreSQL is unhealthy"
      "Restore database connectivity and verify storage health." 15000]
  else []) ++
  (if findBoolean capacity ["redisHealthy", "redisUp"] = some false then
    [dependencyCandidate "redis" "Redis is unhealthy"
      "Restore Redis connectivity and verify memory/eviction state." 30000]
  else []) ++
  (if findBoolean capacity ["leaderHealthy", "leaderActive", "isLeader"] = some false then
    [dependencyCandidate "leader" "Distributed leader is missing"
      "Check Redis fencing and ensure exactly one control leader owns the lease." 30000]
  else [])

def controlUnreachable (message : String) : Candidate where
  fingerprint := "system:control-unreachable"
  severity := .critical
  component := "control"
  scope := "infrastructure"
  code := "control_unreachable"
  title := "Control service is unreachable"
  message := message
  remediation :=
    "Check the control container, its database/Redis dependencies, and the internal CONTROL_TOKEN."
  activationAfterMs := 30000

def fleetStateUnavailable : Candidate where
  fingerprint := "system:fleet-state-unavailable"
  severity := .critical
  component := "script-fleet"
  scope := "delivery"
  code := "fleet_state_unavailable"
  title := "Rolling Apps Script Fleet state is unavailable"
  message := "The health evaluator could not read the Fleet state or campaign registry."
  remediation :=
    "Check PostgreSQL connectivity and the Script Fleet state store before changing any campaign."
  activationAfterMs := 30000

def systemCandidates (sources : Sources) : List Candidate :=
  (match sources.capacity with
    | .error message => [controlUnreachable message]
    | .ok _ => []) ++
  (if rejected sources.bridge || rejected sources.registry || rejected sources.relationalDeliveries
    then [fleetStateUnavailable] else []) ++
  dependencyCandidates sources.capacityValue

/-- A number, as `details` holds it. -/
def numberValue (value : Rat) : JsValue := .number (.finite value)

def cpuCandidate (cpuPercent : Rat) : Candidate where
  fingerprint := "capacity:cpu-sustained"
  severity := .critical
  component := "host"
  scope := "capacity"
  code := "cpu_sustained"
  title := "CPU capacity is critically saturated"
  message := "CPU usage is " ++ toFixed1 cpuPercent ++ "%."
  remediation := "Reduce active browser campaigns or increase vCPU capacity."
  activationAfterMs := 120000
  details := .object [("cpuPercent", numberValue cpuPercent)]

def memoryCandidate (memoryPercent : Rat) : Candidate where
  fingerprint := "capacity:memory-sustained"
  severity := .critical
  component := "host"
  scope := "capacity"
  code := "memory_sustained"
  title := "Memory capacity is critically saturated"
  message := "Memory usage is " ++ toFixed1 memoryPercent ++ "%."
  remediation := "Reduce browser concurrency or increase memory before the OOM killer intervenes."
  activationAfterMs := 120000
  details := .object [("memoryPercent", numberValue memoryPercent)]

def diskCandidate (diskFreePercent : Rat) : Candidate where
  fingerprint := "capacity:disk-low"
  severity := if diskFreePercent ≤ 5 then .critical else .warning
  component := "host"
  scope := "capacity"
  code := "disk_low"
  title := "Server disk space is low"
  message := "Only " ++ toFixed1 diskFreePercent ++ "% disk space remains."
  remediation := "Clear expired evidence/logs or expand the disk before writes fail."
  details := .object [("diskFreePercent", numberValue diskFreePercent)]

def poolCandidate (activeWorkers workerLimit queuedWorkers : Rat) : Candidate where
  fingerprint := "capacity:browser-pool-saturated"
  severity := .warning
  component := "browser-pool"
  scope := "capacity"
  code := "browser_pool_saturated"
  title := "Browser pool is saturated"
  message := (JsNumber.finite activeWorkers).toText ++ "/" ++ (JsNumber.finite workerLimit).toText ++
    " workers are active with " ++ (JsNumber.finite queuedWorkers).toText ++ " campaigns waiting."
  remediation :=
    "Keep journeys staggered; raise browser capacity only after confirming CPU and memory headroom."
  activationAfterMs := 300000
  details := .object [("activeWorkers", numberValue activeWorkers),
    ("workerLimit", numberValue workerLimit), ("queuedWorkers", numberValue queuedWorkers)]

/-- The candidate of a number, where it passes its limit. -/
def candidateIf (value : Option Rat) (passes : Rat → Bool) (candidate : Rat → Candidate) :
    List Candidate :=
  ((value.filter passes).map candidate).toList

def capacityCandidates (capacity : JsValue) : List Candidate :=
  let activeWorkers := findNumber capacity ["activeWorkers", "browserWorkersActive"]
  let workerLimit := findNumber capacity ["workerLimit", "browserWorkerLimit", "maxWorkers"]
  let queuedWorkers := findNumber capacity ["queuedCampaigns", "queuedWorkers", "browserQueueDepth"]
  candidateIf (findNumber capacity ["cpuPercent", "cpuUsagePercent", "hostCpuPercent"])
    (fun cpuPercent => 95 ≤ cpuPercent) cpuCandidate ++
  candidateIf (findNumber capacity ["memoryPercent", "memoryUsedPercent", "hostMemoryPercent"])
    (fun memoryPercent => 92 ≤ memoryPercent) memoryCandidate ++
  candidateIf (findNumber capacity ["diskFreePercent", "freeDiskPercent"])
    (fun diskFreePercent => diskFreePercent ≤ 8) diskCandidate ++
  match activeWorkers, workerLimit, queuedWorkers with
  | some activeWorkers, some workerLimit, some queuedWorkers =>
    if 0 < workerLimit ∧ workerLimit ≤ activeWorkers ∧ 0 < queuedWorkers then
      [poolCandidate activeWorkers workerLimit queuedWorkers]
    else []
  | _, _, _ => []

/-! ## Campaigns -/

/-- `textValue(row, "id", "campaignRecordId", "recordId")`. -/
def campaignId (row : JsValue) : String := textValue row ["id", "campaignRecordId", "recordId"]

/-- `{ ...base, ...value }` of two records. -/
def merge (base value : JsValue) : JsValue :=
  .object (JsValue.spread (JsValue.spread [] base.record) value.record)

/-- `new Map(rows.map(row => [key(row), row])).get(id)`. -/
def lastRow (key : JsValue → String) (rows : List JsValue) (id : String) : Option JsValue :=
  rows.reverse.find? fun row => key row = id

/-- The rows that are evaluated: the live ones, or the registry where there are none. -/
def campaignRows (capacity : JsValue) (registry : List JsValue) : List JsValue :=
  let capacityCampaigns := records (findValue capacity ["campaigns", "campaignRows"])
  if capacityCampaigns.isEmpty then registry else capacityCampaigns

section Rows

variable (dateParse : String → JsNumber) (now : Rat)

/-- The alerts of a campaign, from its registry row and its own. -/
def campaignAlerts (id : String) (combined : JsValue) : List Candidate :=
  let named := textValue combined ["name", "campaignName"]
  let name := if named = "" then id else named
  let status := jsLower (textValue combined ["status", "runStatus"])
  let desiredRunning := (booleanValue combined ["desiredRunning", "shouldRun"]).getD false
  let lastCapturedAt := (combined.get "lastCapturedAt").orElse (combined.get "last_capture_at")
  let lastError := textValue combined ["lastError", "error"]
  (if desiredRunning ∧ status ∉ ["running", "queued", "starting", "scheduled", "retrying"] then [{
    fingerprint := "campaign:" ++ id ++ ":unexpected-stop"
    severity := .critical
    component := name
    scope := "campaign"
    code := "campaign_unexpected_stop"
    title := name ++ " is not running"
    message := "The campaign is expected to run but reports “" ++
      (if status = "" then "unknown" else status) ++ "”."
    remediation :=
      "Inspect its last run error and gateway assignment; restart only after the cause is understood."
    campaignRecordId := some id
    activationAfterMs := 30000
    details := .object [("status", .string status), ("lastError", .string lastError)] }] else []) ++
  (if desiredRunning ∧ status = "running" ∧ exceeds (ageMs dateParse now lastCapturedAt) 180000 then [{
    fingerprint := "campaign:" ++ id ++ ":capture-stale"
    severity := .warning
    component := name
    scope := "capture"
    code := "capture_stale"
    title := name ++ " has stopped capturing suffixes"
    message :=
      if lastCapturedAt.truthy then "No new suffix has been captured for more than three minutes."
      else "No suffix has been captured within three minutes of starting."
    remediation :=
      "Inspect redirect-first/fallback telemetry, target reachability, proxy health, and the browser journey error."
    campaignRecordId := some id
    details := .object [("lastCapturedAt", lastCapturedAt.or .null),
      ("lastError", .string lastError)] }] else []) ++
  (if desiredRunning ∧ status ∈ ["error", "failed", "fatal"] then [{
    fingerprint := "campaign:" ++ id ++ ":run-failed"
    severity := .critical
    component := name
    scope := "campaign"
    code := "campaign_failed"
    title := name ++ " run failed"
    message := if lastError = "" then "The campaign entered a failed state." else lastError
    remediation := "Open run telemetry and fix the recorded error before restarting."
    campaignRecordId := some id
    details := .object [("status", .string status), ("lastError", .string lastError)] }] else [])

/-- The alerts of a row that is evaluated. -/
def rowCandidates (registry : List JsValue) (row : JsValue) : List Candidate :=
  let id := campaignId row
  if id = "" then []
  else
    let registryCampaign := (lastRow campaignId registry id).getD (.object [])
    campaignAlerts dateParse now id (merge registryCampaign row)

def campaignCandidates (capacity : JsValue) (registry : List JsValue) : List Candidate :=
  (campaignRows capacity registry).flatMap (rowCandidates dateParse now registry)

end Rows

/-! ## Deliveries -/

/-- `first ?? second ?? third`. -/
def firstGiven (value : JsValue) (keys : List String) : JsValue :=
  keys.foldr (fun key rest => (value.get key).orElse rest) .undefined

/-- The deliveries and jobs that are known, each of some campaign. -/
def deliveryItems (bridge : JsValue) (relationalDeliveries : List JsValue) : List JsValue :=
  records (firstGiven bridge ["deliveries", "deliveryByCampaign", "campaignDeliveries"]) ++
    relationalDeliveries ++ records (firstGiven bridge ["jobs", "deliveryJobs", "queue"])

def deliveryCampaign (item : JsValue) : String :=
  textValue item ["campaignRecordId", "campaignId", "recordId"]

/-- `deliveriesByCampaign.get(id)`. -/
def deliveriesOf (items : List JsValue) (id : String) : List JsValue :=
  items.filter fun item => deliveryCampaign item ≠ "" && deliveryCampaign item = id

def config (campaign : JsValue) : JsValue := record (campaign.get "config")

/-- The campaigns enrolled for Apps Script delivery. -/
def enrolled (registry : List JsValue) (items : List JsValue) : List JsValue :=
  registry.filter fun campaign =>
    (((config campaign).get "useScriptMesh").orElse (campaign.get "useScriptMesh")).truthy ||
      !(deliveriesOf items (campaignId campaign)).isEmpty

/-- The shard a campaign is assigned to. -/
def assignedShard (campaign : JsValue) : String :=
  let own := textValue campaign ["scriptFleetShardId", "shardId"]
  if own = "" then textValue (config campaign) ["scriptFleetShardId", "shardId"] else own

/-- A text, where it is not empty. -/
def optionalText (text : String) : Option String := if text = "" then none else some text

/-- `text || null`. -/
def textOrNull (text : String) : JsValue := if text = "" then .null else .string text

section Deliveries

variable (dateParse : String → JsNumber) (now : Rat)

/-- The alerts of the delivery of an enrolled campaign. -/
def deliveryAlerts (items : List JsValue) (campaign : JsValue) : List Candidate :=
  let id := campaignId campaign
  let named := textValue campaign ["name", "campaignName"]
  let name := if named = "" then id else named
  let shardId := assignedShard campaign
  let latestSuffix := textValue campaign ["latestSuffix", "suffix"]
  let capturedAt := (campaign.get "lastCapturedAt").orElse (campaign.get "last_capture_at")
  let found := newest dateParse (deliveriesOf items id)
    ["updatedAt", "verifiedAt", "appliedAt", "leasedAt", "queuedAt", "createdAt", "version"]
  let delivery := found.getD .undefined
  let deliveryStatus := jsLower (textValue delivery ["status", "state", "deliveryStatus", "jobStatus"])
  let queuedAt := firstGiven delivery ["queuedAt", "createdAt", "version"]
  let deliveryAge :=
    if queuedAt.truthy then ageMs dateParse now queuedAt else ageMs dateParse now capturedAt
  let expectedHash := textValue delivery ["suffixHash", "queuedSuffixHash", "expectedSuffixHash"]
  let verifiedHash :=
    textValue delivery ["verifiedSuffixHash", "appliedSuffixHash", "lastAppliedSuffixHash"]
  let verifiedSuffix := textValue delivery ["verifiedSuffix", "appliedSuffix", "readBackSuffix"]
  (if shardId = "" then [{
    fingerprint := "delivery:" ++ id ++ ":unassigned"
    severity := .critical
    component := name
    scope := "delivery"
    code := "fleet_unassigned"
    title := name ++ " has no Fleet shard"
    message := "The campaign is enrolled for Apps Script delivery but has no assigned shard."
    remediation := "Assign the campaign to a shard before expecting Google Ads delivery."
    campaignRecordId := some id }] else []) ++
  (if latestSuffix ≠ "" ∧ found = none ∧ exceeds (ageMs dateParse now capturedAt) 60000 then [{
    fingerprint := "delivery:" ++ id ++ ":not-queued"
    severity := .critical
    component := name
    scope := "delivery"
    code := "suffix_not_queued"
    title := name ++ " suffix was not queued"
    message :=
      "A suffix was captured, but no Fleet delivery record exists after the 58-second gate."
    remediation :=
      "Inspect Fleet enrollment and queue synchronization; do not recapture or edit the suffix manually."
    campaignRecordId := some id
    shardId := optionalText shardId
    details := .object [("capturedAt", capturedAt.or .null)] }] else []) ++
  (if deliveryStatus ∈ ["failed", "dead", "dead_letter", "rejected"] then [{
    fingerprint := "delivery:" ++ id ++ ":failed"
    severity := .critical
    component := name
    scope := "delivery"
    code := "delivery_failed"
    title := name ++ " Google Ads delivery failed"
    message :=
      let text := textValue delivery ["lastError", "error", "message"]
      if text = "" then "Fleet delivery is " ++ deliveryStatus ++ "." else text
    remediation :=
      "Inspect the shard script logs, child-account access, campaign ID, and immutable lease acknowledgement."
    campaignRecordId := some id
    shardId := optionalText shardId
    details := .object [("deliveryStatus", .string deliveryStatus)] }] else []) ++
  (if deliveryStatus ∈ ["pending", "queued", "leased", "processing", "retrying"] ∧
      exceeds deliveryAge 180000 then [{
    fingerprint := "delivery:" ++ id ++ ":delayed"
    severity := if exceeds deliveryAge 600000 then .critical else .warning
    component := name
    scope := "delivery"
    code := "delivery_delayed"
    title := name ++ " suffix delivery is delayed"
    message := "The newest suffix has remained " ++ deliveryStatus ++ " for " ++
      minutes deliveryAge ++ " minutes."
    remediation :=
      "Check shard polling, lease acknowledgements, and Google Ads script execution history."
    campaignRecordId := some id
    shardId := optionalText shardId
    details := .object [("deliveryStatus", .string deliveryStatus),
      ("deliveryAgeMs", .number ((deliveryAge.map JsNumber.finite).getD (.infinity false)))] }]
    else []) ++
  (if (expectedHash ≠ "" ∧ verifiedHash ≠ "" ∧ expectedHash ≠ verifiedHash) ∨
      (latestSuffix ≠ "" ∧ verifiedSuffix ≠ "" ∧ latestSuffix ≠ verifiedSuffix) then [{
    fingerprint := "delivery:" ++ id ++ ":mismatch"
    severity := .critical
    component := name
    scope := "delivery"
    code := "suffix_mismatch"
    title := name ++ " suffix read-back does not match"
    message :=
      "Google Ads read-back differs from the exact immutable suffix that was leased."
    remediation :=
      "Stop delivery for this target and inspect the mutation/read-back result before acknowledging another version."
    campaignRecordId := some id
    shardId := optionalText shardId
    details := .object [("expectedHash", textOrNull expectedHash),
      ("verifiedHash", textOrNull verifiedHash)] }] else [])

/-- The enrolled campaigns that are evaluated. -/
def enrolledCampaigns (registry : List JsValue) (items : List JsValue) : List JsValue :=
  (enrolled registry items).filter fun campaign => campaignId campaign ≠ ""

def deliveryCandidates (registry : List JsValue) (items : List JsValue) : List Candidate :=
  (enrolledCampaigns registry items).flatMap (deliveryAlerts dateParse now items)

end Deliveries

/-! ## Shards -/

def shardKey (item : JsValue) : String := textValue item ["id", "shardId"]

/-- A map by key, in the order the keys came. -/
def setRow (rows : List (String × JsValue)) (key : String) (change : JsValue → JsValue) :
    List (String × JsValue) :=
  if key ∈ rows.map (·.1) then
    rows.map fun row => if row.1 = key then (row.1, change row.2) else row
  else rows ++ [(key, change .undefined)]

/-- `mergedShards`: the rows of the bridge, each with its relational row over it. -/
def mergedShards (bridge : JsValue) (relationalShards : List JsValue) : List JsValue :=
  let legacyShards := records (firstGiven bridge ["shards", "fleetShards", "workers"])
  let legacy := (legacyShards.filter (shardKey · ≠ "")).foldl
    (fun rows item => setRow rows (shardKey item) fun _ => item) []
  let all := (relationalShards.filter (shardKey · ≠ "")).foldl
    (fun rows item => setRow rows (shardKey item) (merge · item)) legacy
  (all.map (·.2)).filter fun item => !(item.get "deletedAt").truthy

/-- `shardCampaigns`: how many enrolled campaigns each shard has. -/
def shardCampaigns (campaigns : List JsValue) : List (String × Nat) :=
  ((campaigns.map assignedShard).filter (· ≠ "")).foldl (fun counts shardId =>
    if shardId ∈ counts.map (·.1) then
      counts.map fun count => if count.1 = shardId then (count.1, count.2 + 1) else count
    else counts ++ [(shardId, 1)]) []

/-- The limits read from the environment. -/
structure Limits where
  shardPollWarningMs : Nat := 300000
  shardPollCriticalMs : Nat := 900000
  v8CompletedRunMs : Nat := 3000000
  v8HourlyHandoffMs : Nat := 4500000
  adaptiveStartWarningMs : Nat := 300000
  adaptiveStartCriticalMs : Nat := 900000
  adaptiveDeadlineOverrunMs : Nat := 60000

/-- A finite age, or `null`. -/
def ageOrNull (age : Option Rat) : JsValue := (age.map numberValue).getD .null

section Shards

variable (dateParse : String → JsNumber) (limits : Limits) (now : Rat)

/-- The alert of a shard, of whichever kind comes first. -/
def shardAlerts (shards : List JsValue) (shardId : String) (campaignCount : Nat) : List Candidate :=
  let shard := (lastRow shardKey shards shardId).getD (.object [])
  let time := timestampMs dateParse
  let age := ageMs dateParse now
  let lastPollAt := firstGiven shard ["lastPollAt", "last_poll_at", "lastHeartbeatAt"]
  let lastAckAt := firstGiven shard ["lastAcknowledgementAt", "lastAcknowledgedAt", "lastAckAt"]
  let lastManifestSeenAt := firstGiven shard ["lastManifestSeenAt", "manifestSeenAt"]
  let executionStartedAt := shard.get "lastExecutionStartedAt"
  let expectedNextStartAt := shard.get "expectedNextStartAt"
  let hardStopAt := shard.get "hardStopAt"
  let createdAt := firstGiven shard ["createdAt", "updatedAt"]
  let pollAge := if lastPollAt.truthy then age lastPollAt else age createdAt
  let manifestAge := if lastManifestSeenAt.truthy then age lastManifestSeenAt else none
  let runSpan :=
    if lastPollAt.truthy ∧ lastManifestSeenAt.truthy then
      max 0 (time lastPollAt - time lastManifestSeenAt)
    else 0
  let source := textValue shard ["heartbeatSource"]
  let v8HourlyHandoff : Bool :=
    source = "relational-v8" && decide ((limits.v8CompletedRunMs : Rat) ≤ runSpan)
  let adaptive : Bool := source = "relational-v9" && expectedNextStartAt.truthy
  let effectiveContactAge :=
    if v8HourlyHandoff then manifestAge.map fun age => max 0 (age - (limits.v8HourlyHandoffMs : Rat))
    else pollAge
  let executionHasPolled : Bool :=
    lastPollAt.truthy && executionStartedAt.truthy && decide (time executionStartedAt ≤ time lastPollAt)
  let executionAge : Option Rat :=
    if executionStartedAt.truthy then some (max 0 (now - time executionStartedAt)) else none
  let beforeHardStop : Bool := hardStopAt.truthy && decide (now < time hardStopAt)
  let expectedStartDelay : Option Rat :=
    if expectedNextStartAt.truthy then some (now - time expectedNextStartAt) else none
  let pollAfterHardStop : Bool :=
    lastPollAt.truthy && hardStopAt.truthy && decide (time hardStopAt < time lastPollAt)
  let deadlineOverrun : Option Rat :=
    if hardStopAt.truthy ∧ pollAfterHardStop ∧ pollAge.any (· ≤ (limits.shardPollWarningMs : Rat)) then
      some (now - time hardStopAt)
    else none
  let execution : JsValue := .object [("campaignCount", .ofNat campaignCount),
    ("lastPollAt", lastPollAt), ("executionStartedAt", executionStartedAt),
    ("hardStopAt", hardStopAt), ("expectedNextStartAt", expectedNextStartAt)]
  if adaptive ∧ deadlineOverrun.any ((limits.adaptiveDeadlineOverrunMs : Rat) < ·) then [{
    fingerprint := "shard:" ++ shardId ++ ":deadline-overrun"
    severity := .warning
    component := shardId
    scope := "script-fleet"
    code := "apps_script_deadline_overrun"
    title := shardId ++ " exceeded its adaptive deadline"
    message := "The shard is still polling " ++ minutes deadlineOverrun ++
      " minutes after its protected handoff deadline."
    remediation :=
      "Inspect the generated V9 worker version and its execution log; do not start another manual copy while this invocation remains active."
    shardId := some shardId
    details := execution }]
  else if adaptive ∧ beforeHardStop ∧ exceeds executionAge limits.shardPollWarningMs ∧
      (¬executionHasPolled ∨ exceeds pollAge limits.shardPollWarningMs) then
    let critical := exceeds pollAge limits.shardPollCriticalMs
    [{
    fingerprint := "shard:" ++ shardId ++ ":active-poll-stale"
    severity := if critical then .critical else .warning
    component := shardId
    scope := "script-fleet"
    code := if critical then "apps_script_active_stopped" else "apps_script_active_delayed"
    title :=
      if critical then shardId ++ " lost contact during execution"
      else shardId ++ " active poll is delayed"
    message :=
      if executionHasPolled then "No shard poll has arrived for " ++ minutes pollAge ++
        " minutes before the adaptive deadline."
      else "The V9 invocation started but no account or callback poll has reached the bridge."
    remediation :=
      "Inspect the current Google Ads Scripts execution log and child-account authorization."
    shardId := some shardId
    details := execution }]
  else if adaptive ∧ expectedStartDelay.any ((limits.adaptiveStartWarningMs : Rat) < ·) then
    let critical := expectedStartDelay.any ((limits.adaptiveStartCriticalMs : Rat) < ·)
    [{
    fingerprint := "shard:" ++ shardId ++ ":expected-start-missed"
    severity := if critical then .critical else .warning
    component := shardId
    scope := "script-fleet"
    code := if critical then "apps_script_stopped" else "apps_script_start_delayed"
    title :=
      if critical then shardId ++ " missed its expected hourly start"
      else shardId ++ " hourly start is delayed"
    message := "No new V9 start heartbeat has arrived " ++ minutes expectedStartDelay ++
      " minutes after the learned Google trigger."
    remediation :=
      "Check Google Ads Scripts execution history, authorization, Hourly frequency, and the installed V9 shard worker."
    shardId := some shardId
    details := execution }]
  else if ¬adaptive ∧ exceeds effectiveContactAge limits.shardPollWarningMs then
    let critical := exceeds effectiveContactAge limits.shardPollCriticalMs
    [{
    fingerprint := "shard:" ++ shardId ++ ":poll-stale"
    severity := if critical then .critical else .warning
    component := shardId
    scope := "script-fleet"
    code := if critical then "apps_script_stopped" else "apps_script_poll_delayed"
    title :=
      if critical then shardId ++ " Apps Script stopped polling"
      else shardId ++ " Apps Script contact is delayed"
    message :=
      if v8HourlyHandoff then "The next legacy V8 hourly execution is " ++
        minutes effectiveContactAge ++ " minutes beyond its handoff allowance."
      else if lastPollAt.truthy then "No shard poll has arrived for " ++ minutes pollAge ++
        " minutes during an active execution."
      else "This assigned shard has never polled the bridge."
    remediation :=
      if critical then
        "Check Google Ads Scripts execution history, authorization, hourly schedule, and the generated shard worker version immediately."
      else
        "Watch the next execution window; if contact does not resume, inspect the Google Ads script schedule and execution history."
    shardId := some shardId
    details := .object [("campaignCount", .ofNat campaignCount), ("lastPollAt", lastPollAt.or .null),
      ("lastAckAt", lastAckAt.or .null), ("lastManifestSeenAt", lastManifestSeenAt.or .null),
      ("heartbeatSource", .string (if source = "" then "legacy-fallback" else source)),
      ("heartbeatMode", .string (if v8HourlyHandoff then "hourly-handoff" else "active-execution")),
      ("rawPollAgeMs", ageOrNull pollAge), ("effectiveContactAgeMs", ageOrNull effectiveContactAge),
      ("warningAfterMs", .ofNat limits.shardPollWarningMs),
      ("criticalAfterMs", .ofNat limits.shardPollCriticalMs),
      ("v8CompletedRunMs", .ofNat limits.v8CompletedRunMs),
      ("v8HourlyHandoffMs", .ofNat limits.v8HourlyHandoffMs), ("nextEvaluationWithinMs", .ofNat 15000)] }]
  else []

def shardCandidates (shards campaigns : List JsValue) : List Candidate :=
  (shardCampaigns campaigns).flatMap fun entry =>
    shardAlerts dateParse limits now shards entry.1 entry.2

end Shards

/-! ## All of them -/

/-- What an evaluation depends on beside its sources: `Date.parse`, the limits and the time. -/
structure Clock where
  dateParse : String → JsNumber
  limits : Limits
  now : Rat

/-- The candidates in the order they are added. -/
def emitted (clock : Clock) (sources : Sources) : List Candidate :=
  let registry := sources.registryRows
  let items := deliveryItems sources.bridgeValue sources.deliveryRows
  systemCandidates sources ++ capacityCandidates sources.capacityValue ++
    campaignCandidates clock.dateParse clock.now sources.capacityValue registry ++
    deliveryCandidates clock.dateParse clock.now registry items ++
    shardCandidates clock.dateParse clock.limits clock.now
      (mergedShards sources.bridgeValue sources.shardRows) (enrolledCampaigns registry items)

/-- The candidates `evaluateHealth` hands to `persistEvaluation`. -/
def evaluateHealth (clock : Clock) (sources : Sources) : List Candidate :=
  (emitted clock sources).foldl addCandidate []

/-! ## Adding candidates -/

section Adding

variable {target candidates : List Candidate} {candidate : Candidate}

/-- A candidate in the place of the one it replaces. -/
theorem fingerprint_replaced (candidate old : Candidate) :
    (if old.fingerprint = candidate.fingerprint then candidate else old).fingerprint =
      old.fingerprint := by
  split
  · rename_i h
    exact h.symm
  · rfl

/-- The fingerprints are those there were, and the new one. -/
theorem addCandidate_fingerprints (target : List Candidate) (candidate : Candidate) :
    (addCandidate target candidate).map (·.fingerprint) =
      if candidate.fingerprint ∈ target.map (·.fingerprint) then target.map (·.fingerprint)
      else target.map (·.fingerprint) ++ [candidate.fingerprint] := by
  unfold addCandidate
  cases hfind : target.find? fun old => old.fingerprint = candidate.fingerprint with
  | none =>
    have hnone : candidate.fingerprint ∉ target.map (·.fingerprint) := by
      intro hmem
      obtain ⟨old, hold, heq⟩ := List.mem_map.mp hmem
      exact List.find?_eq_none.mp hfind old hold (decide_eq_true heq)
    rw [if_neg hnone, List.map_append]
    rfl
  | some previous =>
    have hprevious : previous.fingerprint = candidate.fingerprint := by
      simpa using List.find?_some hfind
    have hmem : candidate.fingerprint ∈ target.map (·.fingerprint) :=
      List.mem_map.mpr ⟨previous, List.mem_of_find?_eq_some hfind, hprevious⟩
    rw [if_pos hmem]
    dsimp only
    split
    · rw [List.map_map]
      exact List.map_congr_left fun old _ => fingerprint_replaced candidate old
    · rfl

theorem addCandidate_distinct (h : (target.map (·.fingerprint)).Nodup) :
    ((addCandidate target candidate).map (·.fingerprint)).Nodup := by
  rw [addCandidate_fingerprints]
  split
  · exact h
  · rename_i hmem
    exact List.nodup_append.mpr ⟨h, List.nodup_singleton _, fun a ha b hb heq =>
      hmem (List.mem_singleton.mp hb ▸ heq ▸ ha)⟩

theorem foldl_addCandidate_distinct (h : (target.map (·.fingerprint)).Nodup) :
    ((candidates.foldl addCandidate target).map (·.fingerprint)).Nodup := by
  induction candidates generalizing target with
  | nil => exact h
  | cons candidate candidates ih => exact ih (addCandidate_distinct h)

/-- Every fingerprint that was added is there. -/
theorem mem_foldl_addCandidate (fingerprint : String) :
    fingerprint ∈ (candidates.foldl addCandidate target).map (·.fingerprint) ↔
      fingerprint ∈ target.map (·.fingerprint) ∨ fingerprint ∈ candidates.map (·.fingerprint) := by
  induction candidates generalizing target with
  | nil => simp
  | cons candidate candidates ih =>
    have hadd : fingerprint ∈ (addCandidate target candidate).map (·.fingerprint) ↔
        fingerprint ∈ target.map (·.fingerprint) ∨ fingerprint = candidate.fingerprint := by
      rw [addCandidate_fingerprints]
      split
      · rename_i hmem
        exact ⟨.inl, fun h => h.elim id fun heq => heq ▸ hmem⟩
      · rw [List.mem_append, List.mem_singleton]
    rw [List.foldl_cons, ih, hadd, List.map_cons, List.mem_cons, or_assoc]

/-- What is asked of a fingerprint alone may be asked before the candidates are added. -/
theorem filter_addCandidate (p : String → Bool) (target : List Candidate) (candidate : Candidate) :
    (addCandidate target candidate).filter (fun c => p c.fingerprint) =
      if p candidate.fingerprint then
        addCandidate (target.filter fun c => p c.fingerprint) candidate
      else target.filter fun c => p c.fingerprint := by
  have hreplaced : (target.map fun old =>
      if old.fingerprint = candidate.fingerprint then candidate else old).filter
        (fun c => p c.fingerprint) =
      (target.filter fun c => p c.fingerprint).map fun old =>
        if old.fingerprint = candidate.fingerprint then candidate else old := by
    rw [List.filter_map]
    refine congrArg _ (List.filter_congr fun old _ => ?_)
    exact congrArg p (fingerprint_replaced candidate old)
  by_cases hp : p candidate.fingerprint = true
  · have hfind : (target.filter fun c => p c.fingerprint).find?
        (fun old => old.fingerprint = candidate.fingerprint) =
          target.find? fun old => old.fingerprint = candidate.fingerprint := by
      rw [List.find?_filter]
      refine congrArg (fun q => target.find? q) (funext fun old => ?_)
      by_cases heq : old.fingerprint = candidate.fingerprint
      · simp [heq, hp]
      · simp [heq]
    rw [if_pos hp]
    unfold addCandidate
    rw [hfind]
    cases target.find? fun old => old.fingerprint = candidate.fingerprint with
    | none =>
      dsimp only
      rw [List.filter_append, List.filter_singleton, hp]
      rfl
    | some previous =>
      dsimp only
      split
      · exact hreplaced
      · rfl
  · have hsame : (target.filter fun c => p c.fingerprint).map (fun old =>
        if old.fingerprint = candidate.fingerprint then candidate else old) =
          target.filter fun c => p c.fingerprint := by
      refine (List.map_congr_left fun old hold => ?_).trans (List.map_id' _)
      have hold := (List.mem_filter.mp hold).2
      exact if_neg fun heq : old.fingerprint = candidate.fingerprint => hp (heq ▸ hold)
    rw [if_neg hp]
    unfold addCandidate
    split
    · rw [List.filter_append, List.filter_singleton]
      simp [hp]
    · split
      · rw [hreplaced, hsame]
      · rfl

theorem filter_foldl_addCandidate (p : String → Bool) (candidates target : List Candidate) :
    (candidates.foldl addCandidate target).filter (fun c => p c.fingerprint) =
      (candidates.filter fun c => p c.fingerprint).foldl addCandidate
        (target.filter fun c => p c.fingerprint) := by
  induction candidates generalizing target with
  | nil => rfl
  | cons candidate candidates ih =>
    rw [List.foldl_cons, ih, filter_addCandidate, List.filter_cons]
    split <;> rfl

end Adding

/-- The evaluation that is persisted. -/
def evaluation (clock : Clock) (sources : Sources) : Evaluation where
  candidates := evaluateHealth clock sources
  distinct := foldl_addCandidate_distinct List.nodup_nil

theorem mem_evaluation (clock : Clock) (sources : Sources) (fingerprint : String) :
    fingerprint ∈ (evaluation clock sources).fingerprints ↔
      fingerprint ∈ (emitted clock sources).map (·.fingerprint) := by
  refine (mem_foldl_addCandidate fingerprint).trans ?_
  simp

end LinkSuffix.Health
