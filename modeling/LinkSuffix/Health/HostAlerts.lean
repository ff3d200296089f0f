import LinkSuffix.Health.CampaignAlerts
import LinkSuffix.Health.Snapshot

/-!
# The alerts of the host

What `evaluateHealth` finds in the snapshots of the control server, by the names it looks for: the
CPU share of the control process itself, the number of queued campaigns, and no other number.

* `Silent`, and the parts of a snapshot in which a search is silent.
* `findNumber_cpu`, `findNumber_queued`, `findValue_unused`: what is found.
* `FollowsSnapshot`: the alerts of the host are raised by the numbers of the snapshot.
* **`hostAlerts_follow_iff`**; **`busy_host_unreported`**.
-/

namespace LinkSuffix.Health

/-! ## A search that finds nothing -/

/-- A search for some names finds none of them in a value. -/
def Silent (keys : List String) (value : JsValue) : Prop :=
  ∀ levels, findValueIn keys levels value = .undefined

section Search

variable {keys : List String} {fields : List (String × JsValue)}

theorem silent_atom {value : JsValue} (h : isAtom value = true) : Silent keys value := by
  intro levels
  cases levels with
  | zero => rfl
  | succ levels =>
    cases value with
    | array items => cases h
    | object fields => cases h
    | _ => rfl

theorem firstDefined_silent {values : List JsValue} (h : ∀ value ∈ values, Silent keys value)
    (levels : Nat) : firstDefined (findValueIn keys levels) values = .undefined := by
  induction values with
  | nil => rfl
  | cons value values ih =>
    unfold firstDefined
    rw [h value List.mem_cons_self levels]
    exact ih fun value hvalue => h value (List.mem_cons_of_mem _ hvalue)

theorem silent_array {items : List JsValue} (h : ∀ item ∈ items, Silent keys item) :
    Silent keys (.array items) := by
  intro levels
  cases levels with
  | zero => rfl
  | succ levels => exact firstDefined_silent h levels

theorem ownValue_none (hnames : ∀ name ∈ fields.map (·.1), name ∉ keys) :
    ownValue fields keys = none := by
  unfold ownValue
  rw [List.find?_eq_none.mpr fun key hkey hmem => hnames key (of_decide_eq_true hmem) hkey]
  rfl

theorem silent_object (hnames : ∀ name ∈ fields.map (·.1), name ∉ keys)
    (h : ∀ value ∈ fields.map (·.2), Silent keys value) : Silent keys (.object fields) := by
  intro levels
  cases levels with
  | zero => rfl
  | succ levels =>
    unfold findValueIn
    rw [ownValue_none hnames]
    exact firstDefined_silent h levels

/-- The first value that is not silent is searched. -/
theorem firstDefined_found (before : List JsValue) {after : List JsValue} {child found : JsValue}
    {levels : Nat}
    (hbefore : ∀ value ∈ before, Silent keys value)
    (hchild : findValueIn keys levels child = found) (hfound : found ≠ .undefined) :
    firstDefined (findValueIn keys levels) (before ++ child :: after) = found := by
  induction before with
  | nil =>
    rw [List.nil_append]
    unfold firstDefined
    rw [hchild]
    cases found with
    | undefined => exact (hfound rfl).elim
    | _ => rfl
  | cons value before ih =>
    rw [List.cons_append]
    unfold firstDefined
    rw [hbefore value List.mem_cons_self levels]
    exact ih fun value hvalue => hbefore value (List.mem_cons_of_mem _ hvalue)

theorem findValueIn_object {levels : Nat} (names : List String)
    (hnames : fields.map (·.1) = names) (h : ∀ name ∈ names, name ∉ keys) :
    findValueIn keys (levels + 1) (.object fields) =
      firstDefined (findValueIn keys levels) (fields.map (·.2)) := by
  unfold findValueIn
  rw [ownValue_none (hnames ▸ h)]
  rfl

theorem silent_plain (hkeys : keys ⊆ hostNames) (h : ∀ field ∈ fields, PlainField field) :
    Silent keys (.object fields) := by
  refine silent_object (fun name hname hkey => ?_) fun value hvalue => ?_
  · obtain ⟨field, hfield, rfl⟩ := List.mem_map.mp hname
    exact (h field hfield).1 (hkeys hkey)
  · obtain ⟨field, hfield, rfl⟩ := List.mem_map.mp hvalue
    exact silent_atom (h field hfield).2

/-- A record with other names than those that are looked for. -/
theorem silent_names (names : List String) (hnames : fields.map (·.1) = names)
    (hkeys : keys ⊆ hostNames) (hhost : ∀ name ∈ names, name ∉ hostNames)
    (h : ∀ value ∈ fields.map (·.2), Silent keys value) : Silent keys (.object fields) :=
  silent_object (fun name hname hkey => hhost name (hnames ▸ hname) (hkeys hkey)) h

/-- A record in which none of the host's names is one of those that are looked for. -/
theorem silent_own (own : List String) (names : List String) (hnames : fields.map (·.1) = names)
    (hkeys : keys ⊆ hostNames) (hhost : ∀ name ∈ names, name ∈ hostNames → name ∈ own)
    (hown : ∀ name ∈ own, name ∉ keys) (h : ∀ value ∈ fields.map (·.2), Silent keys value) :
    Silent keys (.object fields) :=
  silent_object (fun name hname hkey =>
    hown name (hhost name (hnames ▸ hname) (hkeys hkey)) hkey) h

/-- Every value is plain but one. -/
theorem silent_but {special : JsValue} (hspecial : Silent keys special)
    (h : ∀ value ∈ fields.map (·.2), isAtom value = true ∨ value = special) :
    ∀ value ∈ fields.map (·.2), Silent keys value := fun value hvalue =>
  (h value hvalue).elim silent_atom fun heq => heq ▸ hspecial

theorem silent_texts (texts : List String) : Silent keys (.ofTexts texts) :=
  silent_array fun item hitem => by
    obtain ⟨text, -, rfl⟩ := List.mem_map.mp hitem
    exact silent_atom rfl

end Search

/-! ## Plain values -/

@[simp] theorem isAtom_ofNat (n : Nat) : isAtom (.ofNat n) = true := by
  simp only [isAtom, JsValue.ofNat]

@[simp] theorem isAtom_numberValue (value : Rat) : isAtom (numberValue value) = true := by
  simp only [isAtom, numberValue]

@[simp] theorem isAtom_string (text : String) : isAtom (.string text) = true := by
  simp only [isAtom]

@[simp] theorem isAtom_bool (value : Bool) : isAtom (.bool value) = true := by
  simp only [isAtom]

@[simp] theorem isAtom_null : isAtom .null = true := by
  simp only [isAtom]

@[simp] theorem isAtom_textOr {fallback : JsValue} (h : isAtom fallback = true) (text : String) :
    isAtom (textOr fallback text) = true := by
  unfold textOr
  split
  · exact h
  · rfl

@[simp] theorem isAtom_natOrNull (value : Option Nat) : isAtom (natOrNull value) = true := by
  cases value <;> rfl

@[simp] theorem isAtom_elim {α : Type} (value : Option α) (f : α → JsValue)
    (h : ∀ a, isAtom (f a) = true) : isAtom (value.elim .null f) = true := by
  cases value with
  | none => rfl
  | some a => exact h a

@[simp] theorem isAtom_totalOf (name : String) (rows : List JsValue) :
    isAtom (totalOf name rows) = true := by
  unfold totalOf
  cases rows.mapM fun row => finite? ((row.get name).or (.ofNat 0)).toNumber <;> rfl

/-! ## The parts of a snapshot -/

section Parts

variable {keys : List String} (hkeys : keys ⊆ hostNames) (r : Readings)

include hkeys

theorem silent_host : Silent keys (.object r.hostFields) :=
  silent_plain hkeys <| plain_of_names ["hostname", "platform", "architecture", "nodeVersion",
    "uptimeSeconds", "logicalCpuCount", "effectiveCpuCount", "cpuModel", "memorySource"] rfl
    (by decide) (by simp [Readings.hostFields])

theorem silent_disk : Silent keys (.object r.diskFields) :=
  silent_plain hkeys <| plain_of_names ["totalBytes", "availableBytes", "usedBytes",
    "availableRatio"] rfl (by decide) (by simp [Readings.diskFields])

theorem silent_load : Silent keys (.object r.loadFields) := by
  refine silent_names ["systemCpuPercent", "oneMinuteLoad", "normalizedLoad", "totalMemoryBytes",
    "availableMemoryBytes", "usedMemoryBytes", "memoryUsedRatio", "disk"] rfl hkeys (by decide) ?_
  exact silent_but (silent_disk hkeys r) (by simp [Readings.loadFields])

theorem silent_process (hcpu : "cpuPercent" ∉ keys) : Silent keys (.object r.processFields) := by
  refine silent_own ["cpuPercent"] ["pid", "cpuPercent", "rssBytes", "heapUsedBytes",
    "heapTotalBytes", "externalBytes", "uptimeSeconds"] rfl hkeys (by decide)
    (List.forall_mem_singleton.mpr hcpu) ?_
  have hatoms : ∀ value ∈ r.processFields.map (·.2), isAtom value = true := by
    simp [Readings.processFields]
  exact fun value hvalue => silent_atom (hatoms value hvalue)

theorem silent_infrastructure : Silent keys (.object r.infrastructureFields) := by
  refine silent_names ["postgres", "redis"] rfl hkeys (by decide) ?_
  intro value hvalue
  simp only [Readings.infrastructureFields, List.map_cons, List.map_nil, List.mem_cons,
    List.not_mem_nil, or_false] at hvalue
  rcases hvalue with rfl | rfl
  · exact silent_plain hkeys <| plain_of_names ["configured", "healthy", "sizeBytes",
      "connections", "maxConnections"] rfl (by decide) (by simp [Readings.postgresFields])
  · exact silent_plain hkeys <| plain_of_names ["configured", "healthy", "usedMemoryBytes",
      "maxMemoryBytes", "keys"] rfl (by decide) (by simp [Readings.redisFields])

theorem silent_services (hpostgres : "postgresHealthy" ∉ keys) (hredis : "redisHealthy" ∉ keys) :
    Silent keys (.object r.serviceFields) := by
  refine silent_own ["postgresHealthy", "redisHealthy"] ["leader", "postgresHealthy",
    "redisHealthy", "proxyConfigured", "proxyVerified", "proxyLocation", "proxyTimezone"] rfl hkeys
    (by decide) (by simp [hpostgres, hredis]) ?_
  have hatoms : ∀ value ∈ r.serviceFields.map (·.2), isAtom value = true := by
    simp [Readings.serviceFields]
  exact fun value hvalue => silent_atom (hatoms value hvalue)

theorem silent_limits : Silent keys (.object r.limitFields) :=
  silent_plain hkeys <| plain_of_names ["savedCampaignLimit", "activeLimit", "maxLocalWorkers",
    "maxBrowserConcurrency", "maxTotalConcurrency", "maxTotalRps", "launchGapMs", "launchSpreadMs",
    "sharedOrchestratorEnabled", "sharedWorkerProcesses", "sharedWorkerSlots",
    "minimumAvailableMemoryRatio", "maximumNormalizedLoad", "targetCpuPercent",
    "minimumFreeDiskRatio", "plannedCampaignMemoryBytes", "plannedCampaignCpuPercent"] rfl
    (by decide) (by simp [Readings.limitFields])

theorem silent_workload (hqueued : "queuedCampaigns" ∉ keys) :
    Silent keys (.object r.workloadFields) := by
  refine silent_own ["queuedCampaigns"] ["savedCampaigns", "activeCampaigns",
    "queuedCampaigns", "errorCampaigns", "lockedGatewayPorts", "activeEvidenceBytes",
    "evidenceFilesVisited", "evidenceScanTruncated", "resourceAdmissionAllowed",
    "resourceAdmissionReasons", "resourceAdmissionBlocks"] rfl hkeys (by decide)
    (List.forall_mem_singleton.mpr hqueued) ?_
  exact silent_but (silent_texts r.admission.reasons) (by simp [Readings.workloadFields])

theorem silent_capacity : Silent keys (.object r.capacityFields) := by
  refine silent_names ["hardActiveCeiling", "safeActiveNow", "safeAdditionalCampaigns",
    "additionalByMemory", "additionalByCpu", "limitHeadroom", "recommendations"] rfl hkeys
    (by decide) ?_
  exact silent_but (silent_texts r.recommendations) (by simp [Readings.capacityFields])

/-- A worker's statistics are plain. -/
theorem silent_workerRow (worker : SharedWorker) : Silent keys (workerRow worker) :=
  silent_plain hkeys <| plain_spread (plain_of_names ["id", "pid", "activeTasks", "ready"] rfl
    (by decide) (by simp)) worker.stats.plain

theorem silent_workerPool : Silent keys (.object (workerPool r)) := by
  refine silent_names ["enabled", "configuredProcesses", "slotsPerProcess", "taskCapacity",
    "liveProcesses", "activeTasks", "browserInstances", "activeBrowserContexts", "workers"] rfl hkeys
    (by decide) ?_
  have hrows : Silent keys (.array (r.workers.map workerRow)) := silent_array fun row hrow => by
    obtain ⟨worker, -, rfl⟩ := List.mem_map.mp hrow
    exact silent_workerRow hkeys worker
  exact silent_but hrows (by simp [workerPool])

theorem silent_routing : Silent keys (.object r.routingFields) := by
  refine silent_names ["since", "preflightAttempts", "redirectFirstCaptures", "browserFallbacks",
    "cachedFallbacks", "fallbackReasons"] rfl hkeys (by decide) ?_
  have hreasons : Silent keys (.array r.fallbackReasons) := silent_array fun row hrow => by
    obtain ⟨entry, -, rfl⟩ := List.mem_map.mp hrow
    exact silent_plain hkeys <| plain_of_names ["reason", "count"] rfl (by decide) (by simp)
  exact silent_but hreasons (by simp [Readings.routingFields])

theorem silent_planning : Silent keys (.object r.planningFields) :=
  silent_plain hkeys <| plain_of_names ["browserRequiredCampaignTarget", "recommendedVcpu",
    "effectiveVcpu", "vcpuReady"] rfl (by decide) (by simp [Readings.planningFields])

/-- A run's route decision is plain. -/
theorem silent_campaignRow (run : ActiveRun) : Silent keys (campaignRow r run) := by
  refine silent_names ["campaignRecordId", "campaignNumber", "campaignName", "runId", "status",
    "tier", "pid", "startedAt", "runtimeMs", "proxyPort", "targetHost", "executionMode", "workerId",
    "routeDecision", "plannedCpuPercent", "plannedMemoryBytes", "evidenceBytes"] rfl hkeys
    (by decide) ?_
  have hdecision : Silent keys
      (run.lastRouteDecision.elim .null fun decision => .object decision.fields) := by
    cases run.lastRouteDecision with
    | none => exact silent_atom rfl
    | some decision => exact silent_plain hkeys decision.plain
  exact silent_but hdecision (by simp)

end Parts

/-! ## What is found in a snapshot -/

/-- The names of `hostNames` that a snapshot has. -/
def ownNames : List String := ["postgresHealthy", "redisHealthy", "cpuPercent", "queuedCampaigns"]

def sectionNames : List String :=
  ["version", "generatedAt", "state", "host", "load", "process", "infrastructure", "services",
    "limits", "workload", "capacity", "workerPool", "routing", "planning", "campaigns"]

section Found

variable {keys : List String} (r : Readings)

theorem silent_campaigns (hkeys : keys ⊆ hostNames) :
    Silent keys (.array (r.active.map (campaignRow r))) := silent_array fun row hrow => by
  obtain ⟨run, -, rfl⟩ := List.mem_map.mp hrow
  exact silent_campaignRow hkeys r run

/-- A search for other names finds nothing. -/
theorem silent_snapshot (hkeys : keys ⊆ hostNames) (hown : ∀ name ∈ ownNames, name ∉ keys) :
    Silent keys (capacitySnapshot r) := by
  have hcpu := hown "cpuPercent" (by decide)
  have hqueued := hown "queuedCampaigns" (by decide)
  have hpostgres := hown "postgresHealthy" (by decide)
  have hredis := hown "redisHealthy" (by decide)
  refine silent_names sectionNames rfl hkeys (by decide) ?_
  simp only [List.map_cons, List.map_nil, List.forall_mem_cons]
  exact ⟨silent_atom rfl, silent_atom rfl, silent_atom rfl, silent_host hkeys r,
    silent_load hkeys r, silent_process hkeys r hcpu, silent_infrastructure hkeys r,
    silent_services hkeys r hpostgres hredis, silent_limits hkeys r, silent_workload hkeys r hqueued,
    silent_capacity hkeys r, silent_workerPool hkeys r, silent_routing hkeys r,
    silent_planning hkeys r, silent_campaigns r hkeys, fun _ h => (List.not_mem_nil h).elim⟩

theorem findNumber_silent {value : JsValue} (h : Silent keys value) : findNumber value keys = none := by
  unfold findNumber findValue
  rw [h 7]
  rfl

theorem findBoolean_silent {value : JsValue} (h : Silent keys value) :
    findBoolean value keys = none := by
  unfold findBoolean findValue
  rw [h 7]
  rfl

/-- The share found is that of the control process. -/
theorem findNumber_cpu :
    findNumber (capacitySnapshot r) ["cpuPercent", "cpuUsagePercent", "hostCpuPercent"] =
      some r.controlCpu := by
  have hkeys : ["cpuPercent", "cpuUsagePercent", "hostCpuPercent"] ⊆ hostNames := by decide
  have hfound : findValue (capacitySnapshot r) ["cpuPercent", "cpuUsagePercent", "hostCpuPercent"] =
      numberValue r.controlCpu := by
    refine (findValueIn_object sectionNames rfl (by decide)).trans ?_
    refine firstDefined_found [.ofNat 1, numberValue r.generatedAt, .string r.state,
      .object r.hostFields, .object r.loadFields] ?_ (by rfl) nofun
    simp only [List.forall_mem_cons]
    exact ⟨silent_atom rfl, silent_atom rfl, silent_atom rfl, silent_host hkeys r,
      silent_load hkeys r, fun _ h => (List.not_mem_nil h).elim⟩
  unfold findNumber
  rw [hfound]
  rfl

/-- The host's alerts of a snapshot: one, by the share of the control process. -/
theorem capacityCandidates_snapshot :
    capacityCandidates (capacitySnapshot r) =
      if 95 ≤ r.controlCpu then [cpuCandidate r.controlCpu] else [] := by
  have hnone (keys : List String) (hkeys : keys ⊆ hostNames) (hown : ∀ name ∈ ownNames, name ∉ keys) :
      findNumber (capacitySnapshot r) keys = none :=
    findNumber_silent (silent_snapshot r hkeys hown)
  unfold capacityCandidates
  dsimp only
  rw [findNumber_cpu, hnone ["memoryPercent", "memoryUsedPercent", "hostMemoryPercent"]
    (by decide) (by decide), hnone ["diskFreePercent", "freeDiskPercent"] (by decide) (by decide),
    hnone ["activeWorkers", "browserWorkersActive"] (by decide) (by decide)]
  unfold candidateIf
  by_cases hcpu : 95 ≤ r.controlCpu
  · rw [if_pos hcpu, Option.filter_some, if_pos (decide_eq_true hcpu)]
    rfl
  · rw [if_neg hcpu, Option.filter_some, if_neg (by simpa using hcpu)]
    rfl

end Found

/-! ## Alerts by the snapshot -/

/-- The number at a path of names. -/
def numberAt (value : JsValue) (names : List String) : Option Rat :=
  match names.foldl JsValue.get value with
  | .number number => finite? number
  | _ => none

/-- The alerts of the host are raised exactly by the numbers that the snapshot gives for them. -/
structure FollowsSnapshot (raised : List String) (snapshot : JsValue) : Prop where
  cpu : "capacity:cpu-sustained" ∈ raised ↔
    (numberAt snapshot ["load", "systemCpuPercent"]).any (95 ≤ ·)
  memory : "capacity:memory-sustained" ∈ raised ↔
    (numberAt snapshot ["load", "memoryUsedRatio"]).any (92 / 100 ≤ ·)
  disk : (numberAt snapshot ["load", "disk", "totalBytes"]).any (0 < ·) →
    ("capacity:disk-low" ∈ raised ↔
      (numberAt snapshot ["load", "disk", "availableRatio"]).any (· ≤ 8 / 100))
  pool : "capacity:browser-pool-saturated" ∈ raised ↔
    ∃ active ceiling queued, numberAt snapshot ["workload", "activeCampaigns"] = some active ∧
      numberAt snapshot ["capacity", "hardActiveCeiling"] = some ceiling ∧
      numberAt snapshot ["workload", "queuedCampaigns"] = some queued ∧
      0 < ceiling ∧ ceiling ≤ active ∧ 0 < queued
  leader : "system:leader-unhealthy" ∈ raised ↔
    (["services", "leader"].foldl JsValue.get snapshot).isBool false

/-- The control process is as busy as its host, and nothing else of the host is short. -/
structure HostQuiet (r : Readings) : Prop where
  cpu : 95 ≤ r.controlCpu ↔ r.systemCpu.any (95 ≤ ·)
  memory : r.memoryUsedRatio < 92 / 100
  disk : 0 < r.disk.totalBytes → 8 / 100 < r.disk.availableRatio
  pool : ¬(0 < r.hardCeiling ∧ r.hardCeiling ≤ r.activeCount ∧ 0 < r.queuedCount)
  leader : r.health.leader = true

section Follows

variable {clock : Clock} {sources : Sources} (r : Readings)

theorem numberAt_systemCpu :
    numberAt (capacitySnapshot r) ["load", "systemCpuPercent"] = r.systemCpu := by
  have hvalue : ["load", "systemCpuPercent"].foldl JsValue.get (capacitySnapshot r) =
      r.systemCpu.elim .null numberValue := rfl
  unfold numberAt
  rw [hvalue]
  cases r.systemCpu <;> rfl

/-- The fingerprints of a snapshot's host alerts. -/
theorem raised_snapshot {fingerprint : String} (h : family fingerprint = "capacity".toList) :
    fingerprint ∈ (evaluation clock (sources.withCapacity (capacitySnapshot r))).fingerprints ↔
      95 ≤ r.controlCpu ∧ fingerprint = "capacity:cpu-sustained" := by
  have hvalue : (sources.withCapacity (capacitySnapshot r)).capacityValue = capacitySnapshot r := rfl
  rw [raised_capacity h, hvalue, capacityCandidates_snapshot]
  by_cases hcpu : 95 ≤ r.controlCpu
  · rw [if_pos hcpu, List.map_cons, List.map_nil, List.mem_singleton]
    exact (and_iff_right hcpu).symm
  · rw [if_neg hcpu]
    exact iff_of_false List.not_mem_nil fun h => hcpu h.1

theorem not_raised_snapshot {fingerprint : String} (h : family fingerprint = "capacity".toList)
    (hcpu : fingerprint ≠ "capacity:cpu-sustained") :
    fingerprint ∉ (evaluation clock (sources.withCapacity (capacitySnapshot r))).fingerprints :=
  fun hmem => hcpu ((raised_snapshot r h).mp hmem).2

/-- No snapshot has the name that the leader is looked for under. -/
theorem leader_not_raised : "system:leader-unhealthy" ∉
    (evaluation clock (sources.withCapacity (capacitySnapshot r))).fingerprints := by
  have hleader : findBoolean (capacitySnapshot r) ["leaderHealthy", "leaderActive", "isLeader"] =
      none := findBoolean_silent (silent_snapshot r (by decide) (by decide))
  have hvalue : (sources.withCapacity (capacitySnapshot r)).capacityValue = capacitySnapshot r := rfl
  rw [raised_system (by decide)]
  intro hmem
  obtain ⟨candidate, hcandidate, heq⟩ := List.mem_map.mp hmem
  unfold systemCandidates dependencyCandidates at hcandidate
  rw [hvalue, hleader] at hcandidate
  simp only [List.mem_append, List.mem_ite_nil_right, List.mem_singleton, reduceCtorEq, false_and,
    or_false] at hcandidate
  rcases hcandidate with (h | ⟨-, rfl⟩) | ⟨-, rfl⟩ | ⟨-, rfl⟩
  · cases h
  · exact absurd heq (by decide)
  · exact absurd heq (by decide)
  · exact absurd heq (by decide)

/-- The alerts of the host follow a snapshot exactly where the control process is as busy as its
host and nothing else of the host is short. -/
theorem hostAlerts_follow_iff (clock : Clock) (sources : Sources) :
    FollowsSnapshot
        (evaluation clock (sources.withCapacity (capacitySnapshot r))).fingerprints
        (capacitySnapshot r) ↔
      HostQuiet r := by
  have hcpu : "capacity:cpu-sustained" ∈
      (evaluation clock (sources.withCapacity (capacitySnapshot r))).fingerprints ↔
        95 ≤ r.controlCpu := (raised_snapshot r (by decide)).trans (and_iff_left rfl)
  have hmemory : "capacity:memory-sustained" ∉
      (evaluation clock (sources.withCapacity (capacitySnapshot r))).fingerprints :=
    not_raised_snapshot r (by decide) (by decide)
  have hdisk : "capacity:disk-low" ∉
      (evaluation clock (sources.withCapacity (capacitySnapshot r))).fingerprints :=
    not_raised_snapshot r (by decide) (by decide)
  have hpool : "capacity:browser-pool-saturated" ∉
      (evaluation clock (sources.withCapacity (capacitySnapshot r))).fingerprints :=
    not_raised_snapshot r (by decide) (by decide)
  constructor
  · intro h
    refine ⟨?_, ?_, ?_, ?_, ?_⟩
    · rw [← hcpu, h.cpu, numberAt_systemCpu]
    · exact not_le.mp fun hle => hmemory (h.memory.mpr (decide_eq_true hle))
    · exact fun hsize => not_le.mp fun hle =>
        hdisk ((h.disk (decide_eq_true hsize)).mpr (decide_eq_true hle))
    · rintro ⟨hceiling, hreached, hqueued⟩
      exact hpool (h.pool.mpr ⟨r.activeCount, r.hardCeiling, r.queuedCount, rfl, rfl, rfl, hceiling,
        hreached, Nat.cast_pos.mpr hqueued⟩)
    · cases hvalue : r.health.leader with
      | true => rfl
      | false =>
        refine absurd (h.leader.mpr ?_) (leader_not_raised r)
        exact decide_eq_true hvalue
  · intro h
    refine ⟨?_, ?_, ?_, ?_, ?_⟩
    · rw [hcpu, h.cpu, numberAt_systemCpu]
    · exact iff_of_false hmemory fun hle => not_le.mpr h.memory (of_decide_eq_true hle)
    · exact fun hsize => iff_of_false hdisk fun hle =>
        not_le.mpr (h.disk (of_decide_eq_true hsize)) (of_decide_eq_true hle)
    · refine iff_of_false hpool ?_
      rintro ⟨active, ceiling, queued, hactive, hceiling, hqueued, hpos, hreached, hwaiting⟩
      obtain rfl : r.activeCount = active := Option.some.inj hactive
      obtain rfl : r.hardCeiling = ceiling := Option.some.inj hceiling
      obtain rfl : (r.queuedCount : Rat) = queued := Option.some.inj hqueued
      exact h.pool ⟨hpos, hreached, Nat.cast_pos.mp hwaiting⟩
    · refine iff_of_false (leader_not_raised r) fun hfalse => ?_
      have hvalue : r.health.leader = false := of_decide_eq_true hfalse
      rw [h.leader] at hvalue
      cases hvalue

end Follows

/-! ## A busy host -/

/-- A host at 97% whose control process takes 3% of it, short of memory and of disk space. -/
def busyHost : Readings where
  generatedAt := 0
  host := ⟨"host", "linux", "x64", "v22", 1000, 4, 4, "cpu"⟩
  systemCpu := some 97
  controlCpu := 3
  oneMinuteLoad := 1
  memory := ⟨100, 5, "host"⟩
  disk := ⟨100, 4⟩
  process := ⟨1, 0, 0, 0, 0, 1000⟩
  infrastructure := none
  distributed := true
  health := ⟨true, true, false⟩
  proxy := none
  limits :=
    { activeLimit := 500
      maxLocalWorkers := 100
      maxBrowserConcurrency := 8
      maxTotalConcurrency := 64
      maxTotalRps := 500
      launchGapMs := 580
      launchSpreadMs := 58000
      sharedOrchestratorEnabled := true
      sharedWorkerProcesses := 4
      sharedWorkerSlots := 25
      minimumAvailableMemoryRatio := 15 / 100
      maximumNormalizedLoad := 85 / 100
      targetCpuPercent := 75
      minimumFreeDiskRatio := 15 / 100
      estimatedCampaignMemoryBytes := 512
      estimatedCampaignCpuPercent := 35
      estimatedSharedTaskMemoryBytes := 96
      estimatedSharedTaskCpuPercent := 6
      recommendedVcpu := 8 }
  campaigns := []
  lockedPorts := 0
  storage := ⟨fun _ => 0, 0, 0, false⟩
  resourceAdmissionBlocks := 0
  workers := [⟨"shared-01", some 7, 0, true, poolStats .initial (browserPoolStats 1 0 0 0 60000) 0⟩]
  assignedTasks := 0
  telemetry := ⟨0, 0, 0, 0, 0, []⟩
  active := []

/-- Neither its CPU nor its memory nor its disk nor its missing leader raises an alert. -/
theorem busy_host_unreported :
    ¬FollowsSnapshot (evaluation (plainClock 0) ((registrySources []).withCapacity
      (capacitySnapshot busyHost))).fingerprints (capacitySnapshot busyHost) := by
  intro h
  have hbusy : (numberAt (capacitySnapshot busyHost) ["load", "systemCpuPercent"]).any (95 ≤ ·) := by
    rw [numberAt_systemCpu]
    decide
  have hraised := ((raised_snapshot busyHost (by decide)).mp (h.cpu.mpr hbusy)).1
  exact absurd hraised (by decide)

end LinkSuffix.Health
