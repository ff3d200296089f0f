import LinkSuffix.Js.Value
import Mathlib.Algebra.Order.Floor.Semiring
import Mathlib.Data.Rat.Floor
import Mathlib.Order.Bounds.Basic
import Mathlib.Tactic.FieldSimp
import Mathlib.Tactic.Linarith
import Mathlib.Tactic.Positivity

/-!
# The capacity planner

`planCapacity` of `capacity-planner.ts`, in exact arithmetic. The plan has flags, computed from the
inputs, and a list of checks, computed beside them.

* `CapacityInputs`, `validateInput`, `planCapacity`: the code.
* `valid_iff`: the inputs that are accepted.
* **`verdict_iff`**: the two verdicts are what the checks say.
* **`recommended_least_iff`**: the recommended shard count is the least one that suits, exactly when
  one shard fewer than the campaigns need would be filled past the target.
* `recommended_too_few`: campaigns captured rarely, for which one shard is recommended.
-/

namespace LinkSuffix.CapacityPlanner

/-! ## The inputs -/

/-- `TunnelMode`. -/
inductive TunnelMode where
  | none
  | quick
  | named
  deriving DecidableEq

/-- `CapacityInputs`, with the values of `DEFAULT_CAPACITY_INPUT`. -/
structure CapacityInputs where
  campaigns : ℚ := 500
  savedCampaignLimit : ℚ := 5000
  activeCampaignLimit : ℚ := 500
  browserWorkers : ℚ := 8
  dedicatedGatewayPorts : ℚ := 104
  campaignsPerShard : ℚ := 40
  configuredShardCount : Option ℚ := none
  maxAccountsPerScript : ℚ := 50
  maxConcurrentShardScripts : ℚ := 30
  captureIntervalSeconds : ℚ := 58
  fleetPollSeconds : ℚ := 50
  fleetActiveSecondsPerHour : ℚ := 56 * 60
  targetMaxUtilization : ℚ := 65 / 100
  averagePageMegabytes : ℚ := 5
  networkOverheadRatio : ℚ := 3 / 10
  measuredBrowserMemoryMb : Option ℚ := none
  availableMemoryMb : Option ℚ := none
  availableNetworkMbps : Option ℚ := none
  measuredDatabaseWritesPerSecond : Option ℚ := none
  tunnelMode : TunnelMode := .none
  soakTestHours : ℚ := 0
  requiredSoakTestHours : ℚ := 72

/-- A positive safe integer. -/
structure PositiveInteger (value : ℚ) : Prop where
  whole : value.den = 1
  positive : 0 < value
  safe : value ≤ 2 ^ 53 - 1

instance (value : ℚ) : Decidable (PositiveInteger value) :=
  decidable_of_iff (value.den = 1 ∧ 0 < value ∧ value ≤ 2 ^ 53 - 1)
    ⟨fun h => ⟨h.1, h.2.1, h.2.2⟩, fun h => ⟨h.whole, h.positive, h.safe⟩⟩

/-- `requirePositiveInteger`. -/
def requirePositiveInteger (name : String) (value : ℚ) : Except String Unit :=
  if PositiveInteger value then .ok () else .error (name ++ " must be a positive integer")

/-- `requireNonNegativeNumber`. -/
def requireNonNegativeNumber (name : String) (value : ℚ) : Except String Unit :=
  if 0 ≤ value then .ok () else .error (name ++ " must be a finite non-negative number")

/-- `requireOptionalPositiveNumber`. -/
def requireOptionalPositiveNumber (name : String) (value : Option ℚ) : Except String Unit :=
  if ∀ v ∈ value, 0 < v then .ok ()
  else .error (name ++ " must be a finite positive number when supplied")

/-- `throw new RangeError(message)` unless the test holds. -/
def requireThat (test : Prop) [Decidable test] (message : String) : Except String Unit :=
  if test then .ok () else .error message

namespace CapacityInputs

variable (input : CapacityInputs)

/-- `baseShardCount`. -/
def baseShardCount : ℚ := (input.campaigns / input.campaignsPerShard).ceil

/-- `input.configuredShardCount`. -/
def configured : ℚ := input.configuredShardCount.getD input.baseShardCount

/-- `validateInput`. -/
def validateInput : Except String Unit := do
  requirePositiveInteger "campaigns" input.campaigns
  requirePositiveInteger "savedCampaignLimit" input.savedCampaignLimit
  requirePositiveInteger "activeCampaignLimit" input.activeCampaignLimit
  requirePositiveInteger "browserWorkers" input.browserWorkers
  requirePositiveInteger "dedicatedGatewayPorts" input.dedicatedGatewayPorts
  requirePositiveInteger "campaignsPerShard" input.campaignsPerShard
  requirePositiveInteger "configuredShardCount" input.configured
  requirePositiveInteger "maxAccountsPerScript" input.maxAccountsPerScript
  requirePositiveInteger "maxConcurrentShardScripts" input.maxConcurrentShardScripts
  requirePositiveInteger "captureIntervalSeconds" input.captureIntervalSeconds
  requirePositiveInteger "fleetPollSeconds" input.fleetPollSeconds
  requirePositiveInteger "fleetActiveSecondsPerHour" input.fleetActiveSecondsPerHour
  requireNonNegativeNumber "averagePageMegabytes" input.averagePageMegabytes
  requireNonNegativeNumber "networkOverheadRatio" input.networkOverheadRatio
  requireNonNegativeNumber "soakTestHours" input.soakTestHours
  requirePositiveInteger "requiredSoakTestHours" input.requiredSoakTestHours
  requireOptionalPositiveNumber "measuredBrowserMemoryMb" input.measuredBrowserMemoryMb
  requireOptionalPositiveNumber "availableMemoryMb" input.availableMemoryMb
  requireOptionalPositiveNumber "availableNetworkMbps" input.availableNetworkMbps
  requireOptionalPositiveNumber "measuredDatabaseWritesPerSecond"
    input.measuredDatabaseWritesPerSecond
  requireThat (input.fleetActiveSecondsPerHour ≤ 3600)
    "fleetActiveSecondsPerHour cannot exceed 3600"
  requireThat (0 < input.targetMaxUtilization ∧ input.targetMaxUtilization < 1)
    "targetMaxUtilization must be greater than 0 and less than 1"

/-! ## What is computed from them -/

def requestedConcurrentCampaigns : ℚ := min input.campaigns input.activeCampaignLimit

def admittedConcurrentCampaigns : ℚ :=
  min input.requestedConcurrentCampaigns (min input.browserWorkers input.dedicatedGatewayPorts)

def trueParallelReady : Bool :=
  input.requestedConcurrentCampaigns = input.campaigns &&
    input.admittedConcurrentCampaigns = input.campaigns

def dutyCycle : ℚ := input.fleetActiveSecondsPerHour / 3600

def arrivalRatePerSecond : ℚ := input.campaigns / input.captureIntervalSeconds

def rawServiceRatePerSecond : ℚ :=
  input.configured * input.campaignsPerShard / input.fleetPollSeconds

def effectiveServiceRatePerSecond : ℚ := input.rawServiceRatePerSecond * input.dutyCycle

def utilization : ℚ := input.arrivalRatePerSecond / input.effectiveServiceRatePerSecond

def reserveMargin : ℚ :=
  (input.effectiveServiceRatePerSecond - input.arrivalRatePerSecond) / input.arrivalRatePerSecond

def effectiveRatePerShard : ℚ :=
  input.campaignsPerShard / input.fleetPollSeconds * input.dutyCycle

def recommendedShardCount : ℚ :=
  (input.arrivalRatePerSecond / (input.effectiveRatePerShard * input.targetMaxUtilization)).ceil

def recommendedCampaignsPerShard : ℚ := (input.campaigns / input.recommendedShardCount).ceil

def googleFanoutReady : Bool := input.campaignsPerShard ≤ input.maxAccountsPerScript

def shardExecutionQuotaReady : Bool :=
  input.configured ≤ input.maxConcurrentShardScripts &&
    input.recommendedShardCount ≤ input.maxConcurrentShardScripts

def stableForNewestValue : Bool :=
  input.baseShardCount ≤ input.configured && input.utilization < 1 && input.googleFanoutReady

def safetyHeadroomReady : Bool :=
  input.recommendedShardCount ≤ input.configured &&
    input.utilization ≤ input.targetMaxUtilization && input.googleFanoutReady &&
    input.shardExecutionQuotaReady

def everyCaptureMathematicallyPossible : Bool :=
  input.fleetActiveSecondsPerHour = 3600 && input.safetyHeadroomReady

def estimatedNetworkMbps : ℚ :=
  input.arrivalRatePerSecond * input.averagePageMegabytes * 8 * (1 + input.networkOverheadRatio)

def requiredDatabaseWritesPerSecond : ℚ :=
  input.arrivalRatePerSecond * 3 / input.targetMaxUtilization

def estimatedMemoryMb : Option ℚ := input.measuredBrowserMemoryMb.map (· * input.campaigns)

def memoryMeasuredAndReady : Bool :=
  input.estimatedMemoryMb.any fun estimated => input.availableMemoryMb.any (estimated ≤ ·)

def networkMeasuredAndReady : Bool :=
  input.availableNetworkMbps.any (input.estimatedNetworkMbps ≤ ·)

def databaseMeasuredAndReady : Bool :=
  input.measuredDatabaseWritesPerSecond.any (input.requiredDatabaseWritesPerSecond ≤ ·)

def namedTunnelReady : Bool := input.tunnelMode = .named

def soakReady : Bool := input.requiredSoakTestHours ≤ input.soakTestHours

def managedQueueReady : Bool :=
  input.campaigns ≤ input.savedCampaignLimit && input.stableForNewestValue

def infrastructureMeasuredAndReady : Bool :=
  input.memoryMeasuredAndReady && input.networkMeasuredAndReady &&
    input.databaseMeasuredAndReady && input.namedTunnelReady && input.soakReady

def productionReadyForLatestValue : Bool :=
  input.managedQueueReady && input.trueParallelReady && input.safetyHeadroomReady &&
    input.infrastructureMeasuredAndReady

def productionReadyForEveryCapture : Bool :=
  input.productionReadyForLatestValue && input.everyCaptureMathematicallyPossible

def workerShortfall : ℚ := max 0 (input.campaigns - input.browserWorkers)

def gatewayPortShortfall : ℚ := max 0 (input.campaigns - input.dedicatedGatewayPorts)

end CapacityInputs

/-! ## The plan -/

/-- `CapacityCheckStatus`. -/
inductive CapacityCheckStatus where
  | pass
  | warn
  | fail
  deriving DecidableEq

/-- `CapacityCheck`. -/
structure CapacityCheck where
  id : String
  label : String
  status : CapacityCheckStatus
  detail : String
  deriving DecidableEq

/-- `ready ? "pass" : "fail"`. -/
def passOr (otherwise : CapacityCheckStatus) (ready : Bool) : CapacityCheckStatus :=
  if ready then .pass else otherwise

/-- `rounded`: `Math.round` rounds a half up. -/
def rounded (value : ℚ) (precision : Nat) : ℚ :=
  (value * 10 ^ precision + 1 / 2).floor / 10 ^ precision

/-- A number in a template. -/
def text (value : ℚ) : String := (JsNumber.finite value).toText

section Checks

variable (input : CapacityInputs)

/-- `checks`. -/
def capacityChecks : List CapacityCheck :=
  [⟨"saved-capacity", "Saved campaign capacity",
      passOr .fail (input.campaigns ≤ input.savedCampaignLimit),
      text input.campaigns ++ " requested of " ++ text input.savedCampaignLimit ++
        " available slots."⟩,
    ⟨"active-limit", "Configured active limit",
      passOr .fail (input.campaigns ≤ input.activeCampaignLimit),
      text input.activeCampaignLimit ++ " active slots configured for " ++
        text input.campaigns ++ " campaigns."⟩,
    ⟨"browser-workers", "Browser worker capacity",
      passOr .fail (input.workerShortfall = 0),
      if input.workerShortfall = 0 then
        text input.browserWorkers ++ " workers cover all campaigns."
      else text input.workerShortfall ++
        " additional isolated browser workers are required for true parallel operation."⟩,
    ⟨"gateway-ports", "Dedicated proxy gateway ports",
      passOr .fail (input.gatewayPortShortfall = 0),
      if input.gatewayPortShortfall = 0 then
        text input.dedicatedGatewayPorts ++ " dedicated ports cover all campaigns."
      else text input.gatewayPortShortfall ++
        " additional dedicated ports are required by the one-port-per-running-campaign lock."⟩,
    ⟨"fleet-stability", "Fleet newest-value stability", passOr .fail input.stableForNewestValue,
      if input.stableForNewestValue then
        "Effective capacity " ++ text (rounded input.effectiveServiceRatePerSecond 4) ++
          " updates/s exceeds arrival " ++ text (rounded input.arrivalRatePerSecond 4) ++
          " updates/s."
      else "Effective capacity " ++ text (rounded input.effectiveServiceRatePerSecond 4) ++
          " updates/s does not safely cover arrival " ++
          text (rounded input.arrivalRatePerSecond 4) ++ " updates/s."⟩,
    ⟨"fleet-headroom", "Fleet safety headroom",
      passOr (if input.stableForNewestValue then .warn else .fail) input.safetyHeadroomReady,
      text input.configured ++ " shards configured; " ++ text input.recommendedShardCount ++
        " are required to hold utilization at or below " ++
        text (rounded (input.targetMaxUtilization * 100) 1) ++ "%."⟩,
    ⟨"google-account-fanout", "Google account fan-out", passOr .fail input.googleFanoutReady,
      text input.campaignsPerShard ++ " worst-case child accounts per shard against a " ++
        text input.maxAccountsPerScript ++ "-account planning limit."⟩,
    ⟨"google-shard-executions", "Concurrent shard execution budget",
      passOr .fail input.shardExecutionQuotaReady,
      text input.recommendedShardCount ++ " recommended shard scripts against a " ++
        text input.maxConcurrentShardScripts ++ "-execution planning limit."⟩,
    ⟨"continuous-delivery", "Every-capture continuity",
      passOr .warn input.everyCaptureMathematicallyPossible,
      if input.everyCaptureMathematicallyPossible then
        "The capacity model has no planned hourly delivery gap."
      else text (3600 - input.fleetActiveSecondsPerHour) ++ " seconds per hour have no planned " ++
        "Fleet polling; newest-value delivery remains possible, but intermediate captures can " ++
        "be superseded."⟩,
    ⟨"public-ingress", "Stable public HTTPS ingress", passOr .fail input.namedTunnelReady,
      if input.namedTunnelReady then "A named production HTTPS endpoint is configured."
      else if input.tunnelMode = .quick then
        "A temporary Quick Tunnel is configured; its hostname and availability are not " ++
          "production-stable."
      else "No named production HTTPS endpoint is configured."⟩,
    ⟨"memory-proof", "Measured browser memory capacity",
      passOr .fail input.memoryMeasuredAndReady,
      if input.memoryMeasuredAndReady then
        text (rounded (input.estimatedMemoryMb.getD 0) 0) ++ " MB estimated against " ++
          text (rounded (input.availableMemoryMb.getD 0) 0) ++ " MB available."
      else "Per-browser memory and available production memory have not both been measured " ++
        "at target workload."⟩,
    ⟨"network-proof", "Measured network capacity", passOr .fail input.networkMeasuredAndReady,
      text (rounded input.estimatedNetworkMbps 1) ++ " Mbps estimated at " ++
        text input.averagePageMegabytes ++
        " MB per journey; measured available throughput is " ++
        (input.availableNetworkMbps.elim "not supplied" text) ++ " Mbps."⟩,
    ⟨"database-proof", "Measured database write capacity",
      passOr .fail input.databaseMeasuredAndReady,
      text (rounded input.requiredDatabaseWritesPerSecond 1) ++
        " writes/s required at the target utilization; measured capacity is " ++
        (input.measuredDatabaseWritesPerSecond.elim "not supplied" text) ++ " writes/s."⟩,
    ⟨"soak-proof", "Production soak evidence", passOr .fail input.soakReady,
      text input.soakTestHours ++ " of " ++ text input.requiredSoakTestHours ++
        " required hours completed at target load."⟩]

/-- `CapacityPlan`: the flags and numbers of an input, and the checks. -/
structure CapacityPlan where
  input : CapacityInputs
  recommendedShardCount : ℚ
  recommendedCampaignsPerShard : ℚ
  stableForNewestValue : Bool
  safetyHeadroomReady : Bool
  managedQueueReady : Bool
  productionReadyForLatestValue : Bool
  productionReadyForEveryCapture : Bool
  checks : List CapacityCheck

/-- `planCapacity`. -/
def planCapacity : Except String CapacityPlan := do
  input.validateInput
  return {
    input
    recommendedShardCount := input.recommendedShardCount
    recommendedCampaignsPerShard := input.recommendedCampaignsPerShard
    stableForNewestValue := input.stableForNewestValue
    safetyHeadroomReady := input.safetyHeadroomReady
    managedQueueReady := input.managedQueueReady
    productionReadyForLatestValue := input.productionReadyForLatestValue
    productionReadyForEveryCapture := input.productionReadyForEveryCapture
    checks := capacityChecks input }

end Checks

/-! ## The accepted inputs -/

/-- What `validateInput` asks for. -/
structure Valid (input : CapacityInputs) : Prop where
  campaigns : PositiveInteger input.campaigns
  savedCampaignLimit : PositiveInteger input.savedCampaignLimit
  activeCampaignLimit : PositiveInteger input.activeCampaignLimit
  browserWorkers : PositiveInteger input.browserWorkers
  dedicatedGatewayPorts : PositiveInteger input.dedicatedGatewayPorts
  campaignsPerShard : PositiveInteger input.campaignsPerShard
  configured : PositiveInteger input.configured
  maxAccountsPerScript : PositiveInteger input.maxAccountsPerScript
  maxConcurrentShardScripts : PositiveInteger input.maxConcurrentShardScripts
  captureIntervalSeconds : PositiveInteger input.captureIntervalSeconds
  fleetPollSeconds : PositiveInteger input.fleetPollSeconds
  fleetActiveSecondsPerHour : PositiveInteger input.fleetActiveSecondsPerHour
  averagePageMegabytes : 0 ≤ input.averagePageMegabytes
  networkOverheadRatio : 0 ≤ input.networkOverheadRatio
  soakTestHours : 0 ≤ input.soakTestHours
  requiredSoakTestHours : PositiveInteger input.requiredSoakTestHours
  measuredBrowserMemoryMb : ∀ v ∈ input.measuredBrowserMemoryMb, 0 < v
  availableMemoryMb : ∀ v ∈ input.availableMemoryMb, 0 < v
  availableNetworkMbps : ∀ v ∈ input.availableNetworkMbps, 0 < v
  measuredDatabaseWritesPerSecond : ∀ v ∈ input.measuredDatabaseWritesPerSecond, 0 < v
  active_le : input.fleetActiveSecondsPerHour ≤ 3600
  target : 0 < input.targetMaxUtilization ∧ input.targetMaxUtilization < 1

theorem bind_eq_ok {α : Type} {first : Except String Unit} {next : Unit → Except String α}
    {value : α} : (first >>= next) = .ok value ↔ first = .ok () ∧ next () = .ok value := by
  cases first with
  | error message =>
    refine ⟨fun h => ?_, fun h => absurd h.1 nofun⟩
    exact absurd (show Except.error message = Except.ok value from h) nofun
  | ok _ => exact (and_iff_right rfl).symm

theorem require_eq_ok {test : Prop} [Decidable test] {message : String} :
    (if test then Except.ok () else Except.error message : Except String Unit) = .ok () ↔ test := by
  split
  · rename_i h
    exact ⟨fun _ => h, fun _ => rfl⟩
  · rename_i h
    exact ⟨fun heq => absurd heq nofun, fun htest => absurd htest h⟩

/-- **The inputs that are accepted.** -/
theorem valid_iff {input : CapacityInputs} : input.validateInput = .ok () ↔ Valid input := by
  unfold CapacityInputs.validateInput
  simp only [bind_eq_ok, requirePositiveInteger, requireNonNegativeNumber,
    requireOptionalPositiveNumber, requireThat, require_eq_ok]
  constructor
  · rintro ⟨h1, h2, h3, h4, h5, h6, h7, h8, h9, h10, h11, h12, h13, h14, h15, h16, h17, h18, h19,
      h20, h21, h22⟩
    exact ⟨h1, h2, h3, h4, h5, h6, h7, h8, h9, h10, h11, h12, h13, h14, h15, h16, h17, h18, h19,
      h20, h21, h22⟩
  · rintro ⟨h1, h2, h3, h4, h5, h6, h7, h8, h9, h10, h11, h12, h13, h14, h15, h16, h17, h18, h19,
      h20, h21, h22⟩
    exact ⟨h1, h2, h3, h4, h5, h6, h7, h8, h9, h10, h11, h12, h13, h14, h15, h16, h17, h18, h19,
      h20, h21, h22⟩

/-- A plan reports what its input gives. -/
structure Reports (input : CapacityInputs) (plan : CapacityPlan) : Prop where
  recommended : plan.recommendedShardCount = input.recommendedShardCount
  perShard : plan.recommendedCampaignsPerShard = input.recommendedCampaignsPerShard
  stable : plan.stableForNewestValue = input.stableForNewestValue
  headroom : plan.safetyHeadroomReady = input.safetyHeadroomReady
  latest : plan.productionReadyForLatestValue = input.productionReadyForLatestValue
  every : plan.productionReadyForEveryCapture = input.productionReadyForEveryCapture
  checks : plan.checks = capacityChecks input

theorem plan_ok {input : CapacityInputs} {plan : CapacityPlan} (h : planCapacity input = .ok plan) :
    Valid input ∧ Reports input plan := by
  obtain ⟨hvalid, hplan⟩ := bind_eq_ok.mp h
  obtain rfl := Except.ok.inj hplan
  exact ⟨valid_iff.mp hvalid, rfl, rfl, rfl, rfl, rfl, rfl, rfl⟩

theorem plan_of_valid {input : CapacityInputs} (h : Valid input) :
    ∃ plan, planCapacity input = .ok plan :=
  ⟨_, bind_eq_ok.mpr ⟨valid_iff.mpr h, rfl⟩⟩

/-! ## The verdicts -/

theorem passOr_eq_pass {otherwise : CapacityCheckStatus} {ready : Bool} (h : otherwise ≠ .pass) :
    passOr otherwise ready = .pass ↔ ready = true := by
  unfold passOr
  split
  · rename_i hready
    exact ⟨fun _ => hready, fun _ => rfl⟩
  · rename_i hready
    exact ⟨fun heq => absurd heq h, fun htrue => absurd htrue hready⟩

theorem trueParallelReady_iff {input : CapacityInputs} : input.trueParallelReady = true ↔
    input.campaigns ≤ input.activeCampaignLimit ∧ input.campaigns ≤ input.browserWorkers ∧
      input.campaigns ≤ input.dedicatedGatewayPorts := by
  unfold CapacityInputs.trueParallelReady CapacityInputs.admittedConcurrentCampaigns
    CapacityInputs.requestedConcurrentCampaigns
  rw [Bool.and_eq_true, decide_eq_true_eq, decide_eq_true_eq, min_eq_left_iff]
  constructor
  · rintro ⟨hactive, hadmitted⟩
    rw [min_eq_left hactive, min_eq_left_iff, le_min_iff] at hadmitted
    exact ⟨hactive, hadmitted⟩
  · rintro ⟨hactive, hothers⟩
    rw [min_eq_left hactive, min_eq_left_iff, le_min_iff]
    exact ⟨hactive, hothers⟩

theorem shortfall_eq_zero {a b : ℚ} : max 0 (a - b) = 0 ↔ a ≤ b := by
  rw [max_eq_left_iff, sub_nonpos]

theorem safetyHeadroomReady_quota {input : CapacityInputs}
    (h : input.safetyHeadroomReady = true) :
    input.googleFanoutReady = true ∧ input.shardExecutionQuotaReady = true := by
  unfold CapacityInputs.safetyHeadroomReady at h
  simp only [Bool.and_eq_true] at h
  exact ⟨h.1.2, h.2⟩

/-- **The verdicts are what the checks say.** -/
theorem verdict_iff {input : CapacityInputs} {plan : CapacityPlan}
    (h : planCapacity input = .ok plan) :
    (plan.productionReadyForLatestValue = true ↔
      ∀ c ∈ plan.checks, c.id ≠ "continuous-delivery" → c.status = .pass) ∧
    (plan.productionReadyForEveryCapture = true ↔ ∀ c ∈ plan.checks, c.status = .pass) := by
  obtain ⟨-, hreports⟩ := plan_ok h
  rw [hreports.latest, hreports.every, hreports.checks]
  have hheadroom : (if input.stableForNewestValue then CapacityCheckStatus.warn else .fail) ≠
      .pass := by
    split
    · decide
    · decide
  have hfail : CapacityCheckStatus.fail ≠ .pass := by decide
  have hwarn : CapacityCheckStatus.warn ≠ .pass := by decide
  have hlatest : input.productionReadyForLatestValue = true ↔
      ∀ c ∈ capacityChecks input, c.id ≠ "continuous-delivery" → c.status = .pass := by
    unfold CapacityInputs.productionReadyForLatestValue CapacityInputs.managedQueueReady
      CapacityInputs.infrastructureMeasuredAndReady capacityChecks
    simp only [List.forall_mem_cons, passOr_eq_pass hfail, passOr_eq_pass hwarn,
      passOr_eq_pass hheadroom, Bool.and_eq_true, decide_eq_true_eq, trueParallelReady_iff,
      CapacityInputs.workerShortfall, CapacityInputs.gatewayPortShortfall, shortfall_eq_zero,
      ne_eq, String.reduceEq, not_false_eq_true, not_true_eq_false, forall_const,
      IsEmpty.forall_iff, true_and]
    constructor
    · rintro ⟨⟨⟨⟨hsaved, hstable⟩, hactive, hworkers, hports⟩, hheadroom⟩, ⟨⟨⟨hmemory, hnetwork⟩,
        hdatabase⟩, htunnel⟩, hsoak⟩
      obtain ⟨hfanout, hquota⟩ := safetyHeadroomReady_quota hheadroom
      exact ⟨hsaved, hactive, hworkers, hports, hstable, hheadroom, hfanout, hquota, htunnel,
        hmemory, hnetwork, hdatabase, hsoak, fun c hc => absurd hc List.not_mem_nil⟩
    · rintro ⟨hsaved, hactive, hworkers, hports, hstable, hheadroom, -, -, htunnel, hmemory,
        hnetwork, hdatabase, hsoak, -⟩
      exact ⟨⟨⟨⟨hsaved, hstable⟩, hactive, hworkers, hports⟩, hheadroom⟩, ⟨⟨⟨hmemory, hnetwork⟩,
        hdatabase⟩, htunnel⟩, hsoak⟩
  refine ⟨hlatest, ?_⟩
  have hevery : input.everyCaptureMathematicallyPossible = true ↔
      ∀ c ∈ capacityChecks input, c.id = "continuous-delivery" → c.status = .pass := by
    unfold capacityChecks
    simp only [List.forall_mem_cons, passOr_eq_pass hwarn, String.reduceEq, IsEmpty.forall_iff,
      forall_const, true_and]
    exact ⟨fun hevery => ⟨hevery, fun c hc => absurd hc List.not_mem_nil⟩, And.left⟩
  unfold CapacityInputs.productionReadyForEveryCapture
  rw [Bool.and_eq_true, hlatest, hevery]
  constructor
  · rintro ⟨hothers, hdelivery⟩ c hc
    by_cases hid : c.id = "continuous-delivery"
    · exact hdelivery c hc hid
    · exact hothers c hc hid
  · exact fun hall => ⟨fun c hc _ => hall c hc, fun c hc _ => hall c hc⟩

theorem verdict_iff_default : ∃ plan, planCapacity {} = .ok plan ∧
    (plan.productionReadyForLatestValue = true ↔
      ∀ c ∈ plan.checks, c.id ≠ "continuous-delivery" → c.status = .pass) ∧
    (plan.productionReadyForEveryCapture = true ↔ ∀ c ∈ plan.checks, c.status = .pass) := by
  obtain ⟨plan, hplan⟩ := plan_of_valid (valid_iff.mp (by decide +kernel :
    CapacityInputs.validateInput {} = .ok ()))
  exact ⟨plan, hplan, verdict_iff hplan⟩

/-! ## The recommended shard count -/

/-- Re-planning with a shard count gives a stable layout with headroom, and no shard gets more
campaigns than it may have. -/
def Suits (input : CapacityInputs) (shards : ℚ) : Prop :=
  ∃ plan, planCapacity { input with configuredShardCount := some shards } = .ok plan ∧
    plan.stableForNewestValue = true ∧ plan.safetyHeadroomReady = true ∧
    plan.recommendedCampaignsPerShard ≤ input.campaignsPerShard

/-- One shard fewer than the campaigns need would be filled past the target. -/
def TargetBinds (input : CapacityInputs) : Prop :=
  (((input.campaigns / input.campaignsPerShard).ceil : ℚ) - 1) *
    (input.campaignsPerShard * input.captureIntervalSeconds *
      (input.fleetActiveSecondsPerHour * input.targetMaxUtilization)) <
    input.campaigns * 3600 * input.fleetPollSeconds

section Recommended

variable {input : CapacityInputs}

theorem Valid.rate_pos (h : Valid input) :
    0 < input.effectiveRatePerShard * input.targetMaxUtilization := by
  have hshard := h.campaignsPerShard.positive
  have hpoll := h.fleetPollSeconds.positive
  have hactive := h.fleetActiveSecondsPerHour.positive
  have htarget := h.target.1
  unfold CapacityInputs.effectiveRatePerShard CapacityInputs.dutyCycle
  positivity

theorem Valid.arrival_pos (h : Valid input) : 0 < input.arrivalRatePerSecond := by
  have hcampaigns := h.campaigns.positive
  have hinterval := h.captureIntervalSeconds.positive
  unfold CapacityInputs.arrivalRatePerSecond
  positivity

theorem Valid.recommended_pos (h : Valid input) : 0 < input.recommendedShardCount := by
  have hrate : 0 < input.arrivalRatePerSecond /
      (input.effectiveRatePerShard * input.targetMaxUtilization) :=
    div_pos h.arrival_pos h.rate_pos
  exact hrate.trans_le Rat.le_ceil

/-- The recommended shards carry the arrivals at the target. -/
theorem Valid.arrival_le (h : Valid input) : input.arrivalRatePerSecond ≤
    input.recommendedShardCount *
      (input.effectiveRatePerShard * input.targetMaxUtilization) :=
  (div_le_iff₀ h.rate_pos).mp Rat.le_ceil

theorem base_le_recommended (h : Valid input) :
    input.baseShardCount ≤ input.recommendedShardCount ↔ TargetBinds input := by
  have hshard := h.campaignsPerShard.positive
  have hpoll := h.fleetPollSeconds.positive
  have hactive := h.fleetActiveSecondsPerHour.positive
  have hinterval := h.captureIntervalSeconds.positive
  have htarget := h.target.1
  have hload : input.arrivalRatePerSecond /
      (input.effectiveRatePerShard * input.targetMaxUtilization) =
      input.campaigns * 3600 * input.fleetPollSeconds /
        (input.campaignsPerShard * input.captureIntervalSeconds *
          (input.fleetActiveSecondsPerHour * input.targetMaxUtilization)) := by
    unfold CapacityInputs.arrivalRatePerSecond CapacityInputs.effectiveRatePerShard
      CapacityInputs.dutyCycle
    field_simp
  unfold CapacityInputs.baseShardCount CapacityInputs.recommendedShardCount TargetBinds
  rw [hload, Rat.intCast_le_intCast, ← Int.sub_one_lt_iff, Rat.lt_ceil_iff,
    lt_div_iff₀ (by positivity)]
  push_cast
  rfl

/-- An input with another shard count. -/
theorem Valid.replan (h : Valid input) {shards : ℚ} (hshards : PositiveInteger shards) :
    Valid { input with configuredShardCount := some shards } :=
  { h with configured := hshards }

/-- A shard count that suits is not below the recommended one, nor below the number of shards that
the campaigns need. -/
theorem Suits.le {shards : ℚ} (h : Suits input shards) :
    input.recommendedShardCount ≤ shards ∧ input.baseShardCount ≤ shards := by
  obtain ⟨plan, hplan, hstable, hheadroom, -⟩ := h
  obtain ⟨-, hreports⟩ := plan_ok hplan
  rw [hreports.stable] at hstable
  rw [hreports.headroom] at hheadroom
  unfold CapacityInputs.stableForNewestValue at hstable
  unfold CapacityInputs.safetyHeadroomReady at hheadroom
  simp only [Bool.and_eq_true, decide_eq_true_eq] at hstable hheadroom
  exact ⟨hheadroom.1.1.1, hstable.1.1⟩

theorem recommended_integer (h : Valid input)
    (hquota : input.recommendedShardCount ≤ input.maxConcurrentShardScripts) :
    PositiveInteger input.recommendedShardCount :=
  ⟨Rat.den_intCast _, h.recommended_pos, hquota.trans h.maxConcurrentShardScripts.safe⟩

/-- With the recommended shards, the utilization is at the target or below. -/
theorem utilization_recommended (h : Valid input) :
    CapacityInputs.utilization { input with
      configuredShardCount := some input.recommendedShardCount } ≤ input.targetMaxUtilization := by
  have hshard := h.campaignsPerShard.positive
  have hpoll := h.fleetPollSeconds.positive
  have hactive := h.fleetActiveSecondsPerHour.positive
  have hrecommended := h.recommended_pos
  have hle := h.arrival_le
  have hservice : CapacityInputs.effectiveServiceRatePerSecond { input with
      configuredShardCount := some input.recommendedShardCount } =
      input.recommendedShardCount * input.effectiveRatePerShard := by
    have hcycle : CapacityInputs.dutyCycle { input with
        configuredShardCount := some input.recommendedShardCount } = input.dutyCycle := rfl
    unfold CapacityInputs.effectiveServiceRatePerSecond CapacityInputs.rawServiceRatePerSecond
      CapacityInputs.effectiveRatePerShard CapacityInputs.configured
    rw [Option.getD_some, hcycle]
    ring
  have hrate : 0 < input.effectiveRatePerShard := by
    unfold CapacityInputs.effectiveRatePerShard CapacityInputs.dutyCycle
    positivity
  unfold CapacityInputs.utilization
  rw [hservice, div_le_iff₀ (mul_pos hrecommended hrate)]
  calc input.arrivalRatePerSecond
      ≤ input.recommendedShardCount *
          (input.effectiveRatePerShard * input.targetMaxUtilization) := hle
    _ = input.targetMaxUtilization *
          (input.recommendedShardCount * input.effectiveRatePerShard) := by ring

/-- Shards for all campaigns have no more campaigns each than they may have. -/
theorem perShard_le (h : Valid input)
    (hbase : input.baseShardCount ≤ input.recommendedShardCount) :
    input.recommendedCampaignsPerShard ≤ input.campaignsPerShard := by
  have hshard := h.campaignsPerShard.positive
  have hneeded : input.campaigns / input.campaignsPerShard ≤ input.recommendedShardCount :=
    Rat.le_ceil.trans hbase
  have hwhole : ((input.campaignsPerShard.num : ℤ) : ℚ) = input.campaignsPerShard :=
    Rat.coe_int_num_of_den_eq_one h.campaignsPerShard.whole
  unfold CapacityInputs.recommendedCampaignsPerShard
  rw [← hwhole, Rat.intCast_le_intCast, Rat.ceil_le_iff, hwhole,
    div_le_iff₀ h.recommended_pos, mul_comm]
  exact (div_le_iff₀ hshard).mp hneeded

theorem suits_recommended (h : Valid input) (hfanout : input.googleFanoutReady = true)
    (hquota : input.recommendedShardCount ≤ input.maxConcurrentShardScripts)
    (hbase : input.baseShardCount ≤ input.recommendedShardCount) :
    Suits input input.recommendedShardCount := by
  have hvalid := h.replan (recommended_integer h hquota)
  obtain ⟨plan, hplan⟩ := plan_of_valid hvalid
  obtain ⟨-, hreports⟩ := plan_ok hplan
  have hutilization := utilization_recommended h
  have hexecutions : CapacityInputs.shardExecutionQuotaReady { input with
      configuredShardCount := some input.recommendedShardCount } = true := by
    unfold CapacityInputs.shardExecutionQuotaReady
    rw [Bool.and_eq_true, decide_eq_true_eq, decide_eq_true_eq]
    exact ⟨hquota, hquota⟩
  refine ⟨plan, hplan, ?_, ?_, ?_⟩
  · rw [hreports.stable]
    unfold CapacityInputs.stableForNewestValue
    simp only [Bool.and_eq_true, decide_eq_true_eq]
    exact ⟨⟨hbase, hutilization.trans_lt h.target.2⟩, hfanout⟩
  · rw [hreports.headroom]
    unfold CapacityInputs.safetyHeadroomReady
    simp only [Bool.and_eq_true, decide_eq_true_eq]
    exact ⟨⟨⟨le_rfl, hutilization⟩, hfanout⟩, hexecutions⟩
  · have hsame : CapacityInputs.recommendedCampaignsPerShard { input with
        configuredShardCount := some input.recommendedShardCount } =
        input.recommendedCampaignsPerShard := rfl
    rw [hreports.perShard, hsame]
    exact perShard_le h hbase

/-- **The recommended shard count is the least one that suits exactly when the target binds.** -/
theorem recommended_least_iff {plan : CapacityPlan} (h : planCapacity input = .ok plan)
    (hfanout : input.campaignsPerShard ≤ input.maxAccountsPerScript)
    (hquota : plan.recommendedShardCount ≤ input.maxConcurrentShardScripts) :
    IsLeast { shards | Suits input shards } plan.recommendedShardCount ↔ TargetBinds input := by
  obtain ⟨hvalid, hreports⟩ := plan_ok h
  rw [hreports.recommended] at hquota ⊢
  rw [← base_le_recommended hvalid]
  constructor
  · exact fun hleast => hleast.1.le.2
  · exact fun hbase => ⟨suits_recommended hvalid (decide_eq_true hfanout) hquota hbase,
      fun shards hshards => hshards.le.1⟩

theorem recommended_least_iff_default : ∃ plan, planCapacity {} = .ok plan ∧
    (IsLeast { shards | Suits {} shards } plan.recommendedShardCount ↔ TargetBinds {}) := by
  obtain ⟨plan, hplan⟩ := plan_of_valid (valid_iff.mp (by decide +kernel :
    CapacityInputs.validateInput {} = .ok ()))
  refine ⟨plan, hplan, recommended_least_iff hplan (by decide +kernel) ?_⟩
  rw [(plan_ok hplan).2.recommended]
  decide +kernel

end Recommended

/-- 500 campaigns, captured once an hour, and a Fleet that polls every ten seconds. -/
def hourlyCaptures : CapacityInputs where
  captureIntervalSeconds := 3600
  fleetPollSeconds := 10

/-- **Campaigns that are captured rarely need shards all the same**: one shard is recommended for
500 campaigns, and re-planning with it is not even stable. -/
theorem recommended_too_few : ∃ plan, planCapacity hourlyCaptures = .ok plan ∧
    plan.recommendedShardCount = 1 ∧ plan.recommendedCampaignsPerShard = 500 ∧
    ¬Suits hourlyCaptures plan.recommendedShardCount := by
  obtain ⟨plan, hplan⟩ := plan_of_valid (valid_iff.mp (by decide +kernel :
    hourlyCaptures.validateInput = .ok ()))
  have hreports := (plan_ok hplan).2
  have hone : hourlyCaptures.recommendedShardCount = 1 := by decide +kernel
  refine ⟨plan, hplan, hreports.recommended.trans hone, ?_, fun hsuits => ?_⟩
  · rw [hreports.perShard]
    decide +kernel
  · rw [hreports.recommended] at hsuits
    exact absurd hsuits.le.2 (by decide +kernel)

end LinkSuffix.CapacityPlanner
