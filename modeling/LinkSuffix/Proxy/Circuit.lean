import LinkSuffix.Lib.Run
import LinkSuffix.Lib.Table

/-!
# The two circuit breakers of a proxy endpoint

`recordProxyCircuitResult` of the proxy package is the reference breaker. The runtime keeps the
same circuit in a row of `tah_proxy_circuit_states`, written by `report` and read by
`circuitBlocks`, with no step from open to half-open: the row stays `open` past its `retryAt`, and
two counters with their own resets stand for the recovery.

* `breakers`: both machines on the health reports of one endpoint.
* `Matches`: the simulation relation between the two states.
* **`breakers_agree_iff`**: they agree after every report and at every later time exactly when no
  failure is reported during a recovery (and `retryAt` reads back as it was written).
* **`relapse_not_blocked`**: a failure after the first recovery success leaves the runtime's circuit
  closed, while the reference opens it again.
-/

namespace LinkSuffix

open Lib

/-! ## The reference breaker -/

/-- `ProxyCircuitState['state']`, also the `state` column of `tah_proxy_circuit_states`. -/
inductive CircuitState where
  | closed | opened | halfOpen
  deriving DecidableEq

structure ProxyCircuitState where
  state : CircuitState
  consecutiveFailures : Nat
  halfOpenSuccesses : Nat
  openedAt : Option Nat := none
  openUntil : Option Nat := none
  deriving DecidableEq

structure ProxyCircuitConfig where
  failureThreshold : Nat
  openMs : Nat
  recoverySuccesses : Nat

/-- `DEFAULT_PROXY_CIRCUIT`. -/
def defaultProxyCircuit : ProxyCircuitConfig where
  failureThreshold := 5
  openMs := 60000
  recoverySuccesses := 2

def advanceProxyCircuit (state : ProxyCircuitState) (now : Nat) : ProxyCircuitState :=
  if state.state = .opened ∧ state.openUntil.getD 0 ≤ now then
    { state with state := .halfOpen, halfOpenSuccesses := 0 }
  else state

def recordProxyCircuitResult (config : ProxyCircuitConfig) (current : ProxyCircuitState)
    (success : Bool) (now : Nat) : ProxyCircuitState :=
  let state := advanceProxyCircuit current now
  if success then
    if state.state = .halfOpen then
      let halfOpenSuccesses := state.halfOpenSuccesses + 1
      if config.recoverySuccesses ≤ halfOpenSuccesses then
        { state := .closed, consecutiveFailures := 0, halfOpenSuccesses := 0 }
      else { state with halfOpenSuccesses := halfOpenSuccesses }
    else { state := .closed, consecutiveFailures := 0, halfOpenSuccesses := 0 }
  else
    let failures := state.consecutiveFailures + 1
    if state.state = .halfOpen ∨ config.failureThreshold ≤ failures then
      { state := .opened, consecutiveFailures := failures, halfOpenSuccesses := 0
        openedAt := some now, openUntil := some (now + config.openMs) }
    else { state with consecutiveFailures := failures }

def proxyCircuitAllowsRequest (state : ProxyCircuitState) (now : Nat) : Bool :=
  (advanceProxyCircuit state now).state ≠ .opened

/-! ## The runtime's breaker -/

/-- `FAILURE_THRESHOLD`. -/
def failureThreshold : Nat := 5

/-- `RECOVERY_SUCCESSES`. -/
def recoverySuccesses : Nat := 2

/-- `OPEN_DURATION_MS`. -/
def openDurationMs : Nat := 60000

/-- The primary key of `tah_proxy_circuit_states`. -/
structure CircuitKey where
  providerId : String
  poolId : String
  endpointKey : String
  deriving DecidableEq

/-- A row of `tah_proxy_circuit_states`. -/
structure Circuit where
  key : CircuitKey
  state : CircuitState := .closed
  consecutiveFailures : Nat := 0
  consecutiveSuccesses : Nat := 0
  openedAt : Option Nat := none
  retryAt : Option Nat := none
  deriving DecidableEq

/-- The two repositories the runtime can be given. -/
inductive CircuitRepository where
  | memory | postgres
  deriving DecidableEq

/-- `Date.parse(String(circuit.retryAt))`. The memory repository hands back the ISO text that was
stored; the database hands back a `Date`, whose text ends with the seconds. -/
def CircuitRepository.parse : CircuitRepository → Nat → Nat
  | .memory, retryAt => retryAt
  | .postgres, retryAt => retryAt / 1000 * 1000

/-- `circuits.find(…)` for an endpoint. -/
def findCircuit (circuits : List Circuit) (key : CircuitKey) : Option Circuit :=
  circuits.find? fun item => item.key = key

def circuitBlocks (repository : CircuitRepository) (circuit : Option Circuit) (now : Nat) : Bool :=
  match circuit with
  | none => false
  | some circuit =>
    if circuit.state ≠ .opened then false
    else
      match circuit.retryAt with
      | none => true
      | some retryAt => now < repository.parse retryAt

/-- `next` of `report`. -/
def nextCircuit (current : Circuit) (healthy : Bool) (now : Nat) : Circuit :=
  if healthy then
    let successes := current.consecutiveSuccesses + 1
    let recovered : Bool := current.state = .closed ∨ recoverySuccesses ≤ successes
    { current with
      state := if recovered then .closed else .halfOpen
      consecutiveFailures := 0
      consecutiveSuccesses := if recovered then 0 else successes
      openedAt := none
      retryAt := none }
  else
    let failures := current.consecutiveFailures + 1
    let opens : Bool := failureThreshold ≤ failures
    { current with
      state := if opens then .opened else .closed
      consecutiveFailures := failures
      consecutiveSuccesses := 0
      openedAt := if opens then some now else current.openedAt
      retryAt := if opens then some (now + openDurationMs) else none }

/-- `current` of `report`: the circuit the report starts from. -/
def currentCircuit (circuits : List Circuit) (key : CircuitKey) : Circuit :=
  (findCircuit circuits key).getD { key := key }

/-- `report`, for the endpoint of the lease: the circuit is read, advanced and written back. -/
def report (circuits : List Circuit) (key : CircuitKey) (healthy : Bool) (now : Nat) :
    List Circuit :=
  upsertKey Circuit.key (nextCircuit (currentCircuit circuits key) healthy now) circuits

theorem findCircuit_key {circuits : List Circuit} {key : CircuitKey} {circuit : Circuit}
    (h : findCircuit circuits key = some circuit) : circuit.key = key :=
  (find?_key_some h).2

theorem currentCircuit_key (circuits : List Circuit) (key : CircuitKey) :
    (currentCircuit circuits key).key = key := by
  unfold currentCircuit
  cases h : findCircuit circuits key with
  | none => rfl
  | some circuit => exact findCircuit_key h

@[simp] theorem nextCircuit_key (current : Circuit) (healthy : Bool) (now : Nat) :
    (nextCircuit current healthy now).key = current.key := by
  cases healthy <;> rfl

/-- A report replaces the circuit of its endpoint. -/
theorem findCircuit_report (circuits : List Circuit) (key : CircuitKey) (healthy : Bool)
    (now : Nat) :
    findCircuit (report circuits key healthy now) key =
      some (nextCircuit (currentCircuit circuits key) healthy now) := by
  have hkey : (nextCircuit (currentCircuit circuits key) healthy now).key = key := by
    rw [nextCircuit_key, currentCircuit_key]
  calc findCircuit (report circuits key healthy now) key
      = (upsertKey Circuit.key (nextCircuit (currentCircuit circuits key) healthy now)
          circuits).find? (fun item =>
            item.key = (nextCircuit (currentCircuit circuits key) healthy now).key) := by
        rw [hkey]
        rfl
    _ = some (nextCircuit (currentCircuit circuits key) healthy now) := find?_upsertKey_self

theorem circuitBlocks_currentCircuit (repository : CircuitRepository) (circuits : List Circuit)
    (key : CircuitKey) (now : Nat) :
    circuitBlocks repository (findCircuit circuits key) now =
      circuitBlocks repository (some (currentCircuit circuits key)) now := by
  unfold currentCircuit
  cases findCircuit circuits key with
  | none => rfl
  | some circuit => rfl

/-! ## Both on one endpoint -/

/-- A health report, with the time it is recorded at. -/
structure HealthReport where
  healthy : Bool
  now : Nat
  deriving DecidableEq

/-- The reference breaker beside the rows of the runtime. -/
structure Breakers where
  reference : ProxyCircuitState
  circuits : List Circuit

/-- A closed reference breaker beside the rows. -/
def Breakers.init (circuits : List Circuit) : Breakers where
  reference := { state := .closed, consecutiveFailures := 0, halfOpenSuccesses := 0 }
  circuits := circuits

/-- The health reports of the endpoint, recorded by both. -/
def breakers (key : CircuitKey) : EventSystem Breakers HealthReport Unit where
  step s r :=
    ({ reference := recordProxyCircuitResult defaultProxyCircuit s.reference r.healthy r.now
       circuits := report s.circuits key r.healthy r.now }, ())

/-- The runtime blocks the endpoint exactly when the reference does not allow the request. -/
def Agrees (repository : CircuitRepository) (key : CircuitKey) (s : Breakers) (now : Nat) : Prop :=
  circuitBlocks repository (findCircuit s.circuits key) now =
    !proxyCircuitAllowsRequest s.reference now

/-- The breakers agree after every prefix of the reports, at every time from its last report on. -/
def AgreeThroughout (repository : CircuitRepository) (key : CircuitKey) (circuits : List Circuit)
    (reports : List HealthReport) : Prop :=
  ∀ earlier, earlier <+: reports → ∀ now, (∀ r ∈ earlier.getLast?, r.now ≤ now) →
    Agrees repository key ((breakers key).run (Breakers.init circuits) earlier) now

/-- The endpoint's circuit is closed, with nothing counted. -/
def ClosedCircuit (circuits : List Circuit) (key : CircuitKey) : Prop :=
  ∀ circuit, findCircuit circuits key = some circuit →
    circuit.state = .closed ∧ circuit.consecutiveFailures = 0 ∧ circuit.consecutiveSuccesses = 0

/-- A failure does not come while the reference is half-open, and the fifth and later failures in a
row come at a time whose `retryAt` the repository reads back whole. -/
def KeepsStep (repository : CircuitRepository) (s : Breakers) (r : HealthReport) : Prop :=
  r.healthy = false →
    s.reference.state ≠ .halfOpen ∧
      (failureThreshold ≤ s.reference.consecutiveFailures + 1 →
        repository.parse (r.now + openDurationMs) = r.now + openDurationMs)

instance (repository : CircuitRepository) (s : Breakers) (r : HealthReport) :
    Decidable (KeepsStep repository s r) := by
  unfold KeepsStep
  infer_instance

/-! ## The simulation -/

/-- The reference state and the row it corresponds to. -/
inductive Matches (repository : CircuitRepository) (reference : ProxyCircuitState)
    (circuit : Circuit) : Prop where
  | closed (href : reference.state = .closed) (hrow : circuit.state = .closed)
      (hcount : circuit.consecutiveFailures = reference.consecutiveFailures)
  | early (href : reference.state = .closed) (hrow : circuit.state = .halfOpen)
      (hnone : reference.consecutiveFailures = 0) (hcount : circuit.consecutiveFailures = 0)
      (hsuccesses : circuit.consecutiveSuccesses = 1)
  | opened (reopens : Nat) (href : reference.state = .opened) (hrow : circuit.state = .opened)
      (hmany : failureThreshold ≤ reference.consecutiveFailures)
      (hcount : circuit.consecutiveFailures = reference.consecutiveFailures)
      (hsuccesses : circuit.consecutiveSuccesses = 0)
      (hopen : reference.openUntil = some reopens) (hretry : circuit.retryAt = some reopens)
      (hparse : repository.parse reopens = reopens)
  | recovering (href : reference.state = .halfOpen) (hrow : circuit.state = .halfOpen)
      (hhalf : reference.halfOpenSuccesses = 1) (hcount : circuit.consecutiveFailures = 0)
      (hsuccesses : circuit.consecutiveSuccesses = 1)

variable {repository : CircuitRepository} {reference : ProxyCircuitState} {circuit : Circuit}

theorem advance_of_ne_opened (h : reference.state ≠ .opened) (now : Nat) :
    advanceProxyCircuit reference now = reference := by
  unfold advanceProxyCircuit
  rw [if_neg fun hopen => h hopen.1]

/-- Matching breakers agree at every time. -/
theorem Matches.agrees (h : Matches repository reference circuit) (now : Nat) :
    circuitBlocks repository (some circuit) now = !proxyCircuitAllowsRequest reference now := by
  cases h with
  | closed href hrow hcount =>
    simp [circuitBlocks, proxyCircuitAllowsRequest, advanceProxyCircuit, href, hrow]
  | early href hrow _ _ _ =>
    simp [circuitBlocks, proxyCircuitAllowsRequest, advanceProxyCircuit, href, hrow]
  | recovering href hrow _ _ _ =>
    simp [circuitBlocks, proxyCircuitAllowsRequest, advanceProxyCircuit, href, hrow]
  | opened reopens href hrow hmany hcount hsuccesses hopen hretry hparse =>
    by_cases hnow : reopens ≤ now
    · simp [circuitBlocks, proxyCircuitAllowsRequest, advanceProxyCircuit, href, hrow, hopen,
        hretry, hparse, hnow]
    · simp [circuitBlocks, proxyCircuitAllowsRequest, advanceProxyCircuit, href, hrow, hopen,
        hretry, hparse, hnow]
      omega

/-- A success keeps the breakers matched. -/
theorem Matches.healthy (h : Matches repository reference circuit) (now : Nat) :
    Matches repository (recordProxyCircuitResult defaultProxyCircuit reference true now)
      (nextCircuit circuit true now) := by
  cases h with
  | closed href hrow hcount =>
    have hadvance := advance_of_ne_opened (show reference.state ≠ .opened by simp [href]) now
    refine .closed ?_ ?_ ?_ <;>
      simp [recordProxyCircuitResult, nextCircuit, hadvance, href, hrow]
  | early href hrow hnone hcount hsuccesses =>
    have hadvance := advance_of_ne_opened (show reference.state ≠ .opened by simp [href]) now
    refine .closed ?_ ?_ ?_ <;>
      simp [recordProxyCircuitResult, nextCircuit, recoverySuccesses, hadvance, href, hsuccesses]
  | opened reopens href hrow hmany hcount hsuccesses hopen hretry hparse =>
    by_cases hnow : reopens ≤ now
    · refine .recovering ?_ ?_ ?_ ?_ ?_ <;>
        simp [recordProxyCircuitResult, nextCircuit, recoverySuccesses, advanceProxyCircuit,
          defaultProxyCircuit, href, hrow, hopen, hnow, hsuccesses]
    · refine .early ?_ ?_ ?_ ?_ ?_ <;>
        simp [recordProxyCircuitResult, nextCircuit, recoverySuccesses, advanceProxyCircuit,
          href, hrow, hopen, hnow, hsuccesses]
  | recovering href hrow hhalf hcount hsuccesses =>
    have hadvance := advance_of_ne_opened (show reference.state ≠ .opened by simp [href]) now
    refine .closed ?_ ?_ ?_ <;>
      simp [recordProxyCircuitResult, nextCircuit, recoverySuccesses, defaultProxyCircuit,
        hadvance, href, hhalf, hsuccesses]

/-- The failures counted by the row, outside a recovery. -/
theorem Matches.count (h : Matches repository reference circuit)
    (hhalf : reference.state ≠ .halfOpen) :
    circuit.consecutiveFailures = reference.consecutiveFailures := by
  cases h with
  | closed _ _ hcount => exact hcount
  | early _ _ hnone hcount _ => rw [hnone, hcount]
  | opened _ _ _ _ hcount _ _ _ _ => exact hcount
  | recovering href _ _ _ _ => exact absurd href hhalf

/-- A failure opens the reference during a recovery, and from the fifth in a row on. -/
theorem record_opens {now : Nat} (h : reference.state = .halfOpen ∨
      failureThreshold ≤ reference.consecutiveFailures + 1) :
    recordProxyCircuitResult defaultProxyCircuit reference false now =
      { state := .opened, consecutiveFailures := reference.consecutiveFailures + 1
        halfOpenSuccesses := 0, openedAt := some now, openUntil := some (now + openDurationMs) } := by
  have hcount : (advanceProxyCircuit reference now).consecutiveFailures =
      reference.consecutiveFailures := by
    unfold advanceProxyCircuit
    split <;> rfl
  have hopens : (advanceProxyCircuit reference now).state = .halfOpen ∨
      defaultProxyCircuit.failureThreshold ≤
        (advanceProxyCircuit reference now).consecutiveFailures + 1 := by
    rw [hcount]
    refine h.imp_left fun hhalf => ?_
    rw [advance_of_ne_opened (by simp [hhalf])]
    exact hhalf
  unfold recordProxyCircuitResult
  rw [if_neg (by decide), if_pos hopens, hcount]
  rfl

/-- An open reference denies requests until its time is over. -/
theorem opened_denies {now reopens : Nat} (hstate : reference.state = .opened)
    (hopen : reference.openUntil = some reopens) (hnow : now < reopens) :
    proxyCircuitAllowsRequest reference now = false := by
  have hwait : ¬reopens ≤ now := by omega
  simp [proxyCircuitAllowsRequest, advanceProxyCircuit, hstate, hopen, hwait]

/-- A failure before the fifth is only counted, by both. -/
theorem record_counts {now : Nat} (hclosed : reference.state = .closed)
    (hfew : ¬failureThreshold ≤ reference.consecutiveFailures + 1) :
    recordProxyCircuitResult defaultProxyCircuit reference false now =
      { reference with consecutiveFailures := reference.consecutiveFailures + 1 } := by
  unfold failureThreshold at hfew
  have hadvance := advance_of_ne_opened (show reference.state ≠ .opened by simp [hclosed]) now
  simp [recordProxyCircuitResult, hadvance, hclosed, defaultProxyCircuit, hfew]

/-- A failure outside a recovery keeps the breakers matched, if its `retryAt` reads back whole. -/
theorem Matches.unhealthy (h : Matches repository reference circuit) {now : Nat}
    (hhalf : reference.state ≠ .halfOpen)
    (hparse : failureThreshold ≤ reference.consecutiveFailures + 1 →
      repository.parse (now + openDurationMs) = now + openDurationMs) :
    Matches repository (recordProxyCircuitResult defaultProxyCircuit reference false now)
      (nextCircuit circuit false now) := by
  have hcount : circuit.consecutiveFailures = reference.consecutiveFailures := h.count hhalf
  by_cases hmany : failureThreshold ≤ reference.consecutiveFailures + 1
  · rw [record_opens (Or.inr hmany)]
    refine .opened (now + openDurationMs) rfl ?_ hmany ?_ ?_ rfl ?_ (hparse hmany) <;>
      simp [nextCircuit, hcount, hmany]
  · have hclosed : reference.state = .closed := by
      cases h with
      | closed href _ _ => exact href
      | early href _ _ _ _ => exact href
      | opened _ _ _ hopen _ _ _ _ _ => omega
      | recovering href _ _ _ _ => exact absurd href hhalf
    rw [record_counts hclosed hmany]
    refine .closed hclosed ?_ ?_ <;> simp [nextCircuit, hcount, hmany]

/-- A failure during a recovery: the reference opens, the runtime only counts one failure. -/
theorem Matches.relapse (h : Matches repository reference circuit)
    (hhalf : reference.state = .halfOpen) (now : Nat) :
    circuitBlocks repository (some (nextCircuit circuit false now)) now = false ∧
      proxyCircuitAllowsRequest
        (recordProxyCircuitResult defaultProxyCircuit reference false now) now = false := by
  have hcount : circuit.consecutiveFailures = 0 := by
    cases h with
    | closed href _ _ => simp [href] at hhalf
    | early href _ _ _ _ => simp [href] at hhalf
    | opened _ href _ _ _ _ _ _ _ => simp [href] at hhalf
    | recovering _ _ _ hcount _ => exact hcount
  constructor
  · simp [circuitBlocks, nextCircuit, failureThreshold, hcount]
  · rw [record_opens (Or.inl hhalf)]
    exact opened_denies rfl rfl (Nat.lt_add_of_pos_right (by decide))

/-- What a repository reads back is at most a second early. -/
theorem parse_bounds (repository : CircuitRepository) (retryAt : Nat) :
    repository.parse retryAt ≤ retryAt ∧ retryAt < repository.parse retryAt + 1000 := by
  cases repository <;> simp only [CircuitRepository.parse] <;> omega

/-- A `retryAt` that reads back early lets the runtime through before the reference. -/
theorem Matches.readsEarly (h : Matches repository reference circuit) {now : Nat}
    (hhalf : reference.state ≠ .halfOpen)
    (hmany : failureThreshold ≤ reference.consecutiveFailures + 1)
    (hparse : repository.parse (now + openDurationMs) ≠ now + openDurationMs) :
    ∃ later, now ≤ later ∧
      circuitBlocks repository (some (nextCircuit circuit false now)) later = false ∧
      proxyCircuitAllowsRequest
        (recordProxyCircuitResult defaultProxyCircuit reference false now) later = false := by
  have hcount : circuit.consecutiveFailures = reference.consecutiveFailures := h.count hhalf
  have hbounds := parse_bounds repository (now + openDurationMs)
  unfold openDurationMs at hbounds hparse
  refine ⟨now + openDurationMs - 1, ?_, ?_, ?_⟩
  · unfold openDurationMs
    omega
  · have hearly : ¬now + 60000 - 1 < repository.parse (now + 60000) := by omega
    simp only [circuitBlocks, nextCircuit, hcount, hmany, openDurationMs]
    exact decide_eq_false hearly
  · rw [record_opens (Or.inr hmany)]
    exact opened_denies rfl rfl (by unfold openDurationMs; omega)

/-! ## Whole sequences -/

variable {key : CircuitKey} {circuits : List Circuit} {reports : List HealthReport} {s : Breakers}

/-- The states of the two breakers match. -/
def Paired (repository : CircuitRepository) (key : CircuitKey) (s : Breakers) : Prop :=
  Matches repository s.reference (currentCircuit s.circuits key)

theorem agrees_iff {now : Nat} :
    Agrees repository key s now ↔
      circuitBlocks repository (some (currentCircuit s.circuits key)) now =
        !proxyCircuitAllowsRequest s.reference now := by
  unfold Agrees
  rw [circuitBlocks_currentCircuit]

theorem Paired.agrees (h : Paired repository key s) (now : Nat) : Agrees repository key s now :=
  agrees_iff.mpr (Matches.agrees h now)

theorem currentCircuit_next (r : HealthReport) :
    currentCircuit ((breakers key).next s r).circuits key =
      nextCircuit (currentCircuit s.circuits key) r.healthy r.now := by
  have hfind := findCircuit_report s.circuits key r.healthy r.now
  show (findCircuit (report s.circuits key r.healthy r.now) key).getD { key := key } = _
  rw [hfind]
  rfl

theorem paired_init (h : ClosedCircuit circuits key) :
    Paired repository key (Breakers.init circuits) := by
  unfold Paired currentCircuit
  cases hfind : findCircuit (Breakers.init circuits).circuits key with
  | none => exact .closed rfl rfl rfl
  | some circuit =>
    obtain ⟨hstate, hfailures, -⟩ := h circuit hfind
    exact .closed rfl hstate hfailures

/-- One report outside the condition's exceptions keeps the states matched. -/
theorem paired_step (s : Breakers) (r : HealthReport) (h : Paired repository key s)
    (hkeeps : KeepsStep repository s r) : Paired repository key ((breakers key).next s r) := by
  unfold Paired
  rw [currentCircuit_next]
  cases hr : r.healthy with
  | true => simpa [breakers, EventSystem.next, hr] using Matches.healthy h r.now
  | false =>
    obtain ⟨hhalf, hparse⟩ := hkeeps hr
    simpa [breakers, EventSystem.next, hr] using Matches.unhealthy h hhalf hparse

/-- From matched states, the condition on a report is agreement from the report on. -/
theorem keepsStep_iff (s : Breakers) (r : HealthReport) (h : Paired repository key s) :
    KeepsStep repository s r ↔
      ∀ now, r.now ≤ now → Agrees repository key ((breakers key).next s r) now := by
  constructor
  · intro hkeeps now _
    exact (paired_step s r h hkeeps).agrees now
  · intro hagrees hr
    have hblocks : ∀ now, r.now ≤ now →
        circuitBlocks repository (some (nextCircuit (currentCircuit s.circuits key) false r.now))
            now =
          !proxyCircuitAllowsRequest
            (recordProxyCircuitResult defaultProxyCircuit s.reference false r.now) now := by
      intro now hnow
      have hagree := agrees_iff.mp (hagrees now hnow)
      rw [currentCircuit_next, hr] at hagree
      simpa [breakers, EventSystem.next, hr] using hagree
    have hhalf : s.reference.state ≠ .halfOpen := by
      intro hhalf
      obtain ⟨hfree, hdenied⟩ := Matches.relapse h hhalf r.now
      have hagree := hblocks r.now (Nat.le_refl _)
      rw [hfree, hdenied] at hagree
      exact absurd hagree (by simp)
    refine ⟨hhalf, fun hmany => ?_⟩
    by_contra hparse
    obtain ⟨later, hlater, hfree, hdenied⟩ := Matches.readsEarly h hhalf hmany hparse
    have hagree := hblocks later hlater
    rw [hfree, hdenied] at hagree
    exact absurd hagree (by simp)

/-- Agreement throughout is agreement after each report, for breakers that start matched. -/
theorem agreeThroughout_iff_along (h : ClosedCircuit circuits key) :
    AgreeThroughout repository key circuits reports ↔
      (breakers key).Along
        (fun s r => ∀ now, r.now ≤ now → Agrees repository key ((breakers key).next s r) now)
        (Breakers.init circuits) reports := by
  constructor
  · intro hall
    refine EventSystem.along_of_split fun pre r post hsplit now hnow => ?_
    have hprefix : pre ++ [r] <+: reports := ⟨post, by simp [hsplit]⟩
    simpa using hall (pre ++ [r]) hprefix now (by simpa using hnow)
  · rintro halong earlier ⟨post, hsplit⟩ now hnow
    cases earlier using List.reverseRecOn with
    | nil => exact (paired_init h).agrees now
    | append_singleton earlier r =>
      rw [← hsplit, List.append_assoc] at halong
      rw [EventSystem.run_concat]
      exact halong.at now (hnow r (by simp))

/-- **The breakers agree** after every report and at every later time exactly when no failure is
reported while the reference is half-open, and every failure from the fifth in a row on has a
`retryAt` that the repository reads back whole. -/
theorem breakers_agree_iff (repository : CircuitRepository) (key : CircuitKey)
    (circuits : List Circuit) (reports : List HealthReport) (h : ClosedCircuit circuits key) :
    AgreeThroughout repository key circuits reports ↔
      (breakers key).Along (KeepsStep repository) (Breakers.init circuits) reports := by
  rw [agreeThroughout_iff_along h]
  exact (EventSystem.along_iff_of_inv (paired_init h) paired_step keepsStep_iff).symm

/-! ## A relapse -/

namespace Relapse

/-- The endpoint of the run below. -/
def endpoint : CircuitKey where
  providerId := "iproyal"
  poolId := "iproyal-default"
  endpointKey := "gate.example:12321"

/-- Five failures, a success once the minute is over, and a failure. -/
def sequence : List HealthReport := [
  ⟨false, 0⟩, ⟨false, 1000⟩, ⟨false, 2000⟩, ⟨false, 3000⟩, ⟨false, 4000⟩,
  ⟨true, 64000⟩, ⟨false, 65000⟩]

end Relapse

/-- The recovery up to the relapse meets the condition. -/
theorem breakers_agree_iff_recovery :
    AgreeThroughout .memory Relapse.endpoint [] (Relapse.sequence.take 6) :=
  (breakers_agree_iff .memory Relapse.endpoint [] (Relapse.sequence.take 6)
    (by intro circuit hfind; simp [findCircuit] at hfind)).mpr (by decide)

/-- **A failure during a recovery does not open the runtime's circuit.** -/
theorem relapse_not_blocked :
    ¬∀ (repository : CircuitRepository) (key : CircuitKey) (circuits : List Circuit)
        (reports : List HealthReport), ClosedCircuit circuits key →
      reports.Pairwise (fun r r' => r.now ≤ r'.now) →
      AgreeThroughout repository key circuits reports := by
  intro hall
  have hagree := hall .memory Relapse.endpoint [] Relapse.sequence
    (by intro circuit hfind; simp [findCircuit] at hfind) (by decide)
    Relapse.sequence List.prefix_rfl 65000 (by decide)
  exact absurd hagree (by unfold Agrees; decide)

end LinkSuffix
