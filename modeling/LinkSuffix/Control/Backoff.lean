import LinkSuffix.Orchestrator.Repeat

/-!
# Backoff and watchdog

A worker that is refused waits before the next journey of the campaign (`captureBackoff.ts`), and
tells the control server until when. The server records the retry with the rejection
(`recordCaptureRejection`, `control.mjs`), so that its watchdog (`recoverStalledContinuousRuns`)
leaves a run alone that is only waiting.

* `CaptureBackoff.observe`: the retry of a rejection.
* `recordCaptureRejection`, `persistL4Capture`, `recoverStalledContinuousRuns`: the server's side.
* `system`: a worker, its messages, the captures that the server has not come to, and the run.
* `Agrees`: a retry that is received is recorded, and the watchdog keeps to it up to the next
  report.
* `Undisturbed`: no capture that was reported before is processed in between, and the retry is a
  time.
* **`backoff_agrees`**, `retry_discarded`.

`new Date(now).toISOString()` of the record is its time. What the rest of the server does to a run
and its campaign is one event. A capture is processed by one step, since nothing in between reads
the rejection.
-/

namespace LinkSuffix.Backoff

open Lib

/-! ## The worker -/

structure Retry where
  notBefore : Int
  delayMs : Int
  consecutiveBlocks : Int
  deriving DecidableEq

structure CaptureBackoff where
  consecutiveBlocks : Nat := 0
  notBefore : Int := 0
  deriving DecidableEq

def baseDelayMs : Int := 60000

def maxDelayMs : Int := 300000

/-- The last time that a `Date` can be. -/
def lastDate : Int := 8640000000000000

/-- `Number.isSafeInteger`, of an integer. -/
def IsSafe (value : Int) : Prop := value.natAbs ≤ 9007199254740991

instance (value : Int) : Decidable (IsSafe value) := inferInstanceAs (Decidable (_ ≤ _))

/-- The codes that are retried although nothing was blocked. -/
def retriedCodes : List String := ["browser_closed", "capture_error", "empty_tracking_identifier"]

/-- `CaptureBackoff.remainingMs`. -/
def CaptureBackoff.remainingMs (backoff : CaptureBackoff) (now : Int) : Int :=
  min maxDelayMs (max 0 (backoff.notBefore - now))

/-- `CaptureBackoff.observe`, with the retry that the decision is given. -/
def CaptureBackoff.observe (backoff : CaptureBackoff) (decision : CaptureOutcome) (now : Int) :
    CaptureBackoff × Option Retry :=
  match decision with
  | .accepted _ _ _ => ({}, none)
  | .rejected rejection =>
    if ¬Repeat.isBlockedCapture rejection ∧ rejection.code ∉ retriedCodes then ({}, none)
    else
      let consecutiveBlocks := min 32 (backoff.consecutiveBlocks + 1)
      let ordinaryDelay := min maxDelayMs (baseDelayMs * 2 ^ min 3 (consecutiveBlocks - 1))
      let retryAfter := rejection.diagnostics.retryAfterMs.filter fun ms =>
        IsSafe ms ∧ 0 ≤ ms ∧ now + ms ≤ lastDate
      let delayMs := max ordinaryDelay (retryAfter.getD 0)
      ({ consecutiveBlocks := consecutiveBlocks, notBefore := now + delayMs },
        some ⟨now + delayMs, delayMs, consecutiveBlocks⟩)

/-! ## The server -/

/-- `run.captureRejection`. -/
structure Recorded where
  code : String
  message : String
  /-- `at`. -/
  time : Int
  diagnostics : CaptureDiagnostics
  retry : Option Retry
  deriving DecidableEq

/-- The fields of a run that the backoff has to do with. -/
structure Run where
  id : String
  /-- `Boolean(run.campaignRecordId)`. -/
  hasCampaign : Bool := true
  continuous : Bool := true
  redirectCapture : JsValue := .undefined
  exitCode : Option Int := none
  stopping : Bool := false
  captureRejection : Option Recorded := none
  lastProgressAt : Int
  watchdogTriggeredAt : Option Int := none

/-- The record of the run's campaign. -/
structure Campaign where
  activeRunId : Option String
  /-- `campaign.desiredRunning === true`. -/
  desiredRunning : Bool
  deriving DecidableEq

/-- `/^[a-z0-9.-]{1,253}$/i`. -/
def isHostname (value : String) : Bool :=
  value.toList.all (fun c => c.isAlphanum || c = '.' || c = '-') &&
    1 ≤ value.length && value.length ≤ 253

/-- `clean(value, max)`. -/
def clean (max : Nat) (value : String) : String := sliceTo max (trim value)

/-- The diagnostics that are kept. -/
def keptDiagnostics (incoming : CaptureDiagnostics) : CaptureDiagnostics where
  hostname := incoming.hostname.filter isHostname
  httpStatus := incoming.httpStatus.filter fun status => 100 ≤ status ∧ status ≤ 599
  rayId := incoming.rayId.filter isRayId

/-- The run takes part in what its campaign wants, and goes on. -/
def Run.Live (run : Run) (campaign : Option Campaign) : Prop :=
  run.exitCode = none ∧ run.stopping = false ∧
    (run.hasCampaign = true → campaign.any fun campaign =>
      campaign.activeRunId = some run.id ∧ campaign.desiredRunning)

instance (run : Run) (campaign : Option Campaign) : Decidable (run.Live campaign) :=
  inferInstanceAs (Decidable (_ ∧ _ ∧ _))

/-- The retry may be kept. -/
def ValidRetry (run : Run) (blocked : Bool) (code : String) (now : Int) (retry : Retry) : Prop :=
  run.continuous = true ∧ (blocked ∨ code ∈ retriedCodes) ∧
    IsSafe retry.delayMs ∧ 60000 ≤ retry.delayMs ∧
    IsSafe retry.notBefore ∧ now < retry.notBefore ∧
    retry.notBefore ≤ lastDate ∧ retry.notBefore - now ≤ retry.delayMs

instance (run : Run) (blocked : Bool) (code : String) (now : Int) (retry : Retry) :
    Decidable (ValidRetry run blocked code now retry) :=
  inferInstanceAs (Decidable (_ ∧ _ ∧ _ ∧ _ ∧ _ ∧ _ ∧ _ ∧ _))

/-- `recordCaptureRejection`. -/
def recordCaptureRejection (run : Run) (campaign : Option Campaign) (rejection : CaptureRejection)
    (retry : Option Retry) (now : Int) : Run :=
  if rejection.code = "missing_suffix" ∨ ¬run.Live campaign then run
  else
    let diagnostics := keptDiagnostics rejection.diagnostics
    let code := clean 80 (if rejection.code = "" then "capture_rejected" else rejection.code)
    let blocked := decide (code ∈ ["cloudflare_challenge", "unresolved_challenge",
      "blocked_response", "rate_limited"]) || diagnostics.httpStatus.any (· ∈ [403, 429])
    { run with
      captureRejection := some {
        code := code
        message := clean 500 (if rejection.message = "" then "Capture rejected"
          else rejection.message)
        time := now
        diagnostics := diagnostics
        retry := (retry.filter fun retry => ValidRetry run blocked code now retry).map fun retry =>
          { retry with consecutiveBlocks := min 32 (max 1
              (if retry.consecutiveBlocks = 0 then 1 else retry.consecutiveBlocks)) } }
      lastProgressAt := now }

/-- `persistL4Capture`, of a capture that was reported. -/
def persistL4Capture (platform : Platform) (run : Run) (campaign : Option Campaign)
    (result : JsValue) (now : Int) : Run :=
  match evaluateCaptureResult (platform.at now) result (some run.redirectCapture) with
  | .rejected rejection => recordCaptureRejection run campaign rejection none now
  | .accepted _ _ _ =>
    if run.hasCampaign ∧ campaign.isSome then { run with captureRejection := none } else run

/-- A retry that is not over: the watchdog passes over the run. -/
def Waits (staleMs now : Int) (recorded : Recorded) : Prop :=
  recorded.retry.any fun retry =>
    IsSafe retry.notBefore ∧ IsSafe retry.delayMs ∧ 60000 ≤ retry.delayMs ∧
      recorded.time ≤ retry.notBefore ∧ retry.notBefore ≤ lastDate ∧
      retry.notBefore - recorded.time ≤ retry.delayMs ∧ now < retry.notBefore + staleMs

instance (staleMs now : Int) (recorded : Recorded) : Decidable (Waits staleMs now recorded) :=
  inferInstanceAs (Decidable (_ = true))

/-- `recoverStalledContinuousRuns`, for a run whose process is there or not. -/
def recoverStalledContinuousRuns (staleMs : Int) (alive : Bool) (run : Run)
    (campaign : Option Campaign) (now : Int) : Run × Bool :=
  if ¬alive ∨ ¬run.continuous ∨ run.exitCode.isSome ∨ run.watchdogTriggeredAt.any (· ≠ 0) then
    (run, false)
  else if ¬run.hasCampaign ∨ ¬campaign.any (·.desiredRunning) then (run, false)
  else if run.captureRejection.any fun recorded => Waits staleMs now recorded then (run, false)
  else if now - run.lastProgressAt < staleMs then (run, false)
  else ({ run with watchdogTriggeredAt := some now }, true)

/-! ## The system -/

/-- What a worker reports. -/
inductive Message where
  /-- `TAH_L4_CAPTURE`, with the JSON of the capture. -/
  | capture (payload : JsValue)
  /-- `TAH_L4_CAPTURE_REJECTED`. -/
  | rejected (rejection : CaptureRejection) (retry : Option Retry)
  /-- `TAH_ROUTE_DECISION`. -/
  | route

structure State where
  /-- The clock. -/
  now : Nat
  backoff : CaptureBackoff := {}
  /-- What was sent and is not read. -/
  channel : List Message := []
  /-- What `queueL4Capture` has taken and not come to. -/
  captureQueue : List JsValue := []
  run : Run
  campaign : Option Campaign

inductive Event where
  | wait (ms : Nat)
  /-- A journey of the worker ends. -/
  | observe (event : RequestEvent)
  /-- A journey of the worker has a route. -/
  | route
  /-- The server reads the next message. -/
  | receive
  /-- The next task of `queueL4Capture`. -/
  | process
  /-- The watchdog, with whether the process of the run is there. -/
  | tick (alive : Bool)
  /-- The rest of the server. -/
  | control (exitCode : Option Int) (stopping : Bool) (campaign : Option Campaign)

/-- The worker's report of a journey. -/
def reported (platform : Platform) (s : State) (event : RequestEvent) : State :=
  let decision := evaluateCaptureResult (platform.at s.now) event.toValue none
  let observed := s.backoff.observe decision s.now
  let messages :=
    match decision with
    | .rejected rejection => [Message.rejected rejection observed.2]
    | .accepted _ _ _ =>
      match buildCapturePayload (platform.at s.now) event with
      | .ok payload => [.capture payload.json]
      | .error _ => []
  { s with backoff := observed.1, channel := s.channel ++ messages }

/-- The server reads a message. -/
def received (s : State) : State :=
  match s.channel with
  | [] => s
  | .capture payload :: channel =>
    { s with
      channel := channel
      captureQueue := s.captureQueue ++ [payload]
      run := { s.run with lastProgressAt := s.now } }
  | .rejected rejection retry :: channel =>
    { s with
      channel := channel
      run := recordCaptureRejection s.run s.campaign rejection retry s.now }
  | .route :: channel =>
    { s with channel := channel, run := { s.run with lastProgressAt := s.now } }

/-- The server processes a capture. -/
def processed (platform : Platform) (s : State) : State :=
  match s.captureQueue with
  | [] => s
  | payload :: captureQueue =>
    { s with
      captureQueue := captureQueue
      run := persistL4Capture platform s.run s.campaign payload s.now }

/-- Whether a run is terminated by its watchdog is the reply. -/
def system (platform : Platform) (staleMs : Int) : EventSystem State Event Bool where
  step s event :=
    match event with
    | .wait ms => ({ s with now := s.now + ms }, false)
    | .observe event => (reported platform s event, false)
    | .route => ({ s with channel := s.channel ++ [.route] }, false)
    | .receive => (received s, false)
    | .process => (processed platform s, false)
    | .tick alive =>
      let recovered := recoverStalledContinuousRuns staleMs alive s.run s.campaign s.now
      ({ s with run := recovered.1 }, recovered.2)
    | .control exitCode stopping campaign =>
      ({ s with run := { s.run with exitCode := exitCode, stopping := stopping },
                campaign := campaign }, false)

/-- A continuous run that begins. -/
def started (now : Nat) (id : String) (hasCampaign : Bool) (redirectCapture : JsValue)
    (campaign : Option Campaign) : State where
  now := now
  run := {
    id := id
    hasCampaign := hasCampaign
    redirectCapture := redirectCapture
    lastProgressAt := now }
  campaign := campaign

/-! ## Retries -/

section Retries

variable {platform : Platform} {backoff : CaptureBackoff} {decision : CaptureOutcome} {now : Int}

/-- A rejection that is retried. -/
def Retried (rejection : CaptureRejection) : Prop :=
  Repeat.isBlockedCapture rejection = true ∨ rejection.code ∈ retriedCodes

/-- A retry as a worker gives it. -/
structure Given (rejection : CaptureRejection) (retry : Retry) (now : Int) : Prop where
  retried : Retried rejection
  delay : 60000 ≤ retry.delayMs
  safe : IsSafe retry.delayMs
  notBefore : retry.notBefore - retry.delayMs ≤ now
  blocks : 1 ≤ retry.consecutiveBlocks ∧ retry.consecutiveBlocks ≤ 32

/-- The ordinary delay is between one minute and five. -/
theorem ordinaryDelay_bounds (n : Nat) :
    60000 ≤ min maxDelayMs (baseDelayMs * 2 ^ min 3 n) ∧
      min maxDelayMs (baseDelayMs * 2 ^ min 3 n) ≤ 300000 := by
  have hpow : (1 : Int) ≤ 2 ^ min 3 n := Int.pow_pos (by decide)
  unfold maxDelayMs baseDelayMs
  omega

theorem observe_given {retry : Retry} (h : (backoff.observe decision now).2 = some retry) :
    ∃ rejection, decision = .rejected rejection ∧ Given rejection retry now := by
  cases decision with
  | accepted finalUrl suffix evidence => cases h
  | rejected rejection =>
    refine ⟨rejection, rfl, ?_⟩
    unfold CaptureBackoff.observe at h
    dsimp only at h
    split at h
    · cases h
    · rename_i hretried
      obtain rfl := Option.some.inj h
      obtain ⟨hlow, hhigh⟩ := ordinaryDelay_bounds (min 32 (backoff.consecutiveBlocks + 1) - 1)
      refine ⟨?_, Int.le_trans hlow (Int.le_max_left _ _), ?_, by simp, by dsimp only; omega⟩
      · rwa [not_and_or, not_not, not_not] at hretried
      · cases hafter : rejection.diagnostics.retryAfterMs.filter fun ms =>
          IsSafe ms ∧ 0 ≤ ms ∧ now + ms ≤ lastDate with
        | none =>
          unfold IsSafe
          simp only [Option.getD_none]
          omega
        | some ms =>
          have hsafe := of_decide_eq_true (Option.filter_eq_some_iff.mp hafter).2
          have := hsafe.1
          unfold IsSafe at this ⊢
          simp only [Option.getD_some]
          omega

/-- A refused status is that of an edge stop. -/
theorem edgeStop_of_status {doc : JsValue} {status : Int}
    (hstatus : (doc.get "status").toNumber.integer = some status) (h : status ∈ [403, 429]) :
    edgeStopForResponse platform doc ≠ none := by
  have hnumber : (doc.get "status").toNumber = .finite status := by
    cases hread : (doc.get "status").toNumber with
    | finite value =>
      rw [hread] at hstatus
      change (if value.den = 1 then some value.num else none) = some status at hstatus
      split at hstatus
      · rename_i hden
        obtain rfl := Option.some.inj hstatus
        rw [(Rat.den_eq_one_iff value).mp hden]
      · cases hstatus
    | _ =>
      rw [hread] at hstatus
      cases hstatus
  unfold edgeStopForResponse
  dsimp only
  rw [hnumber, if_neg]
  · exact nofun
  · rintro ⟨-, h403, h429⟩
    simp only [List.mem_cons, List.not_mem_nil, or_false] at h
    rcases h with rfl | rfl
    · exact h403 rfl
    · exact h429 rfl

/-- No capture that only lacks its suffix is taken for a refusal. -/
theorem missing_suffix_unretried {result : JsValue} {options : Option JsValue}
    {rejection : CaptureRejection}
    (h : evaluateCaptureResult platform result options = .rejected rejection)
    (hcode : rejection.code = "missing_suffix") : ¬Retried rejection := by
  have hlisted : rejection.code ∉ ["cloudflare_challenge", "unresolved_challenge",
      "blocked_response", "rate_limited"] ++ retriedCodes := by
    rw [hcode]
    decide
  rw [List.mem_append, not_or] at hlisted
  rintro (hblocked | hretried)
  · unfold Repeat.isBlockedCapture at hblocked
    rw [Bool.or_eq_true, decide_eq_true_eq, decide_eq_true_eq] at hblocked
    have hstatus := hblocked.resolve_left hlisted.1
    unfold evaluateCaptureResult at h
    split at h
    · rename_i stop hstop
      obtain rfl := CaptureOutcome.rejected.inj h
      obtain ⟨doc, -, hdoc⟩ := List.exists_of_findSome?_eq_some hstop
      unfold edgeStopForResponse at hdoc
      dsimp only at hdoc
      split at hdoc
      · cases hdoc
      · obtain rfl := Option.some.inj hdoc
        dsimp only at hcode
        split at hcode
        · exact absurd hcode (by decide)
        · split at hcode <;> exact absurd hcode (by decide)
    · rename_i hpassed
      have hdiagnostics : rejection.diagnostics.httpStatus =
          (((documents result).getLast?.getD .undefined).get "status").toNumber.integer.filter
            fun status => 100 ≤ status ∧ status ≤ 599 := by
        dsimp only at h
        split at h
        · obtain rfl := CaptureOutcome.rejected.inj h
          rfl
        · obtain rfl := CaptureOutcome.rejected.inj h
          rfl
        · split at h
          · obtain rfl := CaptureOutcome.rejected.inj h
            rfl
          · cases h
      rw [hdiagnostics] at hstatus
      cases hlast : (documents result).getLast? with
      | none =>
        rw [hlast] at hstatus
        exact absurd hstatus (by decide +kernel)
      | some main =>
        rw [hlast, Option.getD_some] at hstatus
        cases hread : (main.get "status").toNumber.integer with
        | none =>
          rw [hread] at hstatus
          exact absurd hstatus (by decide)
        | some status =>
          have hmain := List.findSome?_eq_none_iff.mp hpassed main (List.mem_of_getLast? hlast)
          refine edgeStop_of_status hread ?_ hmain
          rw [hread, Option.filter_some] at hstatus
          split at hstatus
          · exact hstatus
          · exact absurd hstatus (by decide)
  · exact hlisted.2 hretried

end Retries

/-! ## Runs that agree -/

section Agreement

variable (platform : Platform) (staleMs : Int)

/-- The next message is the rejection, with its retry. -/
def Next (s : State) (rejection : CaptureRejection) (retry : Retry) : Prop :=
  ∃ channel, s.channel = .rejected rejection (some retry) :: channel

/-- A retry is received before it is over. -/
def Timely (s : State) (event : Event) : Prop :=
  match event with
  | .receive => ∀ rejection retry, Next s rejection retry → s.now < retry.notBefore
  | _ => True

/-- No capture and no rejection is received. -/
def Quiet (s : State) (event : Event) : Prop :=
  match event with
  | .receive => ∀ message ∈ s.channel.head?, message = .route
  | _ => True

/-- The capture that is processed takes the place of the rejection. -/
def Discards (s : State) (payload : JsValue) : Prop :=
  match evaluateCaptureResult (platform.at s.now) payload (some s.run.redirectCapture) with
  | .accepted _ _ _ => s.run.hasCampaign = true ∧ s.campaign.isSome = true
  | .rejected rejection => rejection.code ≠ "missing_suffix" ∧ s.run.Live s.campaign

/-- The step discards no rejection. -/
def Keeps (s : State) (event : Event) : Prop :=
  match event with
  | .process => ∀ payload ∈ s.captureQueue.head?, ¬Discards platform s payload
  | _ => True

/-- Every retry that a run going on receives is recorded, and up to the next report the watchdog
does not terminate the run before it is over and the time of a stalled run has passed. -/
def Agrees (s : State) (events : List Event) : Prop :=
  ∀ past rest rejection retry, events = past ++ .receive :: rest →
    Next ((system platform staleMs).run s past) rejection retry →
    ((system platform staleMs).run s past).run.Live
      ((system platform staleMs).run s past).campaign →
    (∃ recorded, (received ((system platform staleMs).run s past)).run.captureRejection =
      some recorded ∧ recorded.retry = some retry) ∧
    ∀ mid alive more, rest = mid ++ .tick alive :: more →
      (system platform staleMs).Along Quiet (received ((system platform staleMs).run s past)) mid →
      ((system platform staleMs).run (received ((system platform staleMs).run s past)) mid).now <
        retry.notBefore + staleMs →
      (system platform staleMs).reply ((system platform staleMs).run
        (received ((system platform staleMs).run s past)) mid) (.tick alive) = false

/-- A retry that a run going on receives is a time, and no capture that was reported before it is
processed up to the next report, unless that leaves the rejection alone. -/
def Undisturbed (s : State) (events : List Event) : Prop :=
  ∀ past rest rejection retry, events = past ++ .receive :: rest →
    Next ((system platform staleMs).run s past) rejection retry →
    ((system platform staleMs).run s past).run.Live
      ((system platform staleMs).run s past).campaign →
    retry.notBefore ≤ lastDate ∧
    ∀ mid more, rest = mid ++ more →
      (system platform staleMs).Along Quiet (received ((system platform staleMs).run s past)) mid →
      (system platform staleMs).Along (Keeps platform)
        (received ((system platform staleMs).run s past)) mid

end Agreement

section Steps

variable {platform : Platform} {staleMs : Int} {s : State}

/-! ## What is sent -/

/-- What every state of a continuous run has. -/
structure Sound (s : State) : Prop where
  sent : ∀ rejection retry, .rejected rejection (some retry) ∈ s.channel →
    Given rejection retry s.now ∧ rejection.code ≠ "missing_suffix"
  continuous : s.run.continuous = true

theorem Given.mono {rejection : CaptureRejection} {retry : Retry} {now later : Int}
    (h : Given rejection retry now) (hle : now ≤ later) : Given rejection retry later :=
  ⟨h.retried, h.delay, h.safe, Int.le_trans h.notBefore hle, h.blocks⟩

theorem record_continuous (run : Run) (campaign : Option Campaign) (rejection : CaptureRejection)
    (retry : Option Retry) (now : Int) :
    (recordCaptureRejection run campaign rejection retry now).continuous = run.continuous := by
  unfold recordCaptureRejection
  split <;> rfl

theorem persist_continuous (run : Run) (campaign : Option Campaign) (result : JsValue) (now : Int) :
    (persistL4Capture platform run campaign result now).continuous = run.continuous := by
  unfold persistL4Capture
  split
  · exact record_continuous _ _ _ _ _
  · split <;> rfl

theorem recover_continuous (alive : Bool) (run : Run) (campaign : Option Campaign) (now : Int) :
    (recoverStalledContinuousRuns staleMs alive run campaign now).1.continuous =
      run.continuous := by
  unfold recoverStalledContinuousRuns
  split_ifs <;> rfl

theorem reported_rejected {event : RequestEvent} {rejection : CaptureRejection}
    (h : evaluateCaptureResult (platform.at s.now) event.toValue none = .rejected rejection) :
    reported platform s event = { s with
      backoff := (s.backoff.observe (.rejected rejection) s.now).1
      channel := s.channel ++
        [.rejected rejection (s.backoff.observe (.rejected rejection) s.now).2] } := by
  unfold reported
  rw [h]

theorem reported_accepted {event : RequestEvent} {finalUrl suffix : String} {shown : Evidence}
    (h : evaluateCaptureResult (platform.at s.now) event.toValue none =
      .accepted finalUrl suffix shown) :
    reported platform s event = { s with
      backoff := {}
      channel := s.channel ++ [.capture (JsValue.object (payloadFields event finalUrl)).json] } := by
  unfold reported buildCapturePayload
  rw [h]
  rfl

theorem Sound.observed (h : Sound s) (event : RequestEvent) :
    Sound (reported platform s event) := by
  cases hdecision : evaluateCaptureResult (platform.at s.now) event.toValue none with
  | accepted finalUrl suffix shown =>
    rw [reported_accepted hdecision]
    refine ⟨fun rejection retry hmem => ?_, h.continuous⟩
    rcases List.mem_append.mp hmem with hold | hnew
    · exact h.sent rejection retry hold
    · cases List.mem_singleton.mp hnew
  | rejected refusal =>
    rw [reported_rejected hdecision]
    refine ⟨fun rejection retry hmem => ?_, h.continuous⟩
    rcases List.mem_append.mp hmem with hold | hnew
    · exact h.sent rejection retry hold
    · obtain ⟨rfl, hretry⟩ := Message.rejected.inj (List.mem_singleton.mp hnew)
      obtain ⟨_, heq, hgiven⟩ := observe_given hretry.symm
      obtain rfl := CaptureOutcome.rejected.inj heq
      exact ⟨hgiven, fun hcode => missing_suffix_unretried hdecision hcode hgiven.retried⟩

theorem Sound.received (h : Sound s) : Sound (received s) := by
  unfold Backoff.received
  split
  · exact h
  · rename_i payload channel hchannel
    exact ⟨fun rejection retry hmem =>
      h.sent rejection retry (hchannel ▸ List.mem_cons_of_mem _ hmem), h.continuous⟩
  · rename_i rejection retry channel hchannel
    refine ⟨fun other retry' hmem =>
      h.sent other retry' (hchannel ▸ List.mem_cons_of_mem _ hmem), ?_⟩
    exact (record_continuous _ _ _ _ _).trans h.continuous
  · rename_i channel hchannel
    exact ⟨fun rejection retry hmem =>
      h.sent rejection retry (hchannel ▸ List.mem_cons_of_mem _ hmem), h.continuous⟩

theorem Sound.processed (h : Sound s) : Sound (processed platform s) := by
  unfold Backoff.processed
  split
  · exact h
  · exact ⟨h.sent, (persist_continuous _ _ _ _).trans h.continuous⟩

theorem Sound.event (h : Sound s) (event : Event) :
    Sound ((system platform staleMs).next s event) := by
  cases event with
  | wait ms =>
    refine ⟨fun rejection retry hmem => ?_, h.continuous⟩
    obtain ⟨hgiven, hcode⟩ := h.sent rejection retry hmem
    exact ⟨hgiven.mono (Int.ofNat_le.mpr (Nat.le_add_right s.now ms)), hcode⟩
  | observe event => exact h.observed event
  | route =>
    refine ⟨fun rejection retry hmem => ?_, h.continuous⟩
    rcases List.mem_append.mp hmem with hold | hnew
    · exact h.sent rejection retry hold
    · cases List.mem_singleton.mp hnew
  | receive => exact h.received
  | process => exact h.processed
  | tick alive => exact ⟨h.sent, (recover_continuous _ _ _ _).trans h.continuous⟩
  | control exitCode stopping campaign => exact ⟨h.sent, h.continuous⟩

/-! ## What is recorded -/

theorem clean_listed : ∀ code ∈ ["cloudflare_challenge", "unresolved_challenge",
    "blocked_response", "rate_limited"] ++ retriedCodes,
    clean 80 (if code = "" then "capture_rejected" else code) = code := by
  decide +kernel

/-- What is retried is retried for the server too. -/
theorem retried_kept {rejection : CaptureRejection} (h : Retried rejection) :
    (decide (clean 80 (if rejection.code = "" then "capture_rejected" else rejection.code) ∈
        ["cloudflare_challenge", "unresolved_challenge", "blocked_response", "rate_limited"]) ||
      (keptDiagnostics rejection.diagnostics).httpStatus.any (· ∈ [403, 429])) = true ∨
      clean 80 (if rejection.code = "" then "capture_rejected" else rejection.code) ∈
        retriedCodes := by
  rcases h with hblocked | hcode
  · unfold Repeat.isBlockedCapture at hblocked
    rw [Bool.or_eq_true, decide_eq_true_eq, decide_eq_true_eq] at hblocked
    left
    rw [Bool.or_eq_true, decide_eq_true_eq]
    rcases hblocked with hcode | hstatus
    · left
      rw [clean_listed _ (List.mem_append_left _ hcode)]
      exact hcode
    · right
      unfold keptDiagnostics
      cases hread : rejection.diagnostics.httpStatus with
      | none =>
        rw [hread] at hstatus
        exact absurd hstatus (by decide)
      | some status =>
        rw [hread, Option.getD_some] at hstatus
        simp only [List.mem_cons, List.not_mem_nil, or_false] at hstatus
        rcases hstatus with rfl | rfl <;> rfl
  · right
    rw [clean_listed _ (List.mem_append_right _ hcode)]
    exact hcode

/-- The rejection is recorded with its retry. -/
theorem recorded_retry {run : Run} {campaign : Option Campaign} {rejection : CaptureRejection}
    {retry : Retry} {now : Nat} (hcontinuous : run.continuous = true) (hlive : run.Live campaign)
    (hcode : rejection.code ≠ "missing_suffix") (h : Given rejection retry now)
    (htimely : now < retry.notBefore) (hdate : retry.notBefore ≤ lastDate) :
    ∃ recorded, (recordCaptureRejection run campaign rejection (some retry) now).captureRejection =
      some recorded ∧ recorded.retry = some retry ∧ recorded.time = now := by
  unfold recordCaptureRejection
  rw [if_neg (not_or.mpr ⟨hcode, not_not.mpr hlive⟩)]
  refine ⟨_, rfl, ?_, rfl⟩
  have hnotBefore := h.notBefore
  have hvalid (blocked : Bool) (code : String) (hretried : blocked = true ∨ code ∈ retriedCodes) :
      ValidRetry run blocked code now retry := by
    refine ⟨hcontinuous, hretried, h.safe, h.delay, ?_, htimely, hdate, by omega⟩
    unfold IsSafe
    unfold lastDate at hdate
    omega
  obtain ⟨hlow, hhigh⟩ := h.blocks
  dsimp only
  rw [Option.filter_some, if_pos (decide_eq_true (hvalid _ _ (retried_kept h.retried))),
    Option.map_some, if_neg (by omega), Int.max_eq_right hlow, Int.min_eq_right hhigh]

/-! ## Between two reports -/

/-- The rejection stays. -/
theorem rejection_stays {event : Event} (hquiet : Quiet s event) (hkeeps : Keeps platform s event) :
    ((system platform staleMs).next s event).run.captureRejection = s.run.captureRejection := by
  cases event with
  | wait ms => rfl
  | observe event => rfl
  | route => rfl
  | receive =>
    show (received s).run.captureRejection = s.run.captureRejection
    unfold received
    split
    · rfl
    · rfl
    · rename_i rejection retry channel hchannel
      have hroute := hquiet (.rejected rejection retry) (by rw [hchannel]; rfl)
      cases hroute
    · rfl
  | process =>
    show (processed platform s).run.captureRejection = s.run.captureRejection
    unfold processed
    split
    · rfl
    · rename_i payload captureQueue hqueue
      have hstays := hkeeps payload (by rw [hqueue]; rfl)
      unfold Discards at hstays
      show (persistL4Capture platform s.run s.campaign payload s.now).captureRejection = _
      unfold persistL4Capture
      split
      · rename_i rejection hdecision
        rw [hdecision] at hstays
        unfold recordCaptureRejection
        rw [if_pos]
        rwa [not_and_or, not_not] at hstays
      · rename_i hdecision
        rw [hdecision] at hstays
        rw [if_neg hstays]
  | tick alive =>
    show (recoverStalledContinuousRuns staleMs alive s.run s.campaign s.now).1.captureRejection = _
    unfold recoverStalledContinuousRuns
    split_ifs <;> rfl
  | control exitCode stopping campaign => rfl

theorem rejection_stays_run {mid : List Event}
    (hquiet : (system platform staleMs).Along Quiet s mid)
    (hkeeps : (system platform staleMs).Along (Keeps platform) s mid) :
    ((system platform staleMs).run s mid).run.captureRejection = s.run.captureRejection :=
  EventSystem.run_inv (P := fun t => t.run.captureRejection = s.run.captureRejection) rfl
    (fun _ _ h hstep => (rejection_stays hstep.1 hstep.2).trans h) (hquiet.and hkeeps)

/-- The watchdog passes over a run that waits. -/
theorem waits_passes {alive : Bool} {recorded : Recorded}
    (hrejection : s.run.captureRejection = some recorded)
    (hwaits : Waits staleMs s.now recorded) :
    (system platform staleMs).reply s (.tick alive) = false := by
  show (recoverStalledContinuousRuns staleMs alive s.run s.campaign s.now).2 = false
  unfold recoverStalledContinuousRuns
  split_ifs with h1 h2 h3 h4
  · rfl
  · rfl
  · rfl
  · rfl
  · rw [hrejection, Option.any_some] at h3
    exact absurd (decide_eq_true hwaits) h3

/-! ## Runs -/

theorem sound_started (now : Nat) (id : String) (hasCampaign : Bool) (redirectCapture : JsValue)
    (campaign : Option Campaign) :
    Sound (started now id hasCampaign redirectCapture campaign) :=
  ⟨fun _ _ => nofun, rfl⟩

theorem sound_run (h : Sound s) (events : List Event) :
    Sound ((system platform staleMs).run s events) :=
  EventSystem.run_inv_true h fun _ event h => h.event event

end Steps

/-- **The watchdog keeps to the backoff of a worker**, where no capture that was reported before a
rejection discards it. -/
theorem backoff_agrees (platform : Platform) (staleMs : Int) (now : Nat) (id : String)
    (hasCampaign : Bool) (redirectCapture : JsValue) (campaign : Option Campaign)
    (events : List Event)
    (htimely : (system platform staleMs).Along Timely
      (started now id hasCampaign redirectCapture campaign) events)
    (hundisturbed : Undisturbed platform staleMs
      (started now id hasCampaign redirectCapture campaign) events) :
    Agrees platform staleMs (started now id hasCampaign redirectCapture campaign) events := by
  intro past rest rejection retry hevents hnext hlive
  obtain ⟨hdate, hkeeps⟩ := hundisturbed past rest rejection retry hevents hnext hlive
  rw [hevents] at htimely
  have hearly := htimely.at rejection retry hnext
  have hsound := @sound_run platform staleMs _
    (sound_started now id hasCampaign redirectCapture campaign) past
  obtain ⟨channel, hchannel⟩ := hnext
  generalize (system platform staleMs).run _ past = s at *
  obtain ⟨hgiven, hcode⟩ := hsound.sent rejection retry (hchannel ▸ List.mem_cons_self)
  obtain ⟨recorded, hrecorded, hretry, htime⟩ :=
    recorded_retry hsound.continuous hlive hcode hgiven hearly hdate
  have hrejection : (received s).run.captureRejection = some recorded := by
    unfold received
    rw [hchannel]
    exact hrecorded
  refine ⟨⟨recorded, hrejection, hretry⟩, fun mid alive more hrest hquiet hbefore => ?_⟩
  have hstays := rejection_stays_run hquiet (hkeeps mid (.tick alive :: more) hrest hquiet)
  refine waits_passes (hstays.trans hrejection) ?_
  unfold Waits
  rw [hretry, Option.any_some, decide_eq_true_eq, htime]
  have hnotBefore := hgiven.notBefore
  have hdate' := hdate
  unfold lastDate at hdate'
  refine ⟨?_, hgiven.safe, hgiven.delay, Int.le_of_lt hearly, hdate, by omega, hbefore⟩
  unfold IsSafe
  omega

/-! ## A capture behind a rejection -/

section Sample

/-- The rejection that is read next, with its retry. -/
def State.refused? (s : State) : Option (CaptureRejection × Retry) :=
  match s.channel with
  | .rejected rejection (some retry) :: _ => some (rejection, retry)
  | _ => none

theorem next_iff {s : State} {rejection : CaptureRejection} {retry : Retry} :
    Next s rejection retry ↔ s.refused? = some (rejection, retry) := by
  unfold Next State.refused?
  constructor
  · rintro ⟨channel, hchannel⟩
    rw [hchannel]
  · intro h
    split at h
    · rename_i other retry' channel hchannel
      cases h
      exact ⟨channel, hchannel⟩
    · cases h

theorem timely_receive {s : State} {rejection : CaptureRejection} {retry : Retry}
    (h : s.refused? = some (rejection, retry)) (hearly : s.now < retry.notBefore) :
    Timely s .receive := by
  intro other retry' hnext
  obtain ⟨-, rfl⟩ := Prod.mk.inj (Option.some.inj (h.symm.trans (next_iff.mp hnext)))
  exact hearly

theorem timely_other {s : State} (h : s.refused? = none) : Timely s .receive := by
  intro rejection retry hnext
  cases h.symm.trans (next_iff.mp hnext)

/-- Where no capture is processed, none discards a rejection. -/
theorem undisturbed_idle {platform : Platform} {staleMs : Int} {s : State} {events : List Event}
    (hidle : .process ∉ events)
    (hdates : (system platform staleMs).Along (fun s event => event = .receive →
      ∀ rejection retry, Next s rejection retry → retry.notBefore ≤ lastDate) s events) :
    Undisturbed platform staleMs s events := by
  rintro past rest rejection retry rfl hnext -
  refine ⟨hdates.at rfl rejection retry hnext, ?_⟩
  rintro mid more rfl -
  refine EventSystem.along_of_split fun pre event post hmid => ?_
  cases event with
  | process => exact absurd (by simp [hmid]) hidle
  | _ => trivial

/-- A journey that the network refuses for an hour. -/
def limitedEvent : RequestEvent where
  repeatIndex := .finite 1
  proxyMode := "sticky-residential"
  finalVerdict := "unsure"
  events := [{
    url := "https://affiliate.example/click", method := "GET", status := .finite 429
    timeMs := .finite 10, headers := [("retry-after", "3600")]
    taSignal := [("main_document", "true")] }]

def affiliateRun : State :=
  started 0 "run-1" true affiliateEvent.policyValue (some ⟨some "run-1", true⟩)

/-- The rejection of the refused journey. -/
def limited : CaptureRejection where
  code := "rate_limited"
  message := "Rate limit received; the journey was stopped"
  diagnostics := {
    hostname := some "affiliate.example", httpStatus := some 429, retryAfterMs := some 3600000 }

/-- Its retry, when nothing was refused before. -/
def hourRetry : Retry := ⟨3600000, 3600000, 1⟩

theorem limited_rejected :
    evaluateCaptureResult (affiliatePlatform.at affiliateRun.now) limitedEvent.toValue none =
      .rejected limited := by
  decide +kernel

/-- The state with the refused journey reported. -/
theorem run_limited : (system affiliatePlatform 240000).run affiliateRun [.observe limitedEvent] =
    { affiliateRun with
      backoff := ⟨1, 3600000⟩, channel := [.rejected limited (some hourRetry)] } :=
  @reported_rejected affiliatePlatform affiliateRun limitedEvent limited limited_rejected

theorem backoff_agrees_limited : Agrees affiliatePlatform 240000 affiliateRun
    [.observe limitedEvent, .receive, .wait 240000, .tick true] := by
  have hrefused : ((system affiliatePlatform 240000).run affiliateRun
      [.observe limitedEvent]).refused? = some (limited, hourRetry) := by
    rw [run_limited]
    rfl
  refine backoff_agrees affiliatePlatform 240000 0 "run-1" true affiliateEvent.policyValue
    (some ⟨some "run-1", true⟩) _
    ⟨trivial, timely_receive hrefused (by show (0 : Int) < 3600000; decide), trivial, trivial,
      trivial⟩ ?_
  refine undisturbed_idle (by simp)
    ⟨nofun, fun _ rejection retry hnext => ?_, nofun, nofun, trivial⟩
  obtain ⟨-, rfl⟩ := Prod.mk.inj (Option.some.inj (hrefused.symm.trans (next_iff.mp hnext)))
  decide

/-- The state with a capture reported, and the refused journey right behind it. -/
theorem run_both : (system affiliatePlatform 240000).run affiliateRun
    [.observe affiliateEvent, .observe limitedEvent] =
      { affiliateRun with
        backoff := ⟨1, 3600000⟩
        channel := [.capture (JsValue.object (payloadFields affiliateEvent
            "https://merchant.example/?irclickid=7")).json,
          .rejected limited (some hourRetry)] } := by
  have hcapture : evaluateCaptureResult (affiliatePlatform.at affiliateRun.now)
      affiliateEvent.toValue none =
        .accepted "https://merchant.example/?irclickid=7" "irclickid=7" .redirectOnly := by
    decide +kernel
  have hreported := @reported_accepted affiliatePlatform affiliateRun affiliateEvent _ _ _ hcapture
  rw [EventSystem.run_cons, EventSystem.run_cons, EventSystem.run_nil]
  change reported affiliatePlatform (reported affiliatePlatform affiliateRun affiliateEvent)
    limitedEvent = _
  rw [hreported]
  exact @reported_rejected affiliatePlatform { affiliateRun with
    channel := [.capture (JsValue.object (payloadFields affiliateEvent
      "https://merchant.example/?irclickid=7")).json] } limitedEvent limited limited_rejected

/-- A capture and a rejection are reported, and the server comes to the capture last. -/
theorem retry_discarded :
    (system affiliatePlatform 240000).Along Timely affiliateRun [.observe affiliateEvent,
      .observe limitedEvent, .receive, .receive, .process, .wait 240000, .tick true] ∧
    ¬Agrees affiliatePlatform 240000 affiliateRun [.observe affiliateEvent,
      .observe limitedEvent, .receive, .receive, .process, .wait 240000, .tick true] := by
  have hcapture : ((system affiliatePlatform 240000).run affiliateRun
      [.observe affiliateEvent, .observe limitedEvent]).refused? = none := by
    rw [run_both]
    rfl
  have hread : (system affiliatePlatform 240000).run affiliateRun
      [.observe affiliateEvent, .observe limitedEvent, .receive] =
        received ((system affiliatePlatform 240000).run affiliateRun
          [.observe affiliateEvent, .observe limitedEvent]) := rfl
  have hrefused : ((system affiliatePlatform 240000).run affiliateRun
      [.observe affiliateEvent, .observe limitedEvent, .receive]).refused? =
        some (limited, hourRetry) := by
    rw [hread, run_both]
    rfl
  have hearly : (((system affiliatePlatform 240000).run affiliateRun
      [.observe affiliateEvent, .observe limitedEvent, .receive]).now : Int) <
        hourRetry.notBefore := by
    rw [hread, run_both]
    decide
  refine ⟨⟨trivial, trivial, timely_other hcapture, timely_receive hrefused hearly, trivial,
    trivial, trivial, trivial⟩, fun h => ?_⟩
  have hpasses := (h [.observe affiliateEvent, .observe limitedEvent, .receive]
    [.process, .wait 240000, .tick true] limited hourRetry rfl (next_iff.mpr hrefused)
    (by rw [hread, run_both]; decide)).2 [.process, .wait 240000] true [] rfl
    ⟨trivial, trivial, trivial⟩ (by rw [hread, run_both]; decide)
  rw [hread, run_both] at hpasses
  exact absurd hpasses (by decide +kernel)

end Sample

end LinkSuffix.Backoff
