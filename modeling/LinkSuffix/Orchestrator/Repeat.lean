import LinkSuffix.Orchestrator.Preflight
import LinkSuffix.Worker.BrowserJourney

/-!
# One repeat of a run

`runOneRepeat` and `attemptOnce` (`runner.ts`): a repeat takes a proxy lease, runs a journey through
it, and hands the lease back. When the journey fails for want of a proxy connection, before the
destination has answered, it does so once more with another lease.

* `Yield`, `TierRun`: what the iterator of a tier gives, in its events, at its end and when the loop
  over it is left. `Attempt`: what an attempt is answered from outside.
* `consume`: the `for await` loop. `attemptOnce`, `runAttempt`, `runOneRepeat`.
* `Disciplined`: the rules for attempts and leases. `BlockedFinal`: none follows on a capture that
  the target refused.
* `Overridden`: the loop is left for a refusal, and its iterator then fails as a proxy would.
* **`repeat_disciplined`**, `refused_then_replaced`.

The delay before the first attempt, the writes of the sink and the reports of the runner are inputs
where they can throw. Egress data reach the notes of an event only.
-/

namespace LinkSuffix.Repeat

open JsValue

/-! ## Failures -/

/-- `isProxyTransportFailure`, of a message. -/
def isProxyTransportFailure (message : String) : Bool :=
  (["connection_refused", "connection_reset", "network_unreachable", "connect_timeout",
    "node_unavailable"].map fun code => ProxyTransportError.message ⟨code⟩).contains message

/-- `isBlockedCapture`. -/
def isBlockedCapture (rejection : CaptureRejection) : Bool :=
  rejection.code ∈ ["cloudflare_challenge", "unresolved_challenge", "blocked_response",
      "rate_limited"] ||
    rejection.diagnostics.httpStatus.getD 0 ∈ [403, 429]

inductive FailureDomain where
  | proxy | target | unknown | cancelled
  deriving DecidableEq

/-- `ContextProxyOutcome`, without the time. -/
structure ContextProxyOutcome where
  healthy : Bool
  reason : Option String := none
  failureDomain : Option FailureDomain := none
  deriving DecidableEq

/-- A character of a word. -/
def isWordChar (c : Char) : Bool := c.isAlphanum || c = '_'

/-- `/\bword\b/`. -/
def namesWord (word value : String) : Bool :=
  let cs := value.toList
  cs.tails.any fun rest =>
    word.toList.isPrefixOf rest && !(rest.drop word.length).head?.any isWordChar &&
      !(cs.take (cs.length - rest.length)).getLast?.any isWordChar

/-- `classifyAttemptOutcome`. -/
def classifyAttemptOutcome (succeeded : Bool) (reason : String) (cancelled : Bool) :
    ContextProxyOutcome :=
  if cancelled then
    { healthy := false, reason := some "cancelled", failureDomain := some .cancelled }
  else if succeeded then { healthy := true }
  else if hasPrefix "Target rejected capture:" reason then
    { healthy := false, reason := some reason, failureDomain := some .target }
  else
    { healthy := false
      reason := some
        (if reason = "" then "Journey failed without a transport diagnosis" else reason)
      failureDomain := some (if isProxyTransportFailure reason ||
        namesWord "ERR_PROXY_CONNECTION_FAILED" reason then .proxy else .unknown) }

/-! ## What a repeat does and is answered -/

/-- `CampaignProxyLease`, as far as the runner reads it. -/
structure CampaignProxyLease where
  leaseId : String
  proxyUrl : String
  rotationMode : String
  deriving DecidableEq

inductive RepeatAction where
  | attempted
  | acquired (lease : CampaignProxyLease)
  /-- `destinationResponded` is set. -/
  | responded
  /-- A capture is refused for the target's part. -/
  | refused (code : String)
  /-- The attempt ends with an error, on a route that can be replaced or not. -/
  | failed (replaceable : Bool) (message : String)
  | released (lease : CampaignProxyLease) (outcome : ContextProxyOutcome) (acknowledged : Bool)
  /-- The attempt is skipped for its configuration. -/
  | skipped (reason : String)
  /-- The event of an error ends the repeat. -/
  | errorEvent (message : String)
  deriving DecidableEq

/-- How the runner handles an event. -/
structure Handling where
  notes : JourneyNotes
  /-- What `sink.write` throws. -/
  writing : Option String := none
  /-- What the report of the decision throws. -/
  reporting : Option String := none

/-- What comes out of `iter` at one turn of the loop. -/
structure Yield where
  event : RequestEvent
  /-- `evt.tier === 'human'`. -/
  human : Bool := true
  handling : Handling
  /-- What `iter.return()` throws, when the loop is left here. -/
  closing : Option String := none

/-- An iterator: what it yields, and what it throws after that. -/
structure TierRun where
  yields : List Yield
  ending : Option String := none

/-- What an attempt is answered. A text is a message that is thrown. -/
structure Attempt where
  /-- `proxyAllocator.acquire`. -/
  acquire : Except String (Option CampaignProxyLease) := .ok none
  /-- `buildProxyEndpoint`. -/
  endpoint : Except String Unit := .ok ()
  /-- The run is aborted when the journey begins. -/
  abortedBefore : Bool := false
  /-- `claim.attemptPreflight`. -/
  attemptPreflight : Bool := false
  preflight : Except String RedirectFirstResult := .error "not asked"
  /-- How the event of the preflight is handled. -/
  preflightHandling : Handling
  tier : TierRun
  /-- The run is aborted when the error is caught, and when the lease is handed back. -/
  abortedCaught : Bool := false
  abortedReleased : Bool := false
  /-- `proxyAllocator.release` succeeds. -/
  acknowledged : Bool := true
  /-- The run is aborted before the next attempt. -/
  abortedDelay : Bool := false

/-- The scenario, and the settings of the runner. -/
structure Setting where
  /-- `scenario.tier === 'human'`. -/
  human : Bool := true
  /-- `scenario.continuous === true`. -/
  continuous : Bool := true
  /-- `scenario.redirect_capture != null`. -/
  redirectCapture : Bool := false
  /-- `scenario.load_profile?.mode === 'burst'`. -/
  burst : Bool := false
  seedUrl : String
  /-- `enabled(process.env.TAH_REDIRECT_FIRST_ENABLED, true)`. -/
  redirectFirst : Bool := true
  /-- `process.env.TAH_NO_PROXY === '1'`. -/
  noProxy : Bool := false
  mitmUrl : Option String := none
  /-- `runtime.proxyAllocator` is there. -/
  allocator : Bool := true

/-! ## The loop over an iterator -/

/-- The variables that an attempt sets, and what it has done. -/
structure Flags where
  destinationResponded : Bool := false
  yieldedFailure : String := ""
  actions : List RepeatAction := []

namespace Flags

def respond (flags : Flags) : Flags :=
  { flags with destinationResponded := true, actions := flags.actions ++ [.responded] }

/-- `if (evt.error) yieldedFailure = evt.error`. -/
def blame (flags : Flags) (error : String) : Flags :=
  if error = "" then flags else { flags with yieldedFailure := error }

/-- `yieldedFailure = 'Target rejected capture: ' + decision.code`. -/
def refuse (flags : Flags) (code : String) : Flags :=
  { flags with
    yieldedFailure := "Target rejected capture: " ++ code
    actions := flags.actions ++ [.refused code] }

/-- `yieldedFailure ||= decision.message`. -/
def excuse (flags : Flags) (message : String) : Flags :=
  if flags.yieldedFailure = "" then { flags with yieldedFailure := message } else flags

end Flags

/-- `event.status >= 100`. -/
def hasStatus (item : RawRequestRecord) : Bool :=
  match item.status with
  | .finite status => 100 ≤ status
  | .infinity negative => !negative
  | .nan => false

/-- `event.ta_signal.request_not_sent !== 'true'`. -/
def wasSent (item : RawRequestRecord) : Bool :=
  textField item.taSignal "request_not_sent" ≠ some "true"

/-- A record of an answer of the destination. -/
def isResponse (item : RawRequestRecord) : Bool :=
  item.isMainDocument && hasStatus item &&
    (textField item.taSignal "proxy_transport_failure").getD "" = "" && wasSent item

/-- What the loop changes in an event. -/
def annotate (notes : JourneyNotes) (event : RequestEvent) : RequestEvent :=
  { event with
    repeatIndex := notes.repeatIndex
    proxyMode := notes.proxyMode
    sessionId := notes.sessionId
    geoResolved := if event.geoResolved.truthy then event.geoResolved else notes.geoResolved
    events := noteLast (noteSignal "egress_timezone" notes.egressTimezone)
      (noteLastMain notes.verdict.note event.events)
    finalVerdict :=
      if event.events ≠ [] ∧ event.finalVerdict ≠ "error" ∧ event.error.getD "" = "" then
        notes.verdict.final
      else event.finalVerdict }

section Runner

variable (platform : Platform) (setting : Setting)

/-- The decision on an event, as the runner reports it. -/
def decision (item : Yield) : CaptureOutcome :=
  evaluateCaptureResult platform (annotate item.handling.notes item.event).toValue none

/-- How a part of an attempt ends. -/
abbrev Completion := Except String Unit

def thrownOr (thrown : Option String) (rest : Completion) : Completion :=
  match thrown with
  | some message => .error message
  | none => rest

/-- The flags once an event is read. -/
def Flags.read (flags : Flags) (item : Yield) : Flags :=
  let flags := if item.event.events.any isResponse then flags.respond else flags
  flags.blame (item.event.error.getD "")

/-- `for await (const evt of iter)`. -/
def consume (flags : Flags) (ending : Option String) : List Yield → Flags × Completion
  | [] => (flags, thrownOr ending (.ok ()))
  | item :: items =>
    let flags := flags.read item
    match item.handling.writing with
    | some message => (flags, .error message)
    | none =>
      if item.human then
        match decision platform item with
        | .accepted _ _ _ =>
          match item.handling.reporting with
          | some message => (flags, .error message)
          | none => consume flags ending items
        | .rejected rejection =>
          if isBlockedCapture rejection then
            -- the loop is left, and what the iterator throws then is thrown
            (flags.refuse rejection.code,
              thrownOr item.handling.reporting (thrownOr item.closing (.ok ())))
          else
            match item.handling.reporting with
            | some message => (flags.excuse rejection.message, .error message)
            | none => consume (flags.excuse rejection.message) ending items
      else consume flags ending items

/-! ## An attempt -/

/-- `stoppedRedirect`. -/
def stoppedRedirect (resolved : RedirectFirstResult) : RequestEvent where
  repeatIndex := .finite 0
  proxyMode := "sticky-residential"
  finalLandingUrl := some (resolved.finalUrl.getD setting.seedUrl)
  events := resolved.events
  finalVerdict := "error"
  error := some ("Redirect resolution stopped: " ++ resolved.reason)

/-- `lightweightCapture`. -/
def lightweightCapture (resolved : RedirectFirstResult) : RequestEvent where
  repeatIndex := .finite 0
  proxyMode := "sticky-residential"
  finalLandingUrl := resolved.finalUrl
  events := resolved.events
  finalVerdict := "unsure"

/-- The preflight has been answered. -/
def preflightResponded (resolved : RedirectFirstResult) : Bool :=
  resolved.events.any fun item => hasStatus item && wasSent item

/-- The iterator of an attempt, and whether the preflight has been answered; or what is thrown
before there is one. -/
def iterator (input : Attempt) : Except String (Bool × TierRun) :=
  if input.abortedBefore then .error "Campaign run aborted"
  else if setting.human ∧ setting.continuous ∧ ¬setting.redirectCapture ∧ setting.redirectFirst ∧
      input.attemptPreflight then
    match input.preflight with
    | .error message => .error message
    | .ok resolved =>
      .ok (preflightResponded resolved,
        if resolved.outcome = .stopped then ofPreflight (stoppedRedirect setting resolved)
        else if resolved.outcome = .captured ∧ resolved.finalUrl.getD "" ≠ "" then
          ofPreflight (lightweightCapture resolved)
        else input.tier)
  else .ok (false, input.tier)
where
  ofPreflight (event : RequestEvent) : TierRun :=
    { yields := [{ event := event, handling := input.preflightHandling }] }

/-- `attemptOnce`. -/
def attemptOnce (input : Attempt) : Flags × Completion :=
  match iterator setting input with
  | .error message => ({}, .error message)
  | .ok (answered, tier) =>
    consume platform (if answered then Flags.respond {} else {}) tier.ending tier.yields

/-- The route of an attempt, or the error that keeps it from one. -/
inductive Route where
  | ready (lease : Option CampaignProxyLease) (replaceable : Bool)
  | unready (lease : Option CampaignProxyLease) (configuration : Bool) (message : String)

def Route.lease : Route → Option CampaignProxyLease
  | .ready lease _ => lease
  | .unready lease _ _ => lease

/-- `new URL(raw)` of the route. -/
def routed (raw : String) (lease : Option CampaignProxyLease) (replaceable : Bool) : Route :=
  if (platform.parse raw).isSome then .ready lease replaceable
  else .unready lease false "Invalid URL"

def route (input : Attempt) : Route :=
  if setting.noProxy then .ready none false
  else
    match if setting.allocator then input.acquire else .ok none with
    | .error message => .unready none false message
    | .ok (some lease) =>
      if setting.human ∧ lease.rotationMode ≠ "sticky-session" then
        .unready lease true "Browser journeys require a sticky-session proxy policy"
      else routed platform lease.proxyUrl lease setting.human
    | .ok none =>
      match setting.mitmUrl.filter (· ≠ "") with
      | some url => routed platform url none false
      | none =>
        match input.endpoint with
        | .error message => .unready none true message
        | .ok () => .ready none setting.human

/-- The error of an attempt on a route. -/
def failure (replaceable : Bool) (result : Flags × Completion) : Option String :=
  match result.2 with
  | .error message => some message
  | .ok () =>
    if replaceable ∧ ¬result.1.destinationResponded ∧
        isProxyTransportFailure result.1.yieldedFailure then some result.1.yieldedFailure
    else none

/-- How an attempt leaves the loop over the attempts. -/
inductive AttemptEnd where
  | returned
  | thrown (message : String)
  | broke (message : String)
  | failover (message : String)

/-- The `catch` block. -/
def caught (input : Attempt) (last responded replaceable configuration : Bool) (message : String) :
    List RepeatAction × AttemptEnd :=
  if configuration then ([.failed replaceable message, .skipped message], .returned)
  else if input.abortedCaught then ([.failed replaceable message], .thrown "Campaign run aborted")
  else if replaceable ∧ ¬responded ∧ isProxyTransportFailure message ∧ ¬last then
    ([.failed replaceable message], .failover message)
  else ([.failed replaceable message], .broke message)

/-- A release that fails disables the next attempt. -/
def AttemptEnd.settle (acknowledged : Bool) : AttemptEnd → AttemptEnd
  | .failover message => if acknowledged then .failover message else .broke message
  | ending => ending

/-- The `finally` block, after what the attempt has done. -/
def handBack (input : Attempt) (lease : Option CampaignProxyLease) (succeeded : Bool)
    (reason : String) (done : List RepeatAction × AttemptEnd) : List RepeatAction × AttemptEnd :=
  match lease with
  | none => done
  | some lease =>
    (done.1 ++ [.released lease (classifyAttemptOutcome succeeded reason input.abortedReleased)
      input.acknowledged], done.2.settle input.acknowledged)

/-- What an attempt does on its route, up to the `finally` block, and how it is classified. -/
def journey (input : Attempt) (last : Bool) : Route → List RepeatAction × AttemptEnd × Bool × String
  | .unready _ configuration message =>
    let (actions, ending) := caught input last false false configuration message
    (actions, ending, false, message)
  | .ready _ replaceable =>
    let result := attemptOnce platform setting input
    match failure replaceable result with
    | some message =>
      let (actions, ending) :=
        caught input last result.1.destinationResponded replaceable false message
      (result.1.actions ++ actions, ending, false, message)
    | none =>
      (result.1.actions, .returned, result.1.yieldedFailure = "", result.1.yieldedFailure)

/-- One turn of the loop over the attempts. -/
def runAttempt (input : Attempt) (last : Bool) : List RepeatAction × AttemptEnd :=
  let route := route platform setting input
  let (actions, ending, succeeded, reason) := journey platform setting input last route
  handBack input route.lease succeeded reason
    (.attempted :: (route.lease.map RepeatAction.acquired).toList ++ actions, ending)

/-- The loop over the attempts, and the event of an error after it. -/
def runAttempts (inputs : Nat → Attempt) (attempt : Nat) (lastErr : String) :
    Nat → List RepeatAction × Completion
  | 0 => ([.errorEvent lastErr], .ok ())
  | remaining + 1 =>
    let (actions, ending) := runAttempt platform setting (inputs attempt) (remaining = 0)
    match ending with
    | .returned => (actions, .ok ())
    | .thrown message => (actions, .error message)
    | .broke message => (actions ++ [.errorEvent message], .ok ())
    | .failover message =>
      if (inputs attempt).abortedDelay then (actions, .error "Campaign run aborted")
      else
        let (more, completion) := runAttempts inputs (attempt + 1) message remaining
        (actions ++ more, completion)

/-- `maxAttempts`. -/
def Setting.maxAttempts : Nat := if setting.burst then 1 else 2

/-- `runOneRepeat`; `abortedWait` says that the run is aborted in the delay before it. -/
def runOneRepeat (abortedWait : Bool) (inputs : Nat → Attempt) : List RepeatAction × Completion :=
  if abortedWait then ([], .error "Campaign run aborted")
  else runAttempts platform setting inputs 0 "undefined" setting.maxAttempts

/-! ## The rules -/

def RepeatAction.isLease : RepeatAction → Bool
  | .acquired _ => true
  | .released _ _ _ => true
  | _ => false

/-- The rules for attempts and leases. -/
structure Disciplined (actions : List RepeatAction) : Prop where
  twice : actions.count .attempted ≤ 2
  /-- What an attempt must have been, for another one to follow. -/
  replaced : ∀ before done after, actions = before ++ .attempted :: (done ++ .attempted :: after) →
    .responded ∉ done ∧
      (∃ message, .failed true message ∈ done ∧ isProxyTransportFailure message = true) ∧
      ∀ lease outcome acknowledged, .released lease outcome acknowledged ∈ done →
        acknowledged = true
  /-- A lease is handed back once, before the next one is taken and before the end. -/
  leases : ∃ taken : List (CampaignProxyLease × ContextProxyOutcome × Bool),
    actions.filter RepeatAction.isLease =
      taken.flatMap fun t => [.acquired t.1, .released t.1 t.2.1 t.2.2]

/-- No attempt follows on a capture that is refused for the target's part. -/
def BlockedFinal (actions : List RepeatAction) : Prop :=
  ∀ before code after, actions = before ++ .refused code :: after → .attempted ∉ after

/-- The events of an iterator, up to one that is refused for the target's part: none records a
response, and when the loop is left what is thrown is a failure of the proxy. -/
def dropsRefusal : List Yield → Bool
  | [] => false
  | item :: items =>
    if item.event.events.any isResponse then false
    else if item.handling.writing.isSome then false
    else if item.human then
      match decision platform item with
      | .accepted _ _ _ => item.handling.reporting.isNone && dropsRefusal items
      | .rejected rejection =>
        if isBlockedCapture rejection then
          (item.handling.reporting.or item.closing).any isProxyTransportFailure
        else item.handling.reporting.isNone && dropsRefusal items
    else dropsRefusal items

/-- A refusal is lost to an error that follows on it, on a route that can be replaced. -/
structure Overridden (abortedWait : Bool) (inputs : Nat → Attempt) : Prop where
  begun : abortedWait = false
  replaceable : ∃ lease, route platform setting (inputs 0) = .ready lease true ∧
    (lease.isSome = true → (inputs 0).acknowledged = true)
  dropped : ∃ tier, iterator setting (inputs 0) = .ok (false, tier) ∧
    dropsRefusal platform tier.yields = true
  steady : setting.burst = false
  uncaught : (inputs 0).abortedCaught = false
  undelayed : (inputs 0).abortedDelay = false

end Runner

/-! ## What a loop over an iterator leaves -/

theorem transport_head {message : String} (h : isProxyTransportFailure message = true) :
    message.toList.head? = some 'P' := by
  unfold isProxyTransportFailure at h
  obtain ⟨code, -, rfl⟩ := List.mem_map.mp (List.contains_iff_mem.mp h)
  unfold ProxyTransportError.message
  rw [String.toList_append]
  rfl

theorem refusal_untransported (code : String) :
    isProxyTransportFailure ("Target rejected capture: " ++ code) = false := by
  rw [Bool.eq_false_iff]
  intro h
  have hhead := transport_head h
  rw [String.toList_append] at hhead
  cases hhead

/-- The actions of a loop are its own, and tell whether the destination has responded. -/
structure Flags.Sound (flags : Flags) : Prop where
  responded : .responded ∈ flags.actions ↔ flags.destinationResponded = true
  own : ∀ action ∈ flags.actions, action = .responded ∨ ∃ code, action = .refused code

section Loop

variable {platform : Platform} {setting : Setting} {flags : Flags} {ending : Option String}

theorem Flags.Sound.empty : Flags.Sound {} where
  responded := by simp
  own := fun _ h => by cases h

theorem Flags.Sound.respond (h : flags.Sound) : flags.respond.Sound where
  responded := by simp [Flags.respond]
  own := by
    intro action haction
    rcases List.mem_append.mp haction with hold | hnew
    · exact h.own action hold
    · exact .inl (List.mem_singleton.mp hnew)

theorem Flags.Sound.refuse (h : flags.Sound) (code : String) : (flags.refuse code).Sound where
  responded := by
    unfold Flags.refuse
    rw [List.mem_append, h.responded]
    simp
  own := by
    intro action haction
    rcases List.mem_append.mp haction with hold | hnew
    · exact h.own action hold
    · exact .inr ⟨code, List.mem_singleton.mp hnew⟩

theorem blame_actions (error : String) : (flags.blame error).actions = flags.actions ∧
    (flags.blame error).destinationResponded = flags.destinationResponded := by
  unfold Flags.blame
  split <;> exact ⟨rfl, rfl⟩

theorem excuse_actions (message : String) : (flags.excuse message).actions = flags.actions ∧
    (flags.excuse message).destinationResponded = flags.destinationResponded := by
  unfold Flags.excuse
  split <;> exact ⟨rfl, rfl⟩

/-- Only the actions of the flags and whether there was a response count. -/
theorem Flags.Sound.congr {flags' : Flags} (h : flags.Sound)
    (hsame : flags'.actions = flags.actions ∧
      flags'.destinationResponded = flags.destinationResponded) : flags'.Sound := by
  obtain ⟨hactions, hresponded⟩ := hsame
  exact ⟨by rw [hactions, hresponded]; exact h.responded, by rw [hactions]; exact h.own⟩

theorem Flags.Sound.read (h : flags.Sound) (item : Yield) : (flags.read item).Sound := by
  unfold Flags.read
  dsimp only
  split
  · exact h.respond.congr (blame_actions _)
  · exact h.congr (blame_actions _)

/-- One turn keeps what its parts keep. -/
theorem consume_step {P : Flags → Prop} {item : Yield} {items : List Yield}
    (hexcuse : ∀ flags message, P flags → P (flags.excuse message))
    (hrefuse : ∀ flags code, P flags → P (flags.refuse code))
    (hrest : ∀ flags, P flags → P (consume platform flags ending items).1)
    (h : P (flags.read item)) : P (consume platform flags ending (item :: items)).1 := by
  unfold consume
  dsimp only
  split
  · exact h
  · split
    · split
      · split
        · exact h
        · exact hrest _ h
      · split
        · exact hrefuse _ _ h
        · split
          · exact hexcuse _ _ h
          · exact hrest _ (hexcuse _ _ h)
    · exact hrest _ h

theorem consume_inv {P : Flags → Prop} (hread : ∀ flags item, P flags → P (flags.read item))
    (hexcuse : ∀ flags message, P flags → P (flags.excuse message))
    (hrefuse : ∀ flags code, P flags → P (flags.refuse code)) (h : P flags) (items : List Yield) :
    P (consume platform flags ending items).1 := by
  induction items generalizing flags with
  | nil => exact h
  | cons item items ih =>
    exact consume_step hexcuse hrefuse (fun _ h => ih h) (hread flags item h)

theorem consume_sound (h : flags.Sound) (items : List Yield) :
    (consume platform flags ending items).1.Sound :=
  consume_inv (P := Flags.Sound) (fun _ item h => h.read item)
    (fun _ message h => h.congr (excuse_actions message)) (fun _ code h => h.refuse code) h items

theorem read_responded {item : Yield} :
    (flags.read item).destinationResponded =
      (item.event.events.any isResponse || flags.destinationResponded) := by
  unfold Flags.read
  dsimp only
  rw [(blame_actions _).2]
  split
  · rename_i hresponse
    rw [hresponse]
    rfl
  · rename_i hresponse
    rw [Bool.eq_false_iff.mpr hresponse]
    rfl

theorem consume_responded (h : flags.destinationResponded = true) (items : List Yield) :
    (consume platform flags ending items).1.destinationResponded = true := by
  refine consume_inv (P := fun flags => flags.destinationResponded = true) (fun flags item h => ?_)
    (fun _ message h => (excuse_actions message).2.trans h) (fun _ _ h => h) h items
  rw [read_responded, h, Bool.or_true]

/-- A refusal is followed by a failure of the proxy, and no response was seen. -/
structure Lost (result : Flags × Completion) : Prop where
  refused : ∃ code, .refused code ∈ result.1.actions
  silent : result.1.destinationResponded = false
  transport : ∃ message, failure true result = some message ∧
    isProxyTransportFailure message = true

theorem not_lost_of_unrefused {result : Flags × Completion}
    (h : ∀ code, .refused code ∉ result.1.actions) : ¬Lost result := by
  rintro ⟨⟨code, hcode⟩, -, -⟩
  exact h code hcode

/-- The failure of a loop that was left for a refusal. -/
theorem failure_refused {thrown : Option String} (code message : String) :
    (failure true (flags.refuse code, thrownOr thrown (.ok ())) = some message ∧
      isProxyTransportFailure message = true) ↔
      thrown = some message ∧ isProxyTransportFailure message = true := by
  cases thrown with
  | some text => exact Iff.rfl
  | none =>
    have hnone : failure true (flags.refuse code, thrownOr none (.ok ())) = none := by
      unfold failure thrownOr
      dsimp only
      rw [if_neg]
      rintro ⟨-, -, htransport⟩
      have huntransported := refusal_untransported code
      rw [show (flags.refuse code).yieldedFailure = "Target rejected capture: " ++ code from rfl]
        at htransport
      rw [huntransported] at htransport
      cases htransport
    rw [hnone]

theorem thrownOr_or (thrown thrown' : Option String) (rest : Completion) :
    thrownOr thrown (thrownOr thrown' rest) = thrownOr (thrown.or thrown') rest := by
  cases thrown <;> rfl

/-- A loop that is left for a refusal loses it to what is thrown then. -/
theorem lost_refused_iff (hsilent : flags.destinationResponded = false) {thrown : Option String}
    {code : String} : Lost (flags.refuse code, thrownOr thrown (.ok ())) ↔
      thrown.any isProxyTransportFailure = true := by
  rw [Option.any_eq_true]
  constructor
  · rintro ⟨-, -, message, htransport⟩
    exact ⟨message, (failure_refused code message).mp htransport⟩
  · rintro ⟨message, hthrown⟩
    exact ⟨⟨code, List.mem_append_right _ List.mem_cons_self⟩, hsilent, message,
      (failure_refused code message).mpr hthrown⟩

/-- No capture has been refused for the target's part yet. -/
def Flags.Unrefused (flags : Flags) : Prop := ∀ code, .refused code ∉ flags.actions

theorem Flags.Unrefused.read (h : flags.Unrefused) (item : Yield) :
    (flags.read item).Unrefused := by
  intro code hcode
  unfold Flags.read at hcode
  dsimp only at hcode
  rw [(blame_actions _).1] at hcode
  split at hcode
  · rcases List.mem_append.mp hcode with hold | hnew
    · exact h code hold
    · cases List.mem_singleton.mp hnew
  · exact h code hcode

/-- **A refusal is lost** exactly in a loop that drops it. -/
theorem consume_lost_iff (hsilent : flags.destinationResponded = false) (h : flags.Unrefused)
    (items : List Yield) :
    Lost (consume platform flags ending items) ↔ dropsRefusal platform items = true := by
  induction items generalizing flags with
  | nil => exact iff_of_false (not_lost_of_unrefused h) Bool.false_ne_true
  | cons item items ih =>
    have hread := h.read item
    unfold dropsRefusal
    by_cases hresponse : item.event.events.any isResponse = true
    · -- a response stays seen
      rw [if_pos hresponse]
      refine iff_of_false (fun hlost => ?_) Bool.false_ne_true
      have hresponded : (flags.read item).destinationResponded = true := by
        rw [read_responded, hresponse]
        rfl
      have hkept : (consume platform flags ending (item :: items)).1.destinationResponded = true :=
        consume_step (P := fun flags => flags.destinationResponded = true)
          (fun _ message h => (excuse_actions message).2.trans h) (fun _ _ h => h)
          (fun _ h => consume_responded h items) hresponded
      rw [hlost.silent] at hkept
      cases hkept
    · rw [if_neg hresponse]
      have hquiet : (flags.read item).destinationResponded = false := by
        rw [read_responded, hsilent, Bool.eq_false_iff.mpr hresponse]
        rfl
      unfold consume
      dsimp only
      cases hwriting : item.handling.writing with
      | some message => exact iff_of_false (not_lost_of_unrefused hread) Bool.false_ne_true
      | none =>
        rw [if_neg (show ¬(none : Option String).isSome = true from Bool.false_ne_true)]
        dsimp only
        split
        · cases hdecision : decision platform item with
          | accepted finalUrl suffix evidence =>
            dsimp only
            cases hreporting : item.handling.reporting with
            | some message => exact iff_of_false (not_lost_of_unrefused hread) Bool.false_ne_true
            | none => exact ih hquiet hread
          | rejected rejection =>
            dsimp only
            have hexcused : (Flags.excuse (flags.read item) rejection.message).Unrefused := by
              intro code
              rw [(excuse_actions rejection.message).1]
              exact hread code
            split
            · rw [thrownOr_or, ← lost_refused_iff hquiet]
            · cases hreporting : item.handling.reporting with
              | some message =>
                exact iff_of_false (not_lost_of_unrefused hexcused) Bool.false_ne_true
              | none => exact ih ((excuse_actions rejection.message).2.trans hquiet) hexcused
        · exact ih hquiet hread

end Loop

/-! ## What an attempt leaves -/

section Attempts

variable {platform : Platform} {setting : Setting} {input : Attempt} {last : Bool}
  {message : String}

theorem attemptOnce_sound : (attemptOnce platform setting input).1.Sound := by
  unfold attemptOnce
  split
  · exact Flags.Sound.empty
  · refine consume_sound ?_ _
    split
    · exact Flags.Sound.empty.respond
    · exact Flags.Sound.empty

theorem attempt_lost_iff : Lost (attemptOnce platform setting input) ↔
    ∃ tier, iterator setting input = .ok (false, tier) ∧
      dropsRefusal platform tier.yields = true := by
  have hempty : Flags.Unrefused {} := fun _ h => by cases h
  unfold attemptOnce
  cases iterator setting input with
  | error message =>
    refine iff_of_false (not_lost_of_unrefused hempty) ?_
    rintro ⟨_, h, -⟩
    cases h
  | ok pair =>
    obtain ⟨answered, tier⟩ := pair
    dsimp only
    cases answered with
    | true =>
      refine iff_of_false (fun hlost => ?_) ?_
      · have hresponded :=
          @consume_responded platform (Flags.respond {}) tier.ending rfl tier.yields
        have hsilent := hlost.silent
        rw [if_pos rfl, hresponded] at hsilent
        cases hsilent
      · rintro ⟨_, h, -⟩
        cases h
    | false =>
      rw [if_neg Bool.false_ne_true, consume_lost_iff rfl hempty]
      constructor
      · exact fun h => ⟨tier, rfl, h⟩
      · rintro ⟨_, h, hdrops⟩
        cases h
        exact hdrops

/-- The `catch` block lets another attempt follow. -/
theorem caught_failover_iff {responded replaceable configuration : Bool} {error : String} :
    (caught input last responded replaceable configuration error).2 = .failover message ↔
      configuration = false ∧ input.abortedCaught = false ∧ replaceable = true ∧ responded = false ∧
        last = false ∧ error = message ∧ isProxyTransportFailure message = true := by
  unfold caught
  cases configuration with
  | true =>
    refine iff_of_false nofun ?_
    rintro ⟨h, -⟩
    cases h
  | false =>
    cases input.abortedCaught with
    | true =>
      refine iff_of_false nofun ?_
      rintro ⟨-, h, -⟩
      cases h
    | false =>
      rw [if_neg Bool.false_ne_true, if_neg Bool.false_ne_true]
      split
      · rename_i h
        obtain ⟨hreplaceable, hresponded, htransport, hlast⟩ := h
        constructor
        · intro hend
          obtain rfl := AttemptEnd.failover.inj hend
          exact ⟨rfl, rfl, hreplaceable, Bool.eq_false_iff.mpr hresponded,
            Bool.eq_false_iff.mpr hlast, rfl, htransport⟩
        · rintro ⟨-, -, -, -, -, rfl, -⟩
          rfl
      · rename_i h
        refine iff_of_false nofun ?_
        rintro ⟨-, -, hreplaceable, hresponded, hlast, rfl, htransport⟩
        exact h ⟨hreplaceable, Bool.eq_false_iff.mp hresponded, htransport,
          Bool.eq_false_iff.mp hlast⟩

/-- An action of an attempt on its route. -/
def Inner (action : RepeatAction) : Prop := action ≠ .attempted ∧ action.isLease = false

theorem caught_inner {responded replaceable configuration : Bool} {error : String} :
    ∀ action ∈ (caught input last responded replaceable configuration error).1, Inner action ∧
      (∀ code, action ≠ .refused code) ∧ action ≠ .responded := by
  intro action haction
  unfold caught at haction
  split at haction
  · rcases List.mem_cons.mp haction with rfl | haction
    · exact ⟨⟨nofun, rfl⟩, nofun, nofun⟩
    · obtain rfl := List.mem_singleton.mp haction
      exact ⟨⟨nofun, rfl⟩, nofun, nofun⟩
  · split at haction
    · obtain rfl := List.mem_singleton.mp haction
      exact ⟨⟨nofun, rfl⟩, nofun, nofun⟩
    · split at haction
      · obtain rfl := List.mem_singleton.mp haction
        exact ⟨⟨nofun, rfl⟩, nofun, nofun⟩
      · obtain rfl := List.mem_singleton.mp haction
        exact ⟨⟨nofun, rfl⟩, nofun, nofun⟩

theorem caught_failed {responded replaceable configuration : Bool} {error : String} :
    .failed replaceable error ∈
      (caught input last responded replaceable configuration error).1 := by
  unfold caught
  split
  · exact List.mem_cons_self
  · split
    · exact List.mem_cons_self
    · split <;> exact List.mem_cons_self

theorem Flags.Sound.inner {flags : Flags} (h : flags.Sound) :
    ∀ action ∈ flags.actions, Inner action := by
  intro action haction
  rcases h.own action haction with rfl | ⟨code, rfl⟩
  · exact ⟨nofun, rfl⟩
  · exact ⟨nofun, rfl⟩

theorem journey_inner (route : Route) :
    ∀ action ∈ (journey platform setting input last route).1, Inner action := by
  intro action haction
  unfold journey at haction
  cases route with
  | unready lease configuration message => exact (caught_inner action haction).1
  | ready lease replaceable =>
    dsimp only at haction
    split at haction
    · rcases List.mem_append.mp haction with hown | hcaught
      · exact attemptOnce_sound.inner action hown
      · exact (caught_inner action hcaught).1
    · exact attemptOnce_sound.inner action haction

/-- An attempt that another one can follow, before its lease is handed back. -/
structure Replaceable (platform : Platform) (setting : Setting) (input : Attempt)
    (message : String) : Prop where
  uncaught : input.abortedCaught = false
  silent : (attemptOnce platform setting input).1.destinationResponded = false
  failed : failure true (attemptOnce platform setting input) = some message
  transport : isProxyTransportFailure message = true

theorem journey_failover_iff (route : Route) :
    (journey platform setting input last route).2.1 = .failover message ↔
      last = false ∧ (∃ lease, route = .ready lease true) ∧
        Replaceable platform setting input message := by
  unfold journey
  cases route with
  | unready lease configuration error =>
    dsimp only
    rw [caught_failover_iff]
    constructor
    · rintro ⟨-, -, h, -⟩
      cases h
    · rintro ⟨-, ⟨_, h⟩, -⟩
      cases h
  | ready lease replaceable =>
    dsimp only
    constructor
    · intro h
      split at h
      · rename_i error herror
        obtain ⟨-, huncaught, hreplaceable, hsilent, hlast, rfl, htransport⟩ :=
          caught_failover_iff.mp h
        rw [hreplaceable] at herror
        exact ⟨hlast, ⟨lease, by rw [hreplaceable]⟩, huncaught, hsilent, herror, htransport⟩
      · cases h
    · rintro ⟨hlast, ⟨_, h⟩, huncaught, hsilent, hfailed, htransport⟩
      obtain ⟨rfl, rfl⟩ := Route.ready.inj h
      rw [hfailed]
      exact caught_failover_iff.mpr ⟨rfl, huncaught, rfl, hsilent, hlast, rfl, htransport⟩

/-- What stands in an attempt that another one can follow. -/
theorem journey_replaced {lease : Option CampaignProxyLease}
    (h : Replaceable platform setting input message) :
    (∀ action ∈ (journey platform setting input last (.ready lease true)).1,
        action ≠ .responded) ∧
      .failed true message ∈ (journey platform setting input last (.ready lease true)).1 ∧
      ∀ code, .refused code ∈ (journey platform setting input last (.ready lease true)).1 ↔
        .refused code ∈ (attemptOnce platform setting input).1.actions := by
  have hactions : (journey platform setting input last (.ready lease true)).1 =
      (attemptOnce platform setting input).1.actions ++ (caught input last
        (attemptOnce platform setting input).1.destinationResponded true false message).1 := by
    unfold journey
    dsimp only
    rw [h.failed]
  rw [hactions]
  refine ⟨fun action haction hresponded => ?_, List.mem_append_right _ caught_failed,
    fun code => ?_⟩
  · subst hresponded
    rcases List.mem_append.mp haction with hown | hcaught
    · have hsilent := h.silent
      rw [attemptOnce_sound.responded.mp hown] at hsilent
      cases hsilent
    · exact (caught_inner _ hcaught).2.2 rfl
  · rw [List.mem_append]
    refine ⟨fun hcode => hcode.resolve_right fun hcaught => ?_, .inl⟩
    exact (caught_inner _ hcaught).2.1 code rfl

theorem settle_failover_iff {ending : AttemptEnd} {acknowledged : Bool} :
    ending.settle acknowledged = .failover message ↔
      ending = .failover message ∧ acknowledged = true := by
  unfold AttemptEnd.settle
  cases ending with
  | failover error =>
    cases acknowledged with
    | true => exact (and_iff_left rfl).symm
    | false => exact iff_of_false nofun nofun
  | returned => exact iff_of_false nofun nofun
  | thrown error => exact iff_of_false nofun nofun
  | broke error => exact iff_of_false nofun nofun

theorem runAttempt_failover_iff : (runAttempt platform setting input last).2 = .failover message ↔
    last = false ∧ (∃ lease, route platform setting input = .ready lease true ∧
      (lease.isSome = true → input.acknowledged = true)) ∧
      Replaceable platform setting input message := by
  unfold runAttempt
  dsimp only
  generalize hroute : route platform setting input = found
  have hjourney := @journey_failover_iff platform setting input last message found
  unfold handBack
  cases hlease : found.lease with
  | none =>
    dsimp only
    rw [hjourney]
    constructor
    · rintro ⟨hlast, ⟨lease, rfl⟩, hreplaceable⟩
      obtain rfl : lease = none := hlease
      exact ⟨hlast, ⟨none, rfl, nofun⟩, hreplaceable⟩
    · rintro ⟨hlast, ⟨lease, rfl, -⟩, hreplaceable⟩
      exact ⟨hlast, ⟨lease, rfl⟩, hreplaceable⟩
  | some lease =>
    dsimp only
    rw [settle_failover_iff, hjourney]
    constructor
    · rintro ⟨⟨hlast, ⟨lease', rfl⟩, hreplaceable⟩, hacknowledged⟩
      exact ⟨hlast, ⟨lease', rfl, fun _ => hacknowledged⟩, hreplaceable⟩
    · rintro ⟨hlast, ⟨lease', rfl, hacknowledged⟩, hreplaceable⟩
      obtain rfl : lease' = some lease := hlease
      exact ⟨⟨hlast, ⟨some lease, rfl⟩, hreplaceable⟩, hacknowledged rfl⟩

/-- An attempt begins, takes its lease, makes its journey and hands the lease back. -/
theorem runAttempt_actions : ∃ outcome, (runAttempt platform setting input last).1 =
    .attempted :: (((route platform setting input).lease.map RepeatAction.acquired).toList ++
      (journey platform setting input last (route platform setting input)).1 ++
      ((route platform setting input).lease.map fun lease =>
        .released lease outcome input.acknowledged).toList) := by
  unfold runAttempt
  dsimp only
  generalize route platform setting input = found
  unfold handBack
  cases found.lease with
  | none => exact ⟨⟨true, none, none⟩, (List.append_nil _).symm⟩
  | some lease => exact ⟨_, by simp only [List.cons_append]; rfl⟩

theorem filter_lease_inner {actions : List RepeatAction} (h : ∀ action ∈ actions, Inner action) :
    actions.filter RepeatAction.isLease = [] :=
  List.filter_eq_nil_iff.mpr fun action haction =>
    Bool.eq_false_iff.mp (h action haction).2

/-- The leases of an attempt. -/
theorem runAttempt_leases : ∃ taken : List (CampaignProxyLease × ContextProxyOutcome × Bool),
    (runAttempt platform setting input last).1.filter RepeatAction.isLease =
      taken.flatMap fun t => [.acquired t.1, .released t.1 t.2.1 t.2.2] := by
  obtain ⟨outcome, hactions⟩ := @runAttempt_actions platform setting input last
  have hinner := @journey_inner platform setting input last (route platform setting input)
  rw [hactions, List.filter_cons_of_neg Bool.false_ne_true, List.filter_append, List.filter_append,
    filter_lease_inner hinner]
  cases (route platform setting input).lease with
  | none => exact ⟨[], rfl⟩
  | some lease => exact ⟨[(lease, outcome, input.acknowledged)], rfl⟩

/-- An attempt begins once, before everything that it does. -/
theorem runAttempt_begins : ∃ done,
    (runAttempt platform setting input last).1 = .attempted :: done ∧ .attempted ∉ done := by
  obtain ⟨outcome, hactions⟩ := @runAttempt_actions platform setting input last
  refine ⟨_, hactions, fun hmem => ?_⟩
  rcases List.mem_append.mp hmem with hmem | hmem
  · rcases List.mem_append.mp hmem with hmem | hmem
    · cases hlease : (route platform setting input).lease <;> rw [hlease] at hmem <;> simp at hmem
    · exact (journey_inner _ _ hmem).1 rfl
  · cases hlease : (route platform setting input).lease <;> rw [hlease] at hmem <;> simp at hmem

/-- What stands in an attempt that another one follows on. -/
theorem failover_done {done : List RepeatAction}
    (h : (runAttempt platform setting input last).2 = .failover message)
    (hdone : (runAttempt platform setting input last).1 = .attempted :: done) :
    .responded ∉ done ∧
      (∃ message, .failed true message ∈ done ∧ isProxyTransportFailure message = true) ∧
      ∀ lease outcome acknowledged, .released lease outcome acknowledged ∈ done →
        acknowledged = true := by
  obtain ⟨-, ⟨lease, hroute, hacknowledged⟩, hreplaceable⟩ := runAttempt_failover_iff.mp h
  obtain ⟨outcome, hactions⟩ := @runAttempt_actions platform setting input last
  obtain ⟨hsilent, hfailed, -⟩ := @journey_replaced platform setting input last message lease
    hreplaceable
  have hinner := @journey_inner platform setting input last (.ready lease true)
  rw [hdone, hroute] at hactions
  obtain ⟨-, rfl⟩ := List.cons.inj hactions
  refine ⟨fun hresponded => ?_, ⟨message, ?_, hreplaceable.transport⟩, ?_⟩
  · rcases List.mem_append.mp hresponded with hmem | hmem
    · rcases List.mem_append.mp hmem with hmem | hmem
      · cases lease <;> simp [Route.lease] at hmem
      · exact hsilent _ hmem rfl
    · cases lease <;> simp [Route.lease] at hmem
  · exact List.mem_append_left _ (List.mem_append_right _ hfailed)
  · intro lease' outcome' acknowledged hreleased
    rcases List.mem_append.mp hreleased with hmem | hmem
    · rcases List.mem_append.mp hmem with hmem | hmem
      · cases lease <;> simp [Route.lease] at hmem
      · cases (hinner _ hmem).2
    · cases lease with
      | none => cases hmem
      | some lease =>
        obtain ⟨-, -, rfl⟩ := RepeatAction.released.inj (List.mem_singleton.mp hmem)
        exact hacknowledged rfl

end Attempts

/-! ## The whole repeat -/

section Repeats

variable {platform : Platform} {setting : Setting} {inputs : Nat → Attempt} {abortedWait : Bool}

/-- What follows on the last attempt. -/
def Tail (actions : List RepeatAction) : Prop :=
  ∀ action ∈ actions, ∃ message, action = .errorEvent message

/-- Another attempt follows on the first one. -/
def Follows (platform : Platform) (setting : Setting) (abortedWait : Bool)
    (inputs : Nat → Attempt) : Prop :=
  abortedWait = false ∧ setting.burst = false ∧ (inputs 0).abortedDelay = false ∧
    ∃ message, (runAttempt platform setting (inputs 0) false).2 = .failover message

theorem runAttempts_last (attempt : Nat) (lastErr : String) :
    ∃ tail, Tail tail ∧ (runAttempts platform setting inputs attempt lastErr 1).1 =
      (runAttempt platform setting (inputs attempt) true).1 ++ tail := by
  unfold runAttempts
  dsimp only [decide_true]
  split
  · exact ⟨[], nofun, (List.append_nil _).symm⟩
  · exact ⟨[], nofun, (List.append_nil _).symm⟩
  · rename_i message _
    exact ⟨[.errorEvent message], fun _ h => ⟨message, List.mem_singleton.mp h⟩, rfl⟩
  · rename_i message hfailover
    obtain ⟨hlast, -⟩ := runAttempt_failover_iff.mp hfailover
    cases hlast

theorem runOneRepeat_cases :
    (runOneRepeat platform setting abortedWait inputs).1 = [] ∧
        ¬Follows platform setting abortedWait inputs ∨
      (∃ last tail, Tail tail ∧ (runOneRepeat platform setting abortedWait inputs).1 =
          (runAttempt platform setting (inputs 0) last).1 ++ tail ∧
        ¬Follows platform setting abortedWait inputs) ∨
      ∃ tail, Tail tail ∧ (runOneRepeat platform setting abortedWait inputs).1 =
          (runAttempt platform setting (inputs 0) false).1 ++
            ((runAttempt platform setting (inputs 1) true).1 ++ tail) ∧
        Follows platform setting abortedWait inputs := by
  unfold runOneRepeat
  cases abortedWait with
  | true => exact .inl ⟨rfl, fun h => Bool.noConfusion h.1⟩
  | false =>
    rw [if_neg Bool.false_ne_true]
    unfold Setting.maxAttempts
    cases hburst : setting.burst with
    | true =>
      obtain ⟨tail, htail, hactions⟩ := @runAttempts_last platform setting inputs 0 "undefined"
      refine .inr (.inl ⟨true, tail, htail, hactions, fun h => ?_⟩)
      rw [h.2.1] at hburst
      cases hburst
    | false =>
      rw [if_neg Bool.false_ne_true]
      unfold runAttempts
      rw [show decide (1 = 0) = false from rfl]
      have hsingle {actions : List RepeatAction} (tail : List RepeatAction) (htail : Tail tail)
          (hactions : actions = (runAttempt platform setting (inputs 0) false).1 ++ tail)
          (hend : ∀ message, (runAttempt platform setting (inputs 0) false).2 = .failover message →
            (inputs 0).abortedDelay = true) :
          ∃ last tail', Tail tail' ∧ actions =
              (runAttempt platform setting (inputs 0) last).1 ++ tail' ∧
            ¬Follows platform setting false inputs := by
        refine ⟨false, tail, htail, hactions, ?_⟩
        rintro ⟨-, -, hdelay, message, hmessage⟩
        rw [hend message hmessage] at hdelay
        cases hdelay
      dsimp only
      split
      · rename_i hended
        exact .inr (.inl (hsingle [] nofun (List.append_nil _).symm
          fun _ h => by rw [hended] at h; cases h))
      · rename_i hended
        exact .inr (.inl (hsingle [] nofun (List.append_nil _).symm
          fun _ h => by rw [hended] at h; cases h))
      · rename_i message hended
        exact .inr (.inl (hsingle [.errorEvent message]
          (fun _ h => ⟨message, List.mem_singleton.mp h⟩) rfl
          fun _ h => by rw [hended] at h; cases h))
      · rename_i message hended
        split
        · rename_i hdelay
          exact .inr (.inl (hsingle [] nofun (List.append_nil _).symm fun _ _ => hdelay))
        · rename_i hdelay
          obtain ⟨tail, htail, hactions⟩ := @runAttempts_last platform setting inputs 1 message
          refine .inr (.inr ⟨tail, htail, ?_, rfl, hburst, Bool.eq_false_iff.mpr hdelay, message,
            hended⟩)
          rw [← hactions]

/-- What keeps another attempt from being lost on a refusal. -/
theorem overridden_iff : Overridden platform setting abortedWait inputs ↔
    Follows platform setting abortedWait inputs ∧
      ∃ code, .refused code ∈ (runAttempt platform setting (inputs 0) false).1 := by
  have hrefused {lease : Option CampaignProxyLease} {message : String}
      (hroute : route platform setting (inputs 0) = .ready lease true)
      (h : Replaceable platform setting (inputs 0) message) (code : String) :
      .refused code ∈ (runAttempt platform setting (inputs 0) false).1 ↔
        .refused code ∈ (attemptOnce platform setting (inputs 0)).1.actions := by
    obtain ⟨outcome, hactions⟩ := @runAttempt_actions platform setting (inputs 0) false
    rw [hactions, hroute, ← (@journey_replaced platform setting (inputs 0) false message lease
      h).2.2 code]
    cases lease <;> simp [Route.lease]
  constructor
  · rintro ⟨hbegun, ⟨lease, hroute, hacknowledged⟩, hdropped, hsteady, huncaught, hundelayed⟩
    obtain ⟨⟨code, hcode⟩, hsilent, message, hfailed, htransport⟩ := attempt_lost_iff.mpr hdropped
    have hreplaceable : Replaceable platform setting (inputs 0) message :=
      ⟨huncaught, hsilent, hfailed, htransport⟩
    refine ⟨⟨hbegun, hsteady, hundelayed, message, ?_⟩, code, ?_⟩
    · exact runAttempt_failover_iff.mpr ⟨rfl, ⟨lease, hroute, hacknowledged⟩, hreplaceable⟩
    · exact (hrefused hroute hreplaceable code).mpr hcode
  · rintro ⟨⟨hbegun, hsteady, hundelayed, message, hmessage⟩, code, hcode⟩
    obtain ⟨-, ⟨lease, hroute, hacknowledged⟩, hreplaceable⟩ := runAttempt_failover_iff.mp hmessage
    refine ⟨hbegun, ⟨lease, hroute, hacknowledged⟩, attempt_lost_iff.mp ⟨⟨code, ?_⟩, ?_, ?_⟩,
      hsteady, hreplaceable.uncaught, hundelayed⟩
    · exact (hrefused hroute hreplaceable code).mp hcode
    · exact hreplaceable.silent
    · exact ⟨message, hreplaceable.failed, hreplaceable.transport⟩

theorem tail_unattempted {tail : List RepeatAction} (h : Tail tail) : .attempted ∉ tail := by
  intro hmem
  obtain ⟨message, hmessage⟩ := h _ hmem
  cases hmessage

theorem tail_leases {tail : List RepeatAction} (h : Tail tail) :
    tail.filter RepeatAction.isLease = [] := by
  refine List.filter_eq_nil_iff.mpr fun action haction => ?_
  obtain ⟨message, rfl⟩ := h action haction
  exact Bool.false_ne_true

/-- An attempt that no other one follows on. -/
theorem last_attempt {done before after : List RepeatAction} {action : RepeatAction}
    (hdone : .attempted ∉ done) (h : .attempted :: done = before ++ action :: after) :
    .attempted ∉ after := by
  intro hmem
  cases before with
  | nil => exact hdone ((List.cons.inj h).2 ▸ hmem)
  | cons first before =>
    rw [(List.cons.inj h).2] at hdone
    exact hdone (List.mem_append_right _ (List.mem_cons_of_mem _ hmem))

/-- The only attempt before the last one. -/
theorem attempts_split {done rest before done' after : List RepeatAction}
    (hdone : .attempted ∉ done) (hrest : .attempted ∉ rest)
    (h : .attempted :: (done ++ .attempted :: rest) =
      before ++ .attempted :: (done' ++ .attempted :: after)) : done' = done := by
  cases before with
  | nil =>
    exact ((List.append_cons_inj_of_notMem hdone hrest).mp (List.cons.inj h).2).1.symm
  | cons first before =>
    obtain ⟨-, -, htail⟩ := (List.append_cons_inj_of_notMem hdone hrest).mp (List.cons.inj h).2
    rw [htail] at hrest
    exact absurd (List.mem_append_right _ List.mem_cons_self) hrest

/-- The rules of attempts and leases hold whatever happens. -/
theorem disciplined : Disciplined (runOneRepeat platform setting abortedWait inputs).1 := by
  rcases @runOneRepeat_cases platform setting inputs abortedWait with ⟨hactions, -⟩ |
      ⟨last, tail, htail, hactions, -⟩ | ⟨tail, htail, hactions, -, -, -, message, hmessage⟩
  · rw [hactions]
    refine ⟨Nat.zero_le _, fun before done after h => ?_, [], rfl⟩
    cases before <;> cases h
  · obtain ⟨done, hbegins, hdone⟩ := @runAttempt_begins platform setting (inputs 0) last
    obtain ⟨taken, htaken⟩ := @runAttempt_leases platform setting (inputs 0) last
    have honce : .attempted ∉ done ++ tail := fun hmem =>
      (List.mem_append.mp hmem).elim hdone (tail_unattempted htail)
    rw [hactions]
    refine ⟨?_, fun before done' after h => ?_, taken, ?_⟩
    · rw [hbegins, List.cons_append, List.count_cons_self, List.count_eq_zero.mpr honce]
      exact Nat.le_succ _
    · rw [hbegins, List.cons_append] at h
      exact absurd (List.mem_append_right _ List.mem_cons_self) (last_attempt honce h)
    · rw [List.filter_append, tail_leases htail, List.append_nil, htaken]
  · obtain ⟨done, hbegins, hdone⟩ := @runAttempt_begins platform setting (inputs 0) false
    obtain ⟨done', hbegins', hdone'⟩ := @runAttempt_begins platform setting (inputs 1) true
    obtain ⟨taken, htaken⟩ := @runAttempt_leases platform setting (inputs 0) false
    obtain ⟨taken', htaken'⟩ := @runAttempt_leases platform setting (inputs 1) true
    have honce : .attempted ∉ done' ++ tail := fun hmem =>
      (List.mem_append.mp hmem).elim hdone' (tail_unattempted htail)
    rw [hactions]
    refine ⟨?_, fun before between after h => ?_, taken ++ taken', ?_⟩
    · rw [hbegins, hbegins', List.cons_append, List.cons_append, List.count_cons_self,
        List.count_append, List.count_cons_self, List.count_eq_zero.mpr hdone,
        List.count_eq_zero.mpr honce]
    · rw [hbegins, hbegins', List.cons_append, List.cons_append] at h
      obtain rfl := attempts_split hdone honce h
      exact failover_done hmessage hbegins
    · rw [List.filter_append, List.filter_append, tail_leases htail, List.append_nil, htaken,
        htaken', List.flatMap_append]

/-- An attempt follows on a refusal exactly where the refusal is lost. -/
theorem blockedFinal_iff : BlockedFinal (runOneRepeat platform setting abortedWait inputs).1 ↔
    ¬Overridden platform setting abortedWait inputs := by
  rw [overridden_iff]
  rcases @runOneRepeat_cases platform setting inputs abortedWait with ⟨hactions, hend⟩ |
      ⟨last, tail, htail, hactions, hend⟩ | ⟨tail, htail, hactions, hfollows⟩
  · refine iff_of_true (fun before code after h => ?_) fun h => hend h.1
    rw [hactions] at h
    cases before <;> cases h
  · refine iff_of_true (fun before code after h => ?_) fun h => hend h.1
    obtain ⟨done, hbegins, hdone⟩ := @runAttempt_begins platform setting (inputs 0) last
    rw [hactions, hbegins, List.cons_append] at h
    exact last_attempt (fun hmem =>
      (List.mem_append.mp hmem).elim hdone (tail_unattempted htail)) h
  · obtain ⟨done, hbegins, hdone⟩ := @runAttempt_begins platform setting (inputs 1) true
    have honce : .attempted ∉ done ++ tail := fun hmem =>
      (List.mem_append.mp hmem).elim hdone (tail_unattempted htail)
    rw [hactions, hbegins, List.cons_append]
    constructor
    · rintro hfinal ⟨-, code, hcode⟩
      obtain ⟨before, after, hsplit⟩ := List.append_of_mem hcode
      refine hfinal before code (after ++ .attempted :: (done ++ tail)) ?_
        (List.mem_append_right _ List.mem_cons_self)
      rw [hsplit, List.append_assoc, List.cons_append]
    · intro hunrefused before code after h
      rcases List.append_eq_append_iff.mp h with ⟨mid, -, hmid⟩ | ⟨mid, hfirst, hmid⟩
      · exact last_attempt honce hmid
      · cases mid with
        | nil => cases hmid
        | cons action mid =>
          obtain ⟨rfl, -⟩ := List.cons.inj hmid
          refine absurd ⟨hfollows, code, ?_⟩ hunrefused
          rw [hfirst]
          exact List.mem_append_right _ List.mem_cons_self

end Repeats

/-- **The discipline of a repeat**: whatever an attempt is answered, there are two attempts at most,
the second one only where the first failed for want of a proxy, unanswered, and handed its lease
back; leases are handed back once, before anything else is taken; and no attempt follows on a
refused capture, exactly where the refusal is not lost to a failure that follows it. -/
theorem repeat_disciplined (platform : Platform) (setting : Setting) (abortedWait : Bool)
    (inputs : Nat → Attempt) :
    Disciplined (runOneRepeat platform setting abortedWait inputs).1 ∧
      (BlockedFinal (runOneRepeat platform setting abortedWait inputs).1 ↔
        ¬Overridden platform setting abortedWait inputs) :=
  ⟨disciplined, blockedFinal_iff⟩

section Sample

/-- A journey to the shop, which answers with 403; the record does not say that it is the main
document. -/
def forbiddenEvent : RequestEvent where
  repeatIndex := .finite 0
  proxyMode := "sticky-residential"
  finalLandingUrl := some "https://shop.example/?irclickid=7"
  events := [{
    url := "https://shop.example/?irclickid=7", method := "GET", status := .finite 403
    timeMs := .finite 1, headers := [], taSignal := [("main_document", "false")] }]
  finalVerdict := "unsure"

/-- What the runner makes of the event. -/
def forbiddenHandling : Handling where
  notes := {
    verdict := {
      final := "block"
      reason := "http_status: block"
      strategies := "\x7b\"http_status\":\"block\"\x7d" }
    proxyMode := "sticky-residential" }

/-- The shop refuses the capture, and the tier fails when it is closed. -/
def forbiddenAttempt : Attempt where
  preflightHandling := forbiddenHandling
  tier := { yields := [{
    event := forbiddenEvent, handling := forbiddenHandling
    closing := some "Proxy transport failure: connection_reset" }] }

/-- The refused capture is followed by another attempt. -/
theorem refused_then_replaced :
    ¬∀ (platform : Platform) (setting : Setting) (abortedWait : Bool) (inputs : Nat → Attempt),
      BlockedFinal (runOneRepeat platform setting abortedWait inputs).1 := by
  intro h
  have hactions : (runOneRepeat trackerPlatform
      { seedUrl := "https://tracker.example/start", allocator := false } false
      fun _ => forbiddenAttempt).1 =
      [.attempted, .refused "blocked_response",
        .failed true "Proxy transport failure: connection_reset", .attempted,
        .refused "blocked_response", .failed true "Proxy transport failure: connection_reset",
        .errorEvent "Proxy transport failure: connection_reset"] := by
    decide +kernel
  exact h _ _ _ _ [.attempted] "blocked_response" _ hactions
    (List.mem_cons_of_mem _ List.mem_cons_self)

end Sample

end LinkSuffix.Repeat
