import LinkSuffix.Contracts.Reading
import LinkSuffix.Worker.BrowserJourney
import LinkSuffix.Worker.RedirectFirst

/-!
# Captures from a redirect alone

`runRedirectCapture` (`redirectCapture.ts`): a browser follows the tracking URL as far as the policy
lets it, and the last `Location` of the approved issuer is the capture. The listeners of the browser,
of the egress guard, of the abort signal and of the timer race to decide the outcome; the first to
call `stop` has decided it.

* `openCapture`: what is refused before anything is acquired.
* `Capture`: what the listeners share, and the call the generator awaits.
* `onUpstreamFailure`, `onRoute`, `onResponse`: the listeners. `resumeCapture`: the generator goes on.
* `captures`: the event system. Every order of the events is a run. `runRedirectCapture`: a run as a
  whole.
* `Confined`: what the listeners and the generator never do, in any state of a run.
* **`capture_confined`**.

Where a listener may be called is where it is registered by then; it is not taken away when the
generator has ended. Which template is drawn, and the egress data, are inputs.
-/

namespace LinkSuffix.BrowserCapture

open JsValue Lib

/-! ## The scenario -/

structure CaptureConfig where
  seedUrl : String
  /-- `scenario.redirect_capture`. -/
  redirectCapture : JsValue
  /-- `scenario.tier === 'human'`. -/
  human : Bool := true
  /-- `scenario.entry?.mode === 'natural_click'`. -/
  naturalClick : Bool := false
  proxyMode : String := "sticky-residential"
  /-- `engine`, of the template that is drawn. -/
  engine : String
  /-- `geo_resolved`, of the egress that is verified. -/
  geoResolved : JsValue := .undefined

/-- The policy of a scenario that may be captured so, or what is thrown. -/
def openCapture (P : UrlParser) (cfg : CaptureConfig) (aborted : Bool) :
    Except String RedirectCapturePolicy := do
  match ← parseRedirectCapturePolicy P cfg.redirectCapture (some cfg.seedUrl) with
  | none => throw "Redirect-only capture requires an explicit direct-entry browser policy"
  | some policy =>
    if ¬cfg.human ∨ cfg.naturalClick then
      throw "Redirect-only capture requires an explicit direct-entry browser policy"
    if aborted then throw "Campaign journey aborted"
    if cfg.proxyMode ≠ "sticky-residential" then
      throw "Redirect-only capture requires one stable proxy session"
    return policy

/-- The policy as an object. -/
def policyFields (policy : RedirectCapturePolicy) : List (String × JsValue) :=
  [("mode", .string "redirect_only"), ("issuer_origin", .string policy.issuerOrigin),
    ("destination_origin", .string policy.destinationOrigin),
    ("required_parameter", policy.requiredParameter),
    ("navigation_origins", .ofTexts policy.navigationOrigins)]

/-! ## The state -/

inductive Resource where
  | permit | lease | guard | context
  deriving DecidableEq

/-- The call that the generator awaits. -/
inductive Stage where
  /-- `verifyProxyEgressStability`. -/
  | verifying
  /-- `acquireBrowserPermit`. -/
  | acquiring
  /-- `acquireBrowserLease`. -/
  | leasing
  /-- `createPublicEgressProxy`. -/
  | guarding
  /-- `newContext`. -/
  | opening
  /-- `context.route`. -/
  | routing
  /-- `newPage`. -/
  | paging
  /-- `finished`. -/
  | awaiting
  /-- The `finally` block, with what it has to release and what was thrown. -/
  | cleaning (held : List Resource) (thrown : Option String)
  | ended
  deriving DecidableEq

/-- How far the generator has come. -/
def Stage.order : Stage → Nat
  | .verifying => 0
  | .acquiring => 1
  | .leasing => 2
  | .guarding => 3
  | .opening => 4
  | .routing => 5
  | .paging => 6
  | .awaiting => 7
  | .cleaning _ _ => 8
  | .ended => 9

/-- What the listeners share. -/
structure Capture where
  stage : Stage := .verifying
  completed : Bool := false
  finalUrl : String
  error : Option String := none
  events : List RawRequestRecord := []
  /-- The calls of `route.continue` and `route.abort` that a listener awaits. -/
  pendingRoutes : Nat := 0
  aborted : Bool := false

inductive Action where
  /-- `route.continue`. -/
  | continued (url : String)
  /-- `route.abort`. -/
  | blocked (url : String)
  | released (resource : Resource)
  | threw (message : String)
  | yielded (event : RequestEvent)

namespace Capture

/-- `stop`. -/
def stop (s : Capture) (message : Option String) : Capture :=
  if s.completed then s else { s with completed := true, error := message }

/-- `events.push(…)`. -/
def push (s : Capture) (item : RawRequestRecord) : Capture :=
  { s with events := s.events ++ [item] }

end Capture

/-! ## The listeners -/

/-- The record of a response. -/
def captureRecord (engine : String) (res : PageResponse) (timeMs : JsNumber) : RawRequestRecord where
  url := res.url
  method := res.request.method
  status := .finite res.status
  timeMs := timeMs
  headers := res.headers
  taSignal := [("main_document", "true"), ("capture_path", "browser-redirect-only"),
    ("destination_visited", "false"), ("egress_guard", "origin_allowlist"),
    ("browser_identity", "native"), ("browser_engine", engine),
    ("ua_actual", res.request.userAgent)]

/-- What the validator is asked about. -/
def candidate (policy : RedirectCapturePolicy) (s : Capture) : JsValue :=
  .object [("final_landing_url", .string s.finalUrl), ("final_verdict", .string "unsure"),
    ("redirect_capture", .object (policyFields policy)),
    ("events", .array (s.events.map fun item => .object item.fields))]

section Listeners

variable (platform : Platform) (isIP : String → Nat) (policy : RedirectCapturePolicy)
  (cfg : CaptureConfig) (s : Capture)

def onUpstreamFailure (hostname : String) (failure : UpstreamFailure) (timeMs : JsNumber) :
    Capture :=
  if s.completed ∨ ¬policy.navigationOrigins.any (fun origin =>
      hostnameOf platform.toUrlParser origin = some hostname) then s
  else
    let s :=
      match failure with
      | .response status retryAfter rayId =>
        s.push (connectRecord hostname status retryAfter rayId timeMs)
      | _ => s
    s.stop "Upstream connection failed before redirect verification"

/-- `context.route('**/*', …)`, up to the call that it awaits. -/
def onRoute (request : PageRequest) (timeMs : JsNumber) : Capture × List Action :=
  match publicHttpUrl platform.toUrlParser isIP request.url with
  | none =>
    (s.stop "Redirect request was outside the approved routing policy", [.blocked request.url])
  | some url =>
    let s := { s with pendingRoutes := s.pendingRoutes + 1 }
    if s.completed ∨ url.origin ∉ policy.navigationOrigins then (s, [.blocked request.url])
    else
      match
        if request.isTopLevelNavigation then
          edgeStopForResponse platform (.object [("url", .string request.url),
            ("status", .number (.finite 0)), ("headers", .object [])])
        else none with
      | some refusal =>
        ((s.push (routeRecord request timeMs)).stop refusal.message, [.blocked request.url])
      | none => (s, [.continued request.url])

/-- What a route listener awaits has ended. -/
def onRouteSettled (failed : Bool) : Capture :=
  if s.pendingRoutes = 0 then s
  else
    let s := { s with pendingRoutes := s.pendingRoutes - 1 }
    if failed then s.stop "Redirect request was outside the approved routing policy" else s

/-- The message of a decision. -/
def decisionMessage (decision : CaptureOutcome) : Option String :=
  match decision with
  | .accepted _ _ _ => none
  | .rejected rejection => some rejection.message

/-- `context.on('response', …)`. -/
def onResponse (res : PageResponse) (timeMs : JsNumber) (now : Int) : Capture :=
  if s.completed ∨ ¬res.isMain then s
  else
    let record := captureRecord cfg.engine res timeMs
    let s := s.push record
    if 32 < s.events.length then s.stop "Redirect hop limit exceeded"
    else
      match edgeStopForResponse platform (.object record.fields) with
      | some refusal => { s with finalUrl := record.url }.stop refusal.message
      | none =>
        match platform.parse record.url with
        | none => s.stop "Unable to validate redirect response evidence"
        | some url =>
          if url.origin ∉ policy.navigationOrigins then
            s.stop "Unexpected response outside the approved tracking origins"
          else
            match (redirectLocationForPolicy platform.toUrlParser policy (.string record.url)
              record.status (JsValue.ofStrings record.headers).record).bind JsValue.text? with
            | none => s
            | some location =>
              let s := { s with finalUrl := location }
              s.stop (decisionMessage
                (evaluateCaptureResult (platform.at now) (candidate policy s) none))

/-! ## The generator -/

/-- The event that is yielded. -/
def captureEvent : RequestEvent where
  redirectCapture := some (policyFields policy)
  repeatIndex := .finite 0
  geoResolved := cfg.geoResolved
  proxyMode := cfg.proxyMode
  finalLandingUrl := some s.finalUrl
  events := s.events
  finalVerdict := if s.error.getD "" = "" then "unsure" else "error"
  error := s.error

/-- The `finally` block ends, and what comes after it. -/
def finishCapture (held : List Resource) (thrown failure : Option String) : Capture × List Action :=
  let s := { s with stage := .ended }
  match failure, thrown with
  | some _, _ =>
    (s, (held.filter fun resource => resource ∈ [.lease, .permit]).map .released ++
      [.threw "Redirect capture cleanup failed; proxy replacement is disabled"])
  | none, some message => (s, held.map .released ++ [.threw message])
  | none, none =>
    if s.aborted then (s, held.map .released ++ [.threw "Campaign journey aborted"])
    else (s, held.map .released ++ [.yielded (captureEvent policy cfg s)])

/-- The awaited call ends, with what it throws. -/
def resumeCapture (failure : Option String) : Capture × List Action :=
  let goTo (stage : Stage) : Capture × List Action := ({ s with stage := stage }, [])
  let clean (held : List Resource) (message : String) := goTo (.cleaning held (some message))
  match s.stage, failure with
  | .verifying, none => goTo .acquiring
  | .verifying, some message => ({ s with stage := .ended }, [.threw message])
  | .acquiring, none =>
    if s.aborted then clean [.permit] "Campaign journey aborted" else goTo .leasing
  | .acquiring, some message => ({ s with stage := .ended }, [.threw message])
  | .leasing, none => goTo .guarding
  | .leasing, some message => clean [.permit] message
  | .guarding, none => goTo .opening
  | .guarding, some message => clean [.lease, .permit] message
  | .opening, none =>
    let s := { s with stage := .routing }
    (if s.aborted then s.stop "Campaign journey aborted" else s, [])
  | .opening, some message => clean [.guard, .lease, .permit] message
  | .routing, none => goTo .paging
  | .routing, some message => clean [.context, .guard, .lease, .permit] message
  | .paging, none => goTo .awaiting
  | .paging, some message => clean [.context, .guard, .lease, .permit] message
  | .awaiting, _ =>
    if s.completed then goTo (.cleaning [.context, .guard, .lease, .permit] none) else (s, [])
  | .cleaning held thrown, failure => finishCapture policy cfg s held thrown failure
  | .ended, _ => (s, [])

/-- The abort signal. -/
def onAbort : Capture :=
  let s := { s with aborted := true }
  -- its listener is there from `newContext` on, until the `finally` block
  if 5 ≤ s.stage.order ∧ s.stage.order < 8 then s.stop "Campaign journey aborted" else s

end Listeners

/-! ## Runs -/

inductive Event where
  | resume (failure : Option String)
  | abort
  | upstream (hostname : String) (failure : UpstreamFailure) (timeMs : JsNumber)
  | close
  | route (request : PageRequest) (timeMs : JsNumber)
  | routeSettled (failed : Bool)
  | response (res : PageResponse) (timeMs : JsNumber) (now : Int)
  /-- A main response that cannot be read. -/
  | unreadable
  | timer

def captures (platform : Platform) (isIP : String → Nat) (policy : RedirectCapturePolicy)
    (cfg : CaptureConfig) : EventSystem Capture Event (List Action) where
  step s event :=
    let listening (order : Nat) (next : Capture × List Action) : Capture × List Action :=
      if order ≤ s.stage.order then next else (s, [])
    match event with
    | .resume failure => resumeCapture policy cfg s failure
    | .abort => (onAbort s, [])
    | .upstream hostname failure timeMs =>
      listening 4 (onUpstreamFailure platform policy s hostname failure timeMs, [])
    | .close => listening 5 (s.stop "Browser context closed before redirect verification", [])
    | .route request timeMs => listening 5 (onRoute platform isIP policy s request timeMs)
    | .routeSettled failed => (onRouteSettled s failed, [])
    | .response res timeMs now => listening 6 (onResponse platform policy cfg s res timeMs now, [])
    | .unreadable => listening 6 (s.stop "Unable to validate redirect response evidence", [])
    | .timer =>
      if s.stage = .awaiting then
        (s.stop "Approved affiliate redirect was not received before the deadline", [])
      else (s, [])

/-- A capture that begins. -/
def opened (cfg : CaptureConfig) (aborted : Bool) : Capture :=
  { finalUrl := cfg.seedUrl, aborted := aborted }

/-- What a run does, in order. -/
def actions (platform : Platform) (isIP : String → Nat) (policy : RedirectCapturePolicy)
    (cfg : CaptureConfig) (aborted : Bool) (events : List Event) : List Action :=
  (captures platform isIP policy cfg).collect (captures platform isIP policy cfg).reply
    (opened cfg aborted) events

/-- `runRedirectCapture`: the actions of a run, where the scenario may be captured so. -/
def runRedirectCapture (platform : Platform) (isIP : String → Nat) (cfg : CaptureConfig)
    (aborted : Bool) (events : List Event) : List Action :=
  match openCapture platform.toUrlParser cfg aborted with
  | .error message => [.threw message]
  | .ok policy => actions platform isIP policy cfg aborted events

def Action.event? : Action → Option RequestEvent
  | .yielded event => some event
  | _ => none

/-- The validator accepts an event, at a time. -/
def Accepts (platform : Platform) (now : Int) (event : RequestEvent) : Prop :=
  ∃ finalUrl suffix shown, evaluateCaptureResult (platform.at now) event.toValue none =
    .accepted finalUrl suffix shown

/-- The `Location` of a record, as it was sent. -/
def sentLocation (item : RawRequestRecord) : Option String :=
  (item.headers.find? fun header => jsLower header.1 = "location").map (·.2)

/-- What holds in a state that a run reaches, whatever happens next. -/
structure Confined (platform : Platform) (isIP : String → Nat) (policy : RedirectCapturePolicy)
    (cfg : CaptureConfig) (aborted : Bool) (past : List Event) (event : Event) (s s' : Capture)
    (reply : List Action) : Prop where
  /-- A request that goes on is to an origin of the policy, before the outcome is decided. -/
  continues : ∀ url, .continued url ∈ reply → s.completed = false ∧ ∃ target,
    publicHttpUrl platform.toUrlParser isIP url = some target ∧
      target.origin ∈ policy.navigationOrigins
  /-- A decided outcome stays, and nothing is recorded. -/
  settled : s.completed = true → s'.completed = true ∧ s'.events = s.events ∧ s'.error = s.error ∧
    s'.finalUrl = s.finalUrl
  once : ((actions platform isIP policy cfg aborted (past ++ [event])).filterMap
    Action.event?).length ≤ 1
  released : ∀ result, .yielded result ∈ reply → reply = [.released .context, .released .guard,
    .released .lease, .released .permit, .yielded result]
  judged : ∀ result, .yielded result ∈ reply → ∀ now,
    (result.error = none ↔ Accepts platform now result)
  exactBytes : ∀ result, .yielded result ∈ reply → result.error = none → ∃ main location,
    (result.events.filter (·.isMainDocument)).getLast? = some main ∧
      sentLocation main = some location ∧ result.finalLandingUrl = some location
  /-- A refusal that is recorded is never followed by an accepted capture. -/
  refused : ∀ item ∈ s.events, (edgeStopForResponse platform (.object item.fields)).isSome = true →
    ∀ more result, .yielded result ∈ actions platform isIP policy cfg aborted (past ++ more) →
      ∀ now, ¬Accepts platform now result

/-! ## Decisions -/

section Decisions

variable {platform : Platform} {isIP : String → Nat} {policy : RedirectCapturePolicy}
  {cfg : CaptureConfig} {s : Capture}

theorem stop_of_completed (h : s.completed = true) (message : Option String) :
    s.stop message = s := if_pos h

theorem stop_events (message : Option String) : (s.stop message).events = s.events := by
  unfold Capture.stop
  split <;> rfl

theorem stop_stage (message : Option String) : (s.stop message).stage = s.stage := by
  unfold Capture.stop
  split <;> rfl

/-- The outcome of an accepted capture. -/
structure Approved (platform : Platform) (policy : RedirectCapturePolicy) (s : Capture) : Prop where
  accepted : ∃ now finalUrl suffix shown, evaluateCaptureResult (platform.at now)
    (candidate policy s) none = .accepted finalUrl suffix shown
  location : ∃ main, s.events.getLast? = some main ∧ sentLocation main = some s.finalUrl

/-- What the listeners keep. -/
structure Kept (platform : Platform) (policy : RedirectCapturePolicy) (s : Capture) : Prop where
  main : ∀ item ∈ s.events, item.isMainDocument = true
  approved : s.completed = true → s.error = none → Approved platform policy s
  message : ∀ message, s.error = some message → message ≠ ""
  /-- A capture that ends without an error thrown was decided, and holds everything. -/
  cleaning : ∀ held, s.stage = .cleaning held none →
    held = [.context, .guard, .lease, .permit] ∧ s.completed = true

/-- Only what `Kept` reads counts. -/
theorem Kept.congr {s' : Capture} (h : Kept platform policy s) (hevents : s'.events = s.events)
    (hfinal : s'.finalUrl = s.finalUrl) (hcompleted : s'.completed = s.completed)
    (herror : s'.error = s.error)
    (hstage : ∀ held, s'.stage = .cleaning held none →
      held = [.context, .guard, .lease, .permit] ∧ s.completed = true) :
    Kept platform policy s' := by
  have hcandidate : candidate policy s' = candidate policy s := by
    unfold candidate
    rw [hevents, hfinal]
  refine ⟨by rw [hevents]; exact h.main, fun hdone hnone => ?_, by rw [herror]; exact h.message,
    by rw [hcompleted]; exact hstage⟩
  rw [hcompleted] at hdone
  rw [herror] at hnone
  obtain ⟨haccepted, hlocation⟩ := h.approved hdone hnone
  exact ⟨by rw [hcandidate]; exact haccepted, by rw [hevents, hfinal]; exact hlocation⟩

theorem Kept.stop (h : Kept platform policy s) {message : String} (hmessage : message ≠ "") :
    Kept platform policy (s.stop message) := by
  unfold Capture.stop
  split
  · exact h
  · refine ⟨h.main, fun _ => nofun, fun other hother => ?_, fun held hheld => ?_⟩
    · exact Option.some.inj hother ▸ hmessage
    · exact ⟨(h.cleaning held hheld).1, rfl⟩

theorem Kept.push (h : Kept platform policy s) (hopen : s.completed = false)
    {item : RawRequestRecord} (hitem : item.isMainDocument = true) :
    Kept platform policy (s.push item) := by
  refine ⟨fun other hother => ?_, fun hdone => ?_, h.message, h.cleaning⟩
  · rcases List.mem_append.mp hother with hold | hnew
    · exact h.main other hold
    · exact List.mem_singleton.mp hnew ▸ hitem
  · exact absurd (hopen.symm.trans hdone) Bool.false_ne_true

/-- The landing URL of a capture that is not decided is of no account. -/
theorem Kept.retarget (h : Kept platform policy s) (hopen : s.completed = false) (finalUrl : String) :
    Kept platform policy { s with finalUrl := finalUrl } :=
  ⟨h.main, fun hdone => absurd (hopen.symm.trans hdone) Bool.false_ne_true, h.message, h.cleaning⟩

theorem Kept.upstream (h : Kept platform policy s) (hostname : String) (failure : UpstreamFailure)
    (timeMs : JsNumber) :
    Kept platform policy (onUpstreamFailure platform policy s hostname failure timeMs) := by
  unfold onUpstreamFailure
  split
  · exact h
  · rename_i hopen
    rw [not_or, Bool.not_eq_true] at hopen
    refine Kept.stop ?_ (by decide)
    split
    · exact h.push hopen.1 rfl
    · exact h

theorem Kept.routed (h : Kept platform policy s) (request : PageRequest) (timeMs : JsNumber) :
    Kept platform policy (onRoute platform isIP policy s request timeMs).1 := by
  have hpending : Kept platform policy { s with pendingRoutes := s.pendingRoutes + 1 } :=
    h.congr rfl rfl rfl rfl h.cleaning
  unfold onRoute
  split
  · exact h.stop (by decide)
  · dsimp only
    split
    · exact hpending
    · rename_i hopen
      rw [not_or, Bool.not_eq_true] at hopen
      split
      · rename_i refusal hrefusal
        split at hrefusal
        · exact (hpending.push hopen.1 rfl).stop (edgeStop_message hrefusal)
        · cases hrefusal
      · exact hpending

theorem Kept.routeSettled (h : Kept platform policy s) (failed : Bool) :
    Kept platform policy (onRouteSettled s failed) := by
  have hpending : Kept platform policy { s with pendingRoutes := s.pendingRoutes - 1 } :=
    h.congr rfl rfl rfl rfl h.cleaning
  unfold onRouteSettled
  split
  · exact h
  · dsimp only
    split
    · exact hpending.stop (by decide)
    · exact hpending

/-- An accepted capture is decided. -/
theorem Kept.accept (h : Kept platform policy s) (happroved : Approved platform policy s) :
    Kept platform policy (s.stop none) := by
  unfold Capture.stop
  split
  · exact h
  · exact ⟨h.main, fun _ _ => ⟨happroved.accepted, happroved.location⟩, fun _ => nofun,
      fun held hheld => ⟨(h.cleaning held hheld).1, rfl⟩⟩

/-- The approved `Location` is the one that the record has. -/
theorem sentLocation_of_approved {item : RawRequestRecord} {location : String} {status : JsNumber}
    {url : JsValue} (h : (redirectLocationForPolicy platform.toUrlParser policy url status
      (JsValue.ofStrings item.headers).record).bind JsValue.text? = some location) :
    sentLocation item = some location := by
  obtain ⟨value, hvalue, htext⟩ := Option.bind_eq_some_iff.mp h
  obtain ⟨-, -, ⟨name, hheader⟩, -⟩ := redirectLocationForPolicy_spec hvalue
  have hrecord : (JsValue.ofStrings item.headers).record =
      item.headers.map fun header => (header.1, .string header.2) := rfl
  rw [hrecord, List.find?_map] at hheader
  obtain ⟨header, hfound, heq⟩ := Option.map_eq_some_iff.mp hheader
  obtain ⟨rfl, rfl⟩ := Prod.mk.inj heq
  unfold sentLocation
  rw [show (fun header : String × String => decide (jsLower header.1 = "location")) =
    (fun entry => decide (jsLower entry.1 = "location")) ∘
      fun header => (header.1, JsValue.string header.2) from rfl, hfound]
  exact htext

theorem Kept.responded (h : Kept platform policy s) (res : PageResponse) (timeMs : JsNumber)
    (now : Int) : Kept platform policy (onResponse platform policy cfg s res timeMs now) := by
  unfold onResponse
  split
  · exact h
  · rename_i hopen
    rw [not_or, Bool.not_eq_true] at hopen
    have hpushed : Kept platform policy (s.push (captureRecord cfg.engine res timeMs)) :=
      h.push hopen.1 rfl
    dsimp only
    split
    · exact hpushed.stop (by decide)
    · split
      · rename_i refusal hrefusal
        exact (hpushed.retarget hopen.1 _).stop (edgeStop_message hrefusal)
      · split
        · exact hpushed.stop (by decide)
        · split
          · exact hpushed.stop (by decide)
          · split
            · exact hpushed
            · rename_i location hlocation
              have htarget := hpushed.retarget hopen.1 location
              cases hdecision : evaluateCaptureResult (platform.at now) (candidate policy
                { s.push (captureRecord cfg.engine res timeMs) with finalUrl := location })
                none with
              | rejected rejection => exact htarget.stop (rejected_message hdecision)
              | accepted finalUrl suffix shown =>
                refine htarget.accept ⟨⟨now, finalUrl, suffix, shown, hdecision⟩,
                  captureRecord cfg.engine res timeMs, ?_, sentLocation_of_approved hlocation⟩
                exact List.getLast?_concat

/-- The generator goes on to a call that is not the end of a good capture. -/
theorem Kept.goTo (h : Kept platform policy s) {stage : Stage}
    (hstage : ∀ held, stage ≠ .cleaning held none) :
    Kept platform policy { s with stage := stage } :=
  h.congr rfl rfl rfl rfl fun held hheld => absurd hheld (hstage held)

theorem finishCapture_fst (held : List Resource) (thrown failure : Option String) :
    (finishCapture policy cfg s held thrown failure).1 = { s with stage := .ended } := by
  unfold finishCapture
  dsimp only
  split
  · rfl
  · rfl
  · split <;> rfl

theorem Kept.resumed (h : Kept platform policy s) (failure : Option String) :
    Kept platform policy (resumeCapture policy cfg s failure).1 := by
  unfold resumeCapture
  dsimp only
  split
  case h_3 =>
    split
    · exact h.goTo nofun
    · exact h.goTo nofun
  case h_9 =>
    have hrouting : Kept platform policy { s with stage := .routing } := h.goTo nofun
    split
    · exact hrouting.stop (by decide)
    · exact hrouting
  case h_15 =>
    split
    · rename_i hdone
      refine h.congr rfl rfl rfl rfl fun held hheld => ?_
      injection hheld with hheld
      exact ⟨hheld.symm, hdone⟩
    · exact h
  case h_16 =>
    rw [finishCapture_fst]
    exact h.goTo nofun
  case h_17 => exact h
  all_goals exact h.goTo nofun

theorem Kept.aborts (h : Kept platform policy s) : Kept platform policy (onAbort s) := by
  have haborted : Kept platform policy { s with aborted := true } :=
    h.congr rfl rfl rfl rfl h.cleaning
  unfold onAbort
  dsimp only
  split
  · exact haborted.stop (by decide)
  · exact haborted

/-- A listener that may be there already. -/
theorem Kept.listening (h : Kept platform policy s) {order : Prop} [Decidable order]
    {next : Capture × List Action} (hnext : Kept platform policy next.1) :
    Kept platform policy (if order then next else (s, [])).1 := by
  split
  · exact hnext
  · exact h

theorem Kept.event (h : Kept platform policy s) (event : Event) :
    Kept platform policy ((captures platform isIP policy cfg).next s event) := by
  cases event with
  | resume failure => exact h.resumed failure
  | abort => exact h.aborts
  | upstream hostname failure timeMs => exact h.listening (h.upstream hostname failure timeMs)
  | close => exact h.listening (h.stop (by decide))
  | route request timeMs => exact h.listening (h.routed request timeMs)
  | routeSettled failed => exact h.routeSettled failed
  | response res timeMs now => exact h.listening (h.responded res timeMs now)
  | unreadable => exact h.listening (h.stop (by decide))
  | timer => exact h.listening (h.stop (by decide))

/-! ## Steps -/

/-- What a step leaves alone. -/
structure Advances (s s' : Capture) : Prop where
  events : s.events <+: s'.events
  settled : s.completed = true → s'.completed = true ∧ s'.events = s.events ∧
    s'.error = s.error ∧ s'.finalUrl = s.finalUrl
  ended : s.stage = .ended → s'.stage = .ended

namespace Advances

variable {s' t : Capture}

theorem refl (s : Capture) : Advances s s :=
  ⟨List.prefix_rfl, fun hdone => ⟨hdone, rfl, rfl, rfl⟩, id⟩

theorem trans (h : Advances s s') (h' : Advances s' t) : Advances s t where
  events := h.events.trans h'.events
  settled hdone := by
    obtain ⟨hdone, hevents, herror, hfinal⟩ := h.settled hdone
    obtain ⟨hdone', hevents', herror', hfinal'⟩ := h'.settled hdone
    exact ⟨hdone', hevents'.trans hevents, herror'.trans herror, hfinal'.trans hfinal⟩
  ended hended := h'.ended (h.ended hended)

/-- Only what `Advances` reads counts. -/
theorem of_eq (hevents : s'.events = s.events) (hfinal : s'.finalUrl = s.finalUrl)
    (hcompleted : s'.completed = s.completed) (herror : s'.error = s.error)
    (hended : s.stage = .ended → s'.stage = .ended) : Advances s s' :=
  ⟨hevents ▸ List.prefix_rfl, fun hdone => ⟨hcompleted.trans hdone, hevents, herror, hfinal⟩,
    hended⟩

theorem stop (h : Advances s s') (message : Option String) : Advances s (s'.stop message) := by
  refine h.trans ⟨(stop_events message).symm ▸ List.prefix_rfl, fun hdone => ?_, fun hended => ?_⟩
  · rw [stop_of_completed hdone]
    exact ⟨hdone, rfl, rfl, rfl⟩
  · rw [stop_stage, hended]

/-- A record is made, or the landing URL is changed, only while nothing is decided. -/
theorem push (hopen : s.completed = false) (item : RawRequestRecord) : Advances s (s.push item) :=
  ⟨List.prefix_append _ _, fun hdone => absurd (hopen.symm.trans hdone) Bool.false_ne_true, id⟩

theorem retarget (h : Advances s s') (hopen : s.completed = false) (finalUrl : String) :
    Advances s { s' with finalUrl := finalUrl } :=
  ⟨h.events, fun hdone => absurd (hopen.symm.trans hdone) Bool.false_ne_true, h.ended⟩

theorem upstream (hostname : String) (failure : UpstreamFailure) (timeMs : JsNumber) :
    Advances s (onUpstreamFailure platform policy s hostname failure timeMs) := by
  unfold onUpstreamFailure
  split
  · exact refl s
  · rename_i hopen
    rw [not_or, Bool.not_eq_true] at hopen
    dsimp only
    split
    · exact (push hopen.1 _).stop _
    · exact (refl s).stop _

theorem routed (request : PageRequest) (timeMs : JsNumber) :
    Advances s (onRoute platform isIP policy s request timeMs).1 := by
  have hpending : Advances s { s with pendingRoutes := s.pendingRoutes + 1 } :=
    of_eq rfl rfl rfl rfl id
  unfold onRoute
  split
  · exact (refl s).stop _
  · dsimp only
    split
    · exact hpending
    · rename_i hopen
      rw [not_or, Bool.not_eq_true] at hopen
      split
      · exact (hpending.trans (push (s := { s with pendingRoutes := s.pendingRoutes + 1 })
          hopen.1 _)).stop _
      · exact hpending

theorem routeSettled (failed : Bool) : Advances s (onRouteSettled s failed) := by
  have hpending : Advances s { s with pendingRoutes := s.pendingRoutes - 1 } :=
    of_eq rfl rfl rfl rfl id
  unfold onRouteSettled
  split
  · exact refl s
  · dsimp only
    split
    · exact hpending.stop _
    · exact hpending

theorem responded (res : PageResponse) (timeMs : JsNumber) (now : Int) :
    Advances s (onResponse platform policy cfg s res timeMs now) := by
  unfold onResponse
  split
  · exact refl s
  · rename_i hopen
    rw [not_or, Bool.not_eq_true] at hopen
    have hpushed := push hopen.1 (captureRecord cfg.engine res timeMs)
    dsimp only
    split
    · exact hpushed.stop _
    · split
      · exact (hpushed.retarget hopen.1 _).stop _
      · split
        · exact hpushed.stop _
        · split
          · exact hpushed.stop _
          · split
            · exact hpushed
            · exact (hpushed.retarget hopen.1 _).stop _

theorem resumed (failure : Option String) :
    Advances s (resumeCapture policy cfg s failure).1 := by
  have goTo (stage : Stage) (hstage : s.stage ≠ .ended) : Advances s { s with stage := stage } :=
    of_eq rfl rfl rfl rfl fun hended => absurd hended hstage
  unfold resumeCapture
  dsimp only
  split
  case h_3 =>
    rename_i hstage
    split
    · exact goTo _ (hstage ▸ nofun)
    · exact goTo _ (hstage ▸ nofun)
  case h_9 =>
    rename_i hstage
    split
    · exact (goTo .routing (hstage ▸ nofun)).stop _
    · exact goTo _ (hstage ▸ nofun)
  case h_15 =>
    rename_i hstage
    split
    · exact goTo _ (hstage ▸ nofun)
    · exact refl s
  case h_16 =>
    rename_i hstage
    rw [finishCapture_fst]
    exact goTo _ (hstage ▸ nofun)
  case h_17 => exact refl s
  all_goals exact goTo _ (by simp only [*, ne_eq, reduceCtorEq, not_false_eq_true])

theorem aborts : Advances s (onAbort s) := by
  have haborted : Advances s { s with aborted := true } := of_eq rfl rfl rfl rfl id
  unfold onAbort
  dsimp only
  split
  · exact haborted.stop _
  · exact haborted

theorem listening {order : Prop} [Decidable order] {next : Capture × List Action}
    (hnext : Advances s next.1) : Advances s (if order then next else (s, [])).1 := by
  split
  · exact hnext
  · exact refl s

theorem event (event : Event) :
    Advances s ((captures platform isIP policy cfg).next s event) := by
  cases event with
  | resume failure => exact resumed failure
  | abort => exact aborts
  | upstream hostname failure timeMs => exact listening (upstream hostname failure timeMs)
  | close => exact listening ((refl s).stop _)
  | route request timeMs => exact listening (routed request timeMs)
  | routeSettled failed => exact routeSettled failed
  | response res timeMs now => exact listening (responded res timeMs now)
  | unreadable => exact listening ((refl s).stop _)
  | timer => exact listening ((refl s).stop _)

end Advances

/-! ## Replies -/

theorem onRoute_reply (request : PageRequest) (timeMs : JsNumber) :
    (onRoute platform isIP policy s request timeMs).2 = [.blocked request.url] ∨
      ((onRoute platform isIP policy s request timeMs).2 = [.continued request.url] ∧
        s.completed = false ∧ ∃ target,
          publicHttpUrl platform.toUrlParser isIP request.url = some target ∧
            target.origin ∈ policy.navigationOrigins) := by
  unfold onRoute
  split
  · exact Or.inl rfl
  · rename_i target htarget
    dsimp only
    split
    · exact Or.inl rfl
    · rename_i hopen
      rw [not_or, Bool.not_eq_true, not_not] at hopen
      split
      · exact Or.inl rfl
      · exact Or.inr ⟨rfl, hopen.1, target, htarget, hopen.2⟩

/-- The capture yields an event, and this is all it does then. -/
structure Yielding (policy : RedirectCapturePolicy) (cfg : CaptureConfig) (s s' : Capture)
    (result : RequestEvent) (reply : List Action) : Prop where
  stage : ∃ held, s.stage = .cleaning held none ∧
    reply = held.map .released ++ [.yielded result]
  result : result = captureEvent policy cfg s
  ended : s'.stage = .ended

theorem finishCapture_reply {held : List Resource} {thrown failure : Option String}
    {action : Action} (h : action ∈ (finishCapture policy cfg s held thrown failure).2) :
    (∃ resource, action = .released resource) ∨ (∃ message, action = .threw message) ∨
      (thrown = none ∧ action = .yielded (captureEvent policy cfg s) ∧
        (finishCapture policy cfg s held thrown failure).2 =
          held.map .released ++ [.yielded (captureEvent policy cfg s)]) := by
  have released {resources : List Resource} {last : Action}
      (h : action ∈ resources.map .released ++ [last]) :
      (∃ resource, action = .released resource) ∨ action = last := by
    rcases List.mem_append.mp h with hmap | hlast
    · obtain ⟨resource, -, rfl⟩ := List.mem_map.mp hmap
      exact Or.inl ⟨resource, rfl⟩
    · exact Or.inr (List.mem_singleton.mp hlast)
  unfold finishCapture at h ⊢
  dsimp only at h ⊢
  split at h
  · exact (released h).imp_right fun heq => Or.inl ⟨_, heq⟩
  · exact (released h).imp_right fun heq => Or.inl ⟨_, heq⟩
  · split at h
    · exact (released h).imp_right fun heq => Or.inl ⟨_, heq⟩
    · rename_i haborted
      refine (released h).imp_right fun heq => Or.inr ⟨rfl, heq, ?_⟩
      rw [if_neg haborted]
      rfl

theorem resumeCapture_reply {failure : Option String} {action : Action}
    (h : action ∈ (resumeCapture policy cfg s failure).2) :
    (∃ message, action = .threw message) ∨ ∃ held thrown, s.stage = .cleaning held thrown ∧
      resumeCapture policy cfg s failure = finishCapture policy cfg s held thrown failure := by
  unfold resumeCapture at h ⊢
  dsimp only at h ⊢
  split at h
  case h_2 => exact Or.inl ⟨_, List.mem_singleton.mp h⟩
  case h_3 => split at h <;> cases h
  case h_4 => exact Or.inl ⟨_, List.mem_singleton.mp h⟩
  case h_9 => split at h <;> cases h
  case h_15 => split at h <;> cases h
  case h_16 =>
    rename_i held thrown hstage
    exact Or.inr ⟨held, thrown, hstage, rfl⟩
  all_goals cases h

/-- A listener answers nothing where it is not there yet. -/
theorem reply_listening {order : Prop} [Decidable order] {next : Capture × List Action}
    {action : Action} (h : action ∈ (if order then next else (s, [])).2) : action ∈ next.2 := by
  split at h
  · exact h
  · cases h

theorem continued_event {event : Event} {url : String}
    (h : .continued url ∈ (captures platform isIP policy cfg).reply s event) :
    s.completed = false ∧ ∃ target, publicHttpUrl platform.toUrlParser isIP url = some target ∧
      target.origin ∈ policy.navigationOrigins := by
  cases event with
  | resume failure =>
    rcases resumeCapture_reply h with ⟨message, heq⟩ | ⟨held, thrown, -, heq⟩
    · cases heq
    · have hreply : .continued url ∈ (finishCapture policy cfg s held thrown failure).2 := heq ▸ h
      rcases finishCapture_reply hreply with ⟨_, hact⟩ | ⟨_, hact⟩ | ⟨-, hact, -⟩ <;> cases hact
  | abort => cases h
  | upstream hostname failure timeMs => cases reply_listening h
  | close => cases reply_listening h
  | route request timeMs =>
    have hreply := reply_listening h
    rcases @onRoute_reply platform isIP policy s request timeMs with heq | ⟨heq, hopen⟩
    · rw [heq] at hreply
      cases List.mem_singleton.mp hreply
    · rw [heq] at hreply
      cases List.mem_singleton.mp hreply
      exact hopen
  | routeSettled failed => cases h
  | response res timeMs now => cases reply_listening h
  | unreadable => cases reply_listening h
  | timer => cases reply_listening h

theorem yielded_event {event : Event} {result : RequestEvent}
    (h : .yielded result ∈ (captures platform isIP policy cfg).reply s event) :
    Yielding policy cfg s ((captures platform isIP policy cfg).next s event) result
      ((captures platform isIP policy cfg).reply s event) := by
  cases event with
  | resume failure =>
    rcases resumeCapture_reply h with ⟨message, heq⟩ | ⟨held, thrown, hstage, heq⟩
    · cases heq
    · have hreply : .yielded result ∈ (finishCapture policy cfg s held thrown failure).2 := heq ▸ h
      rcases finishCapture_reply hreply with ⟨_, hact⟩ | ⟨_, hact⟩ | ⟨rfl, hact, hall⟩
      · cases hact
      · cases hact
      · obtain rfl := Action.yielded.inj hact
        refine ⟨⟨held, hstage, ?_⟩, rfl, ?_⟩
        · show (resumeCapture policy cfg s failure).2 = _
          rw [heq, hall]
        · show (resumeCapture policy cfg s failure).1.stage = .ended
          rw [heq, finishCapture_fst]
  | abort => cases h
  | upstream hostname failure timeMs => cases reply_listening h
  | close => cases reply_listening h
  | route request timeMs =>
    have hreply := reply_listening h
    rcases @onRoute_reply platform isIP policy s request timeMs with heq | ⟨heq, -⟩
    · rw [heq] at hreply
      cases List.mem_singleton.mp hreply
    · rw [heq] at hreply
      cases List.mem_singleton.mp hreply
  | routeSettled failed => cases h
  | response res timeMs now => cases reply_listening h
  | unreadable => cases reply_listening h
  | timer => cases reply_listening h

/-! ## The event -/

/-- The validator reads the same in the event as in what it was asked about. -/
theorem captureEvent_reads (hnone : s.error = none) :
    ∀ name ∈ ["final_landing_url", "events", "error", "challenge", "final_verdict",
      "redirect_capture"],
      (captureEvent policy cfg s).toValue.get name = (candidate policy s).get name := by
  have hverdict : (captureEvent policy cfg s).finalVerdict = "unsure" := by
    unfold captureEvent
    rw [hnone]
    rfl
  intro name hname
  simp only [List.mem_cons, List.not_mem_nil, or_false] at hname
  rcases hname with rfl | rfl | rfl | rfl | rfl | rfl
  · rfl
  · rfl
  · show JsValue.ofOption s.error = .undefined
    rw [hnone]
    rfl
  · rfl
  · show JsValue.string (captureEvent policy cfg s).finalVerdict = .string "unsure"
    rw [hverdict]
  · rfl

/-- The event says no error exactly when the validator accepts it. -/
theorem Kept.judged (h : Kept platform policy s) (hdone : s.completed = true) (now : Int) :
    s.error = none ↔ Accepts platform now (captureEvent policy cfg s) := by
  constructor
  · intro hnone
    obtain ⟨decided, finalUrl, suffix, shown, haccepted⟩ := (h.approved hdone hnone).accepted
    refine ⟨finalUrl, suffix, shown, ?_⟩
    rw [evaluateCaptureResult_congr none (captureEvent_reads hnone), accepted_at]
    exact accepted_at.mp haccepted
  · rintro ⟨finalUrl, suffix, shown, haccepted⟩
    cases herror : s.error with
    | none => rfl
    | some message =>
      obtain ⟨-, hrefusal, -⟩ := accepted_iff.mp haccepted
      obtain ⟨hfalse, -⟩ := refusal_eq_none.mp hrefusal
      have hget : (captureEvent policy cfg s).toValue.get "error" = .string message := by
        show JsValue.ofOption s.error = .string message
        rw [herror]
        rfl
      rw [hget] at hfalse
      exact absurd (of_decide_eq_false hfalse) (not_not.mpr (h.message message herror))

theorem Kept.exactBytes (h : Kept platform policy s) (hdone : s.completed = true)
    (hnone : s.error = none) : ∃ main location,
      ((captureEvent policy cfg s).events.filter (·.isMainDocument)).getLast? = some main ∧
        sentLocation main = some location ∧
        (captureEvent policy cfg s).finalLandingUrl = some location := by
  obtain ⟨main, hlast, hsent⟩ := (h.approved hdone hnone).location
  refine ⟨main, s.finalUrl, ?_, hsent, rfl⟩
  show (s.events.filter (·.isMainDocument)).getLast? = some main
  rw [List.filter_eq_self.mpr h.main, hlast]

/-- The validator accepts no event with a refusal among its main documents. -/
theorem Kept.refused (h : Kept platform policy s) {item : RawRequestRecord}
    (hitem : item ∈ s.events)
    (hstop : (edgeStopForResponse platform (.object item.fields)).isSome = true) (now : Int) :
    ¬Accepts platform now (captureEvent policy cfg s) := by
  rintro ⟨finalUrl, suffix, shown, haccepted⟩
  obtain ⟨hpassed, -⟩ := accepted_iff.mp (accepted_at.mp haccepted)
  rw [documents_event, List.findSome?_eq_none_iff] at hpassed
  have hnone := hpassed (.object item.fields)
    (List.mem_map_of_mem (List.mem_filter.mpr ⟨hitem, h.main item hitem⟩))
  rw [hnone] at hstop
  cases hstop

end Decisions

/-! ## What holds in every run -/

section Whole

variable {platform : Platform} {isIP : String → Nat} {policy : RedirectCapturePolicy}
  {cfg : CaptureConfig} {s : Capture} {aborted : Bool}

theorem kept_opened : Kept platform policy (opened cfg aborted) :=
  ⟨fun _ => nofun, nofun, fun _ => nofun, fun _ => nofun⟩

theorem kept_run (events : List Event) : Kept platform policy
    ((captures platform isIP policy cfg).run (opened cfg aborted) events) :=
  EventSystem.run_inv_true kept_opened fun _ event h => h.event event

theorem advances_run (s : Capture) (events : List Event) :
    Advances s ((captures platform isIP policy cfg).run s events) :=
  EventSystem.run_inv_true (P := Advances s) (Advances.refl s)
    fun _ event h => h.trans (Advances.event event)

theorem captureEvent_congr {s' : Capture} (hevents : s'.events = s.events)
    (herror : s'.error = s.error) (hfinal : s'.finalUrl = s.finalUrl) :
    captureEvent policy cfg s' = captureEvent policy cfg s := by
  unfold captureEvent
  rw [hevents, herror, hfinal]

/-- What was yielded is the event of the state, and the generator has ended. -/
structure Delivered (policy : RedirectCapturePolicy) (cfg : CaptureConfig) (log : List Action)
    (s : Capture) : Prop where
  once : (log.filterMap Action.event?).length ≤ 1
  result : ∀ result, .yielded result ∈ log → s.stage = .ended ∧ s.completed = true ∧
    result = captureEvent policy cfg s

theorem yielded_mem {log : List Action} {result : RequestEvent} :
    result ∈ log.filterMap Action.event? ↔ .yielded result ∈ log := by
  rw [List.mem_filterMap]
  constructor
  · rintro ⟨action, haction, heq⟩
    cases action with
    | yielded event => exact Option.some.inj heq ▸ haction
    | _ => cases heq
  · exact fun h => ⟨_, h, rfl⟩

theorem yielding_once {s' : Capture} {result : RequestEvent} {reply : List Action}
    (h : Yielding policy cfg s s' result reply) : reply.filterMap Action.event? = [result] := by
  obtain ⟨⟨held, -, rfl⟩, -, -⟩ := h
  rw [List.filterMap_append, List.filterMap_map]
  have hreleased : held.filterMap (Action.event? ∘ .released) = [] :=
    List.filterMap_eq_nil_iff.mpr fun _ _ => rfl
  rw [hreleased]
  rfl

theorem Delivered.event {log : List Action} (h : Delivered policy cfg log s)
    (hkept : Kept platform policy s) (event : Event) :
    Delivered policy cfg (log ++ (captures platform isIP policy cfg).reply s event)
      ((captures platform isIP policy cfg).next s event) := by
  have hadvances := @Advances.event platform isIP policy cfg s event
  have hkeeps {result : RequestEvent} (hdone : s.completed = true)
      (hresult : result = captureEvent policy cfg s) :
      ((captures platform isIP policy cfg).next s event).completed = true ∧
        result = captureEvent policy cfg ((captures platform isIP policy cfg).next s event) := by
    obtain ⟨hdone', hevents, herror, hfinal⟩ := hadvances.settled hdone
    exact ⟨hdone', hresult.trans (captureEvent_congr hevents herror hfinal).symm⟩
  refine ⟨?_, fun result hresult => ?_⟩
  · rw [List.filterMap_append, List.length_append]
    rcases hreply : ((captures platform isIP policy cfg).reply s event).filterMap Action.event?
      with _ | ⟨result, rest⟩
    · exact h.once
    · have hyielding := yielded_event (yielded_mem.mp (hreply ▸ List.mem_cons_self))
      obtain ⟨held, hstage, -⟩ := hyielding.stage
      -- the generator has not ended, so that nothing was yielded before
      have hbefore : log.filterMap Action.event? = [] := by
        rw [List.eq_nil_iff_forall_not_mem]
        intro other hother
        have hended := (h.result other (yielded_mem.mp hother)).1
        rw [hstage] at hended
        cases hended
      rw [hbefore, ← hreply, yielding_once hyielding]
      exact Nat.le_refl 1
  · rcases List.mem_append.mp hresult with hold | hnew
    · obtain ⟨hended, hdone, heq⟩ := h.result result hold
      exact ⟨hadvances.ended hended, hkeeps hdone heq⟩
    · have hyielding := yielded_event hnew
      obtain ⟨held, hstage, -⟩ := hyielding.stage
      exact ⟨hyielding.ended, hkeeps (hkept.cleaning held hstage).2 hyielding.result⟩

theorem delivered_run (events : List Event) :
    Delivered policy cfg (actions platform isIP policy cfg aborted events)
      ((captures platform isIP policy cfg).run (opened cfg aborted) events) := by
  refine EventSystem.history_inv (G := fun _ _ => True)
    (P := fun events s => Delivered policy cfg (actions platform isIP policy cfg aborted events) s)
    ⟨Nat.zero_le 1, fun _ => nofun⟩ (fun es event _ h => ?_) EventSystem.along_true
  unfold actions at h ⊢
  rw [EventSystem.collect_concat]
  exact h.event (kept_run es) event

theorem openCapture_policy {P : UrlParser} (h : openCapture P cfg aborted = .ok policy) :
    parseRedirectCapturePolicy P cfg.redirectCapture (some cfg.seedUrl) = .ok (some policy) ∧
      cfg.human = true ∧ cfg.naturalClick = false ∧ aborted = false ∧
      cfg.proxyMode = "sticky-residential" := by
  unfold openCapture at h
  obtain ⟨parsed, hparsed, h⟩ := bind_eq_ok.mp h
  cases parsed with
  | none => cases h
  | some parsed =>
    dsimp only at h
    obtain ⟨hentry, h⟩ := ite_throw_eq_ok.mp h
    obtain ⟨haborted, h⟩ := ite_throw_eq_ok.mp h
    obtain ⟨hproxy, h⟩ := ite_throw_eq_ok.mp h
    obtain rfl := Except.ok.inj h
    rw [not_or, not_not, Bool.not_eq_true] at hentry
    exact ⟨hparsed, hentry.1, hentry.2, Bool.eq_false_of_not_eq_true haborted, not_not.mp hproxy⟩

/-- What is yielded carries the policy that the scenario has. -/
theorem runRedirectCapture_policy {events : List Event} {result : RequestEvent}
    (h : .yielded result ∈ runRedirectCapture platform isIP cfg aborted events) :
    ∃ policy, parseRedirectCapturePolicy platform.toUrlParser cfg.redirectCapture
        (some cfg.seedUrl) = .ok (some policy) ∧
      result.redirectCapture = some (policyFields policy) := by
  unfold runRedirectCapture at h
  split at h
  · cases List.mem_singleton.mp h
  · rename_i policy hpolicy
    obtain ⟨-, -, rfl⟩ := (delivered_run events).result result h
    exact ⟨policy, (openCapture_policy hpolicy).1, rfl⟩

/-- **A capture from a redirect alone is confined to its policy, and decided once.** -/
theorem capture_confined (platform : Platform) (isIP : String → Nat)
    (policy : RedirectCapturePolicy) (cfg : CaptureConfig) (aborted : Bool) (past : List Event)
    (event : Event) :
    Confined platform isIP policy cfg aborted past event
      ((captures platform isIP policy cfg).run (opened cfg aborted) past)
      ((captures platform isIP policy cfg).run (opened cfg aborted) (past ++ [event]))
      ((captures platform isIP policy cfg).reply
        ((captures platform isIP policy cfg).run (opened cfg aborted) past) event) := by
  have hkept := @kept_run platform isIP policy cfg aborted past
  rw [EventSystem.run_concat]
  refine ⟨fun url => continued_event, (Advances.event event).settled, (delivered_run _).once,
    fun result hresult => ?_, fun result hresult now => ?_, fun result hresult hnone => ?_,
    fun item hitem hstop more result hresult now => ?_⟩
  · obtain ⟨⟨held, hstage, hreply⟩, -, -⟩ := yielded_event hresult
    rw [hreply, (hkept.cleaning held hstage).1]
    rfl
  · obtain ⟨⟨held, hstage, -⟩, rfl, -⟩ := yielded_event hresult
    exact hkept.judged (hkept.cleaning held hstage).2 now
  · obtain ⟨⟨held, hstage, -⟩, rfl, -⟩ := yielded_event hresult
    exact hkept.exactBytes (hkept.cleaning held hstage).2 hnone
  · obtain ⟨-, -, rfl⟩ := (delivered_run (past ++ more)).result result hresult
    refine (kept_run (past ++ more)).refused ?_ hstop now
    rw [EventSystem.run_append]
    exact (advances_run _ more).events.subset hitem

end Whole

end LinkSuffix.BrowserCapture
