import LinkSuffix.Contracts.Notes
import LinkSuffix.Lib.Run

/-!
# The browser journey

`run` of the human tier (`runner.ts`), for a scenario without a redirect policy: the pages a journey
visits, and the listeners that record what the browser asks for and is answered meanwhile.

* `PageRequest`, `PageResponse`: what the browser reports.
* `findExactSuffixUrl`, `shouldAbortResource`, `shouldCaptureResponseBody` (`resourcePolicy.ts`).
* `JourneyState`: what the closures of `run` share, and the call the journey awaits.
* `onUpstreamFailure`, `onRequest`, `onRoute`, `onResponse`, `onRead`: the listeners.
* `resumeJourney`: the journey goes on from the call it awaits.
* `journey`: the event system.

Every order of the events is a run. The outcome of each awaited call, the address of the page and
the clock are inputs; a deadline can pass at any time. That the context is closed shows only in the
calls that fail then.
-/

namespace LinkSuffix

open JsValue Lib

/-! ## Requests and responses -/

/-- A request of the browser. -/
structure PageRequest where
  url : String
  method : String := "GET"
  resourceType : String := "document"
  isNavigationRequest : Bool := true
  /-- Whether its frame is the main one of its page; a detached frame cannot say. -/
  inMainFrame : Option Bool := some true
  userAgent : String := ""
  deriving DecidableEq

/-- `isTopLevelNavigation` (`mainDocument.ts`). -/
def PageRequest.isTopLevelNavigation (request : PageRequest) : Bool :=
  request.isNavigationRequest && request.inMainFrame = some true

/-- A response to the browser. The names of its headers are in lower case. -/
structure PageResponse where
  request : PageRequest
  url : String
  /-- `new URL(res.url()).hostname`: the browser reports no address that does not parse. -/
  hostname : String
  status : Nat
  headers : List (String × String) := []
  deriving DecidableEq

/-- The response is to a top-level navigation. -/
def PageResponse.isMain (res : PageResponse) : Bool := res.request.isTopLevelNavigation

/-- `Number(res.headers()['x-tah-original-status']) || res.status()`. -/
def PageResponse.recordedStatus (res : PageResponse) : JsNumber :=
  let original := (ofOption (textField res.headers "x-tah-original-status")).toNumber
  if original.truthy then original else .finite res.status

/-- `ProxyTransportError` (`transportFailure.ts`). -/
structure ProxyTransportError where
  transportCode : String
  deriving DecidableEq

def ProxyTransportError.message (failure : ProxyTransportError) : String :=
  "Proxy transport failure: " ++ failure.transportCode

/-- What the guarded egress proxy reports. -/
inductive UpstreamFailure where
  | transport (failure : ProxyTransportError)
  /-- `ProxyResponseError`. -/
  | response (status : Nat) (retryAfter rayId : String)
  | other

/-! ## Resources -/

/-- `JourneyResourcePolicy`. -/
structure JourneyResourcePolicy where
  blockHeavyResources : Bool := true
  blockedResourceTypes : List String := ["image", "media", "font"]
  bodyResourceTypes : List String := ["document", "xhr", "fetch"]
  maxResponseBodyBytes : Nat := 65536
  maxEventRecords : Nat := 200

def shouldAbortResource (policy : JourneyResourcePolicy) (resourceType : String)
    (isNavigationRequest : Bool) : Bool :=
  if ¬policy.blockHeavyResources ∨ isNavigationRequest ∨ resourceType = "document" then false
  else jsLower resourceType ∈ policy.blockedResourceTypes

def shouldCaptureResponseBody (policy : JourneyResourcePolicy) (resourceType : String) : Bool :=
  0 < policy.maxResponseBodyBytes && jsLower resourceType ∈ policy.bodyResourceTypes

/-- The text after the first `?` up to the next `#` is not empty. -/
def hasQueryText (raw : String) : Bool :=
  match raw.toList.dropWhile (· ≠ '?') with
  | [] => false
  | _ :: rest => rest.takeWhile (· ≠ '#') ≠ []

/-- `findExactSuffixUrl`. -/
def findExactSuffixUrl (P : UrlParser) (candidates : List (Option String)) : Option String :=
  candidates.findSome? fun candidate => candidate.filter fun raw =>
    hasQueryText raw && (P.parse raw).any (·.isWeb)

/-- `affiliateClickIdFromUrl`. -/
def affiliateClickIdFromUrl (P : UrlParser) (raw : String) : Option String := do
  let url ← P.parse raw
  let value ← (textField (searchParams url.search) "irclickid").map trim
  if value = "" then none else some (sliceTo 512 value)

/-- The hosts of a machine or its network, as the route handler tells them. -/
def isPrivateDestination (hostname : String) : Bool :=
  let host := jsLower hostname
  host ∈ ["localhost", "::1"] ||
    (["127.", "10.", "192.168.", "169.254."].any fun front => hasPrefix front host) ||
    (List.range 16).any fun n => hasPrefix ("172." ++ toString (16 + n) ++ ".") host

/-! ## The state of a journey -/

/-- What a journey is run with. -/
structure JourneyConfig where
  /-- `new URL(scenario.seed_url)`. -/
  seed : Url
  continuous : Bool := false
  /-- The number of pages drawn for the session. -/
  pages : Nat := 1
  headless : Bool := true
  /-- `visible_hold_seconds` is positive. -/
  visibleHold : Bool := false
  followExternalRedirects : Bool := true
  /-- `challenge_handling` is enabled. -/
  challengeHandling : Bool := false
  resources : JourneyResourcePolicy := {}
  useWebKit : Bool := false
  timezone : String := ""
  tzLookupFailed : Bool := false
  geoResolved : JsValue := .undefined
  proxyMode : String

/-- The pages to visit. -/
def JourneyConfig.target (cfg : JourneyConfig) : Nat := if cfg.continuous then 1 else cfg.pages

/-- `redirectState.current`. -/
structure ExternalRedirect where
  source : String
  target : String
  status : Nat
  deriving DecidableEq

/-- `RedirectHop` (`challenge.ts`). -/
structure JourneyHop where
  source : String
  target : String
  status : Nat
  time : String
  affiliateClickId : Option String
  deriving DecidableEq

/-- `DetectedChallenge`, as far as it is kept. -/
structure DetectedChallenge where
  vendor : String
  challengeType : String
  referenceId : Option String := none
  deriving DecidableEq

/-- `challengeResult`. Its redirects are the chain. -/
structure ChallengeResult where
  id : Option String
  found : DetectedChallenge
  status : String
  deriving DecidableEq

/-- A response whose body is being read. -/
structure ResponseTask where
  id : Nat
  response : PageResponse
  deriving DecidableEq

/-- The call a journey awaits, in its visit of a page or after the last one. -/
inductive JourneyPhase where
  /-- `page.goto` and the load of the page. -/
  | opening (page : Nat)
  /-- The note in place of a page that redirected away. -/
  | placeholder
  /-- `settleResponseTasks`, with the tasks that it waits for. -/
  | loaded (page : Nat) (awaited : List Nat)
  | detecting (page : Nat)
  /-- `pauseForIntervention`. -/
  | intervening (page : Nat) (found : DetectedChallenge)
  /-- The scrolling, the links, the click. -/
  | acting (page : Nat)
  /-- The last `settleResponseTasks`. -/
  | settling (awaited : List Nat)
  /-- The wait for a suffix. -/
  | polling
  | holding
  | finished
  deriving DecidableEq

/-- What the closures of a journey share. -/
structure JourneyState where
  allEvents : List RawRequestRecord := []
  responseTasks : List ResponseTask := []
  nextTask : Nat := 0
  /-- `edgeState`. -/
  rejection : Option CaptureRejection := none
  stopRecord : Option RawRequestRecord := none
  activeDocumentHost : String
  upstreamTransportError : Option ProxyTransportError := none
  destinationResponded : Bool := false
  transportStopped : Bool := false
  redirect : Option ExternalRedirect := none
  redirectChain : List JourneyHop := []
  challenge : Option ChallengeResult := none
  error : Option String := none
  suffixCaptured : Bool := false
  capturedLandingUrl : Option String := none
  aborted : Bool := false
  phase : JourneyPhase

namespace JourneyState

/-- `edgeState.rejection || transportStopped`. -/
def stopped (s : JourneyState) : Bool := s.rejection.isSome || s.transportStopped

/-- The message of an upstream failure, while no destination has responded. -/
def transportMessage (s : JourneyState) : Option String :=
  if s.destinationResponded then none else s.upstreamTransportError.map (·.message)

/-- The error of a refusal. -/
def rejectionMessage (rejection : CaptureRejection) : String :=
  "Target rejected capture: " ++ rejection.code

/-- `stopAtEdge`. -/
def stopAtEdge (platform : Platform) (s : JourneyState) (record : RawRequestRecord) :
    JourneyState :=
  match edgeStopForResponse platform (.object record.fields), s.rejection with
  | some rejection, none =>
    { s with
      rejection := some rejection
      stopRecord := some record
      allEvents := s.allEvents ++ [record]
      error := some (rejectionMessage rejection)
      capturedLandingUrl := none
      suffixCaptured := false }
  | _, _ => s

end JourneyState

/-! ## The listeners -/

/-- The record of a refused tunnel. -/
def connectRecord (hostname : String) (status : Nat) (retryAfter rayId : String)
    (timeMs : JsNumber) : RawRequestRecord where
  url := "https://" ++ hostname ++ "/"
  method := "CONNECT"
  status := .finite status
  timeMs := timeMs
  headers := [("retry-after", retryAfter), ("cf-ray", rayId)]
  taSignal := [("main_document", "true"), ("proxy_response", "true")]

/-- The record of a request that is not sent. -/
def routeRecord (request : PageRequest) (timeMs : JsNumber) : RawRequestRecord where
  url := request.url
  method := request.method
  status := .finite 0
  timeMs := timeMs
  headers := []
  taSignal := [("main_document", "true"), ("request_not_sent", "true")]

/-- The record by which a main response is judged. -/
def mainResponseRecord (res : PageResponse) (timeMs : JsNumber) : RawRequestRecord where
  url := res.url
  method := res.request.method
  status := .finite res.status
  timeMs := timeMs
  headers := res.headers
  taSignal := [("main_document", "true")]

/-- The record that is kept of a response once its body is read. -/
def responseRecord (cfg : JourneyConfig) (redirect : Option ExternalRedirect) (res : PageResponse)
    (snippet : String) (timeMs : JsNumber) : RawRequestRecord where
  url := res.url
  method := res.request.method
  status := res.recordedStatus
  timeMs := timeMs
  headers := res.headers
  taSignal := [("ua_actual", res.request.userAgent),
    ("template_id", if cfg.useWebKit then "native-webkit" else "native-chromium"),
    ("timezone", cfg.timezone),
    ("tz_lookup_failed", if cfg.tzLookupFailed then "true" else "false"),
    ("main_document", if res.isMain then "true" else "false")] ++
    match redirect with
    | none => []
    | some redirect => [("redirect_external", "true"), ("redirect_to", redirect.target)]
  bodySnippet := some snippet

/-- The body of a response is read: its type is kept and its declared length is in bounds. -/
def readsBody (cfg : JourneyConfig) (res : PageResponse) : Bool :=
  shouldCaptureResponseBody cfg.resources res.request.resourceType &&
    match ofOption (textField res.headers "content-length") with
    | .undefined => true
    | declared =>
      match declared.toNumber with
      | .finite declared => declared ≤ cfg.resources.maxResponseBodyBytes
      | .infinity negative => negative
      | .nan => false

section Listeners

variable (platform : Platform) (cfg : JourneyConfig) (s : JourneyState)

def onUpstreamFailure (hostname : String) (failure : UpstreamFailure) (timeMs : JsNumber) :
    JourneyState :=
  if hostname ≠ s.activeDocumentHost then s
  else
    match failure with
    | .transport failure =>
      if s.destinationResponded then s else { s with upstreamTransportError := some failure }
    | .response status retryAfter rayId =>
      s.stopAtEdge platform (connectRecord hostname status retryAfter rayId timeMs)
    | .other => s

/-- `ctx.on('request', …)`. -/
def onRequest (request : PageRequest) : JourneyState :=
  if request.isTopLevelNavigation then
    match platform.parse request.url with
    | none => s
    | some url => { s with activeDocumentHost := url.hostname }
  else s

/-- A navigation away from the seed is noted; whether the browser may follow it. -/
def externalNavigation (request : PageRequest) : JourneyState × Bool :=
  match platform.parse request.url with
  | none => (s, true)
  | some url =>
    if url.origin = cfg.seed.origin then (s, true)
    else
      ({ s with redirect := s.redirect <|> some ⟨cfg.seed.href, url.href, 302⟩ },
        cfg.followExternalRedirects && url.isWeb && !isPrivateDestination url.hostname)

/-- `ctx.route('**/*', …)`: whether the request is continued. -/
def onRoute (request : PageRequest) (timeMs : JsNumber) : JourneyState × Bool :=
  let judged := routeRecord request timeMs
  if s.stopped then (s, false)
  else if request.isTopLevelNavigation ∧
      (edgeStopForResponse platform (.object judged.fields)).isSome then
    (s.stopAtEdge platform judged, false)
  else if request.isNavigationRequest ∧ ¬request.isTopLevelNavigation ∧
      (edgeStopForResponse platform (.object [("url", .string request.url),
        ("status", .number (.finite 0)), ("headers", .object [])])).isSome then (s, false)
  else if shouldAbortResource cfg.resources request.resourceType request.isNavigationRequest then
    (s, false)
  else if request.isNavigationRequest ∨ request.resourceType = "document" then
    externalNavigation platform cfg s request
  else (s, true)

/-- A redirect by a `Location` joins the chain. -/
def noteRedirect (res : PageResponse) (time : String) : JourneyState :=
  match textField res.headers "location" with
  | none => s
  | some location =>
    if 300 ≤ res.status ∧ res.status < 400 ∧ location ≠ "" then
      match platform.parseFrom location res.url with
      | none => s
      | some destination =>
        { s with
          redirectChain := s.redirectChain ++ [{
            source := res.url
            target := destination.href
            status := res.status
            time := time
            affiliateClickId := affiliateClickIdFromUrl platform.toUrlParser destination.href <|>
              affiliateClickIdFromUrl platform.toUrlParser res.url }]
          redirect := if destination.origin ≠ cfg.seed.origin
            then some ⟨res.url, destination.href, res.status⟩ else s.redirect }
    else s

/-- There is room for a record more. -/
def hasRoom : Bool :=
  s.allEvents.length + s.responseTasks.length < cfg.resources.maxEventRecords

/-- The response is recorded: at once, or when its body is read. -/
def recordResponse (res : PageResponse) (timeMs : JsNumber) : JourneyState :=
  if ¬hasRoom cfg s then s
  else if readsBody cfg res then
    { s with
      responseTasks := s.responseTasks ++ [⟨s.nextTask, res⟩]
      nextTask := s.nextTask + 1 }
  else { s with allEvents := s.allEvents ++ [responseRecord cfg s.redirect res "" timeMs] }

/-- A response that ends nothing. -/
def observeResponse (res : PageResponse) (timeMs : JsNumber) (time : String) : JourneyState :=
  recordResponse cfg (noteRedirect platform cfg s res time) res timeMs

/-- The response of the egress proxy in place of the destination's. -/
def transportFailed (failure : ProxyTransportError) (res : PageResponse) (timeMs : JsNumber) :
    JourneyState :=
  { s with
    allEvents := s.allEvents ++ [noteSignal "proxy_transport_failure" (some failure.transportCode)
      (mainResponseRecord res timeMs)]
    error := some failure.message
    transportStopped := true }

/-- `ctx.on('response', …)`. -/
def onResponse (res : PageResponse) (timeMs : JsNumber) (time : String) : JourneyState :=
  let answered :=
    observeResponse platform cfg { s with destinationResponded := true } res timeMs time
  if s.stopped then s
  else if ¬res.isMain then observeResponse platform cfg s res timeMs time
  else if (edgeStopForResponse platform
      (.object (mainResponseRecord res timeMs).fields)).isSome then
    s.stopAtEdge platform (mainResponseRecord res timeMs)
  else
    match s.upstreamTransportError with
    | none => answered
    | some failure =>
      if s.destinationResponded ∨ res.status ≠ 502 ∨ res.hostname ≠ s.activeDocumentHost then
        answered
      else transportFailed s failure res timeMs

/-- The body of a response is read, or will not be: its record is made. -/
def onRead (task : Nat) (snippet : String) (timeMs : JsNumber) : JourneyState :=
  match s.responseTasks.find? (·.id = task) with
  | none => s
  | some found =>
    { s with
      responseTasks := s.responseTasks.eraseP (·.id = task)
      allEvents := s.allEvents ++ [responseRecord cfg s.redirect found.response snippet timeMs] }

end Listeners

/-! ## The journey -/

/-- The outcome of `pauseForIntervention`. -/
structure Intervention where
  id : String := ""
  action : String := "skip"

/-- What the awaited call, the page and the clock say when the journey goes on. -/
structure CallInput where
  /-- The message of what the call threw. -/
  failure : Option String := none
  /-- The deadline of the call has passed. -/
  expired : Bool := false
  pageUrl : String := ""
  found : Option DetectedChallenge := none
  intervention : Intervention := {}
  behaviorFrames : String := "0"
  behaviorEvents : String := "0"

section Resume

-- `JSON.stringify` of a redirect chain
variable (platform : Platform) (stringify : List JourneyHop → String) (cfg : JourneyConfig)
  (s : JourneyState) (input : CallInput)

/-- `findExactSuffixUrl` of the page and the redirects. -/
def exactLandingUrl : Option String :=
  findExactSuffixUrl platform.toUrlParser
    [some input.pageUrl, s.redirect.map (·.target), s.redirectChain.getLast?.map (·.target)]

/-- The notes of a challenge on the last main document. -/
def noteChallenge (found : DetectedChallenge) (item : RawRequestRecord) : RawRequestRecord :=
  noteSignal "redirect_chain" (some (stringify s.redirectChain)) <|
    noteSignal "challenge_reference_id" (found.referenceId.filter (· ≠ "")) <|
    noteSignal "challenge_type" (some found.challengeType) <|
    noteSignal "challenge_vendors" (some found.vendor) item

/-- The notes of the browser and of the behavior on every record. -/
def noteBehavior (item : RawRequestRecord) : RawRequestRecord :=
  noteSignal "behavior_events" (some input.behaviorEvents) <|
    noteSignal "behavior_frames" (some input.behaviorFrames) <|
    noteSignal "browser_engine" (some (if cfg.useWebKit then "webkit" else "chromium")) <|
    noteSignal "browser_identity" (some "native") item

/-- The notes of an affiliate click on the last main document. -/
def noteAffiliate (clickId sourceUrl : String) (item : RawRequestRecord) : RawRequestRecord :=
  noteSignal "affiliate_source_url" (some sourceUrl) <|
    noteSignal "affiliate_click_id" (some clickId) <|
    noteSignal "affiliate_parameter" (some "irclickid") item

/-- The loop over the pages is left: the tasks that run are awaited. -/
def settleTasks : JourneyState := { s with phase := .settling (s.responseTasks.map (·.id)) }

/-- The next visit, where there is one. -/
def visitPage (page : Nat) : JourneyState :=
  if page < cfg.target ∧ ¬s.stopped then { s with phase := .opening page } else settleTasks s

/-- `rememberJourneyFailure`; nothing where it throws. -/
def rememberJourneyFailure (cause : String) : Option JourneyState :=
  if s.aborted then none
  else
    some { s with
      error := (s.rejection.map JourneyState.rejectionMessage <|> s.transportMessage).getD cause
      capturedLandingUrl := none
      suffixCaptured := false }

/-- A call of the visits throws. -/
def visitFailed (cause : String) : JourneyState :=
  match rememberJourneyFailure s cause with
  | none => { s with phase := .finished }
  | some s => settleTasks s

/-- `page.goto` throws. -/
def openingFailed (cause : String) : JourneyState :=
  match s.rejection, s.transportMessage with
  | some rejection, _ => settleTasks { s with error := JourneyState.rejectionMessage rejection }
  | none, some message => settleTasks { s with error := some message, transportStopped := true }
  | none, none =>
    if s.redirect.isSome then
      if cfg.headless then settleTasks s else { s with phase := .placeholder }
    else settleTasks { s with error := some cause }

/-- The challenge of a page. -/
def challenged (found : DetectedChallenge) (id : Option String) (status : String) :
    JourneyState :=
  { s with
    challenge := some ⟨id, found, status⟩
    allEvents := noteLastMain (noteChallenge stringify s found) s.allEvents }

/-- The page is worked on, unless the journey was stopped. -/
def actOnPage (page : Nat) : JourneyState :=
  if s.stopped then settleTasks s else { s with phase := .acting page }

/-- A page is settled. -/
def pageLoaded (page : Nat) : JourneyState :=
  if s.stopped then settleTasks s
  else
    match if cfg.continuous then exactLandingUrl platform s input else none with
    | some landing =>
      settleTasks { s with suffixCaptured := true, capturedLandingUrl := some landing }
    | none => { s with phase := .detecting page }

/-- The status of a challenge after an intervention. -/
def challengeStatus (action : String) : String :=
  if action = "resume" then "resolved"
  else if action = "skip" then "skipped"
  else if action = "stop" then "stopped" else "timed_out"

/-- A challenge is dealt with: only a resolved one lets the visit go on. -/
def intervened (page : Nat) (found : DetectedChallenge) : JourneyState :=
  let status := challengeStatus input.intervention.action
  let s := challenged stringify s found (some input.intervention.id) status
  if status = "resolved" then actOnPage s page else settleTasks s

/-- The landing URL of the event. -/
def finalLandingUrl : String :=
  ((s.stopRecord.map (·.url) <|> s.capturedLandingUrl <|> exactLandingUrl platform s input)).getD
    input.pageUrl

/-- The click that the landing URL names, or else the last redirect that names one, and the URL. -/
def affiliateClick (landing : String) : Option (String × String) :=
  match affiliateClickIdFromUrl platform.toUrlParser landing with
  | some clickId => some (clickId, landing)
  | none => do
    let hop ← s.redirectChain.reverse.find? (·.affiliateClickId.isSome)
    let clickId ← hop.affiliateClickId
    some (clickId, hop.target)

/-- The state of a finished journey. -/
def concluded : JourneyState :=
  { s with
    phase := .finished
    allEvents :=
      match affiliateClick platform s (finalLandingUrl platform s input) with
      | none => s.allEvents
      | some (clickId, sourceUrl) =>
        if sourceUrl = "" then s.allEvents
        else noteLastMain (noteAffiliate clickId sourceUrl) s.allEvents }

/-- The challenge of the event. -/
def ChallengeResult.toEvent (result : ChallengeResult) (chain : List JourneyHop) :
    EventChallenge where
  id := result.id
  vendor := result.found.vendor
  challengeType := result.found.challengeType
  referenceId := result.found.referenceId
  status := result.status
  redirects := chain.map fun hop => ⟨hop.source, hop.target, .finite hop.status, hop.time⟩

/-- The error is not empty. -/
def JourneyState.failed : Bool := s.error.any (· ≠ "")

/-- A challenge is not resolved. -/
def JourneyState.unresolved : Bool := s.challenge.any (·.status ≠ "resolved")

/-- The event of a finished journey. -/
def journeyEvent : RequestEvent where
  repeatIndex := .finite 0
  geoResolved := cfg.geoResolved
  proxyMode := cfg.proxyMode
  finalLandingUrl := some (finalLandingUrl platform s input)
  events := (concluded platform s input).allEvents
  challenge := s.challenge.map fun result => result.toEvent s.redirectChain
  finalVerdict := if s.failed then "error" else if s.unresolved then "challenge" else "unsure"
  error := s.error

/-- What an event does besides the state. -/
inductive JourneyReply where
  | none
  | route (continued : Bool)
  | yielded (event : RequestEvent)

/-- The event is yielded. -/
def conclude : JourneyState × JourneyReply :=
  (concluded platform s input, .yielded (journeyEvent platform cfg s input))

/-- A call after the visits throws. -/
def concludeFailed (cause : String) : JourneyState × JourneyReply :=
  match rememberJourneyFailure s cause with
  | none => ({ s with phase := .finished }, .none)
  | some s => conclude platform cfg s input

/-- The wait for a suffix: another turn of its loop. -/
def pollSuffix : JourneyState × JourneyReply :=
  if s.stopped then conclude platform cfg s input
  else if input.expired then
    conclude platform cfg
      (if s.suffixCaptured then s
        else { s with error := some "Final URL suffix was not captured within 120 seconds" }) input
  else
    match exactLandingUrl platform s input with
    | some landing =>
      conclude platform cfg { s with suffixCaptured := true, capturedLandingUrl := some landing }
        input
    | none => ({ s with phase := .polling }, .none)

/-- The visits are over and their tasks settled. -/
def visitsSettled : JourneyState × JourneyReply :=
  let s := { s with allEvents := s.allEvents.map (noteBehavior cfg input) }
  if cfg.continuous ∧ ¬s.failed ∧ ¬s.stopped ∧ ¬s.unresolved then
    pollSuffix platform cfg s { input with expired := false }
  else if ¬s.stopped ∧ ¬cfg.headless ∧ cfg.visibleHold then ({ s with phase := .holding }, .none)
  else conclude platform cfg s input

/-- The tasks that a settling waits for are done, or its deadline has passed. -/
def isSettled (awaited : List Nat) : Bool :=
  input.expired || !s.responseTasks.any fun task => task.id ∈ awaited

/-- The journey goes on from the call it awaits. -/
def resumeJourney : JourneyState × JourneyReply :=
  match s.phase, input.failure with
  | .opening page, none =>
    ({ s with phase := .loaded page (s.responseTasks.map (·.id)) }, .none)
  | .opening _, some cause => (openingFailed cfg s cause, .none)
  | .placeholder, none => (settleTasks s, .none)
  | .placeholder, some cause => (visitFailed s cause, .none)
  | .loaded page awaited, _ =>
    (if isSettled s input awaited then pageLoaded platform cfg s input page else s, .none)
  | .detecting page, none =>
    match input.found with
    | none => (actOnPage s page, .none)
    | some found =>
      if cfg.challengeHandling then ({ s with phase := .intervening page found }, .none)
      else (settleTasks (challenged stringify s found none "pending"), .none)
  | .detecting _, some cause => (visitFailed s cause, .none)
  | .intervening page found, none => (intervened stringify s input page found, .none)
  | .intervening _ _, some cause => (visitFailed s cause, .none)
  | .acting page, none => (visitPage cfg s (page + 1), .none)
  | .acting _, some cause => (visitFailed s cause, .none)
  | .settling awaited, _ =>
    if isSettled s input awaited then visitsSettled platform cfg s input else (s, .none)
  | .polling, none => pollSuffix platform cfg s input
  | .polling, some cause =>
    if s.stopped then conclude platform cfg s input else concludeFailed platform cfg s input cause
  | .holding, none => conclude platform cfg s input
  | .holding, some cause => concludeFailed platform cfg s input cause
  | .finished, _ => (s, .none)

end Resume

/-! ## The event system -/

inductive JourneyEvent where
  | request (request : PageRequest)
  | route (request : PageRequest) (timeMs : JsNumber)
  | response (response : PageResponse) (timeMs : JsNumber) (time : String)
  | read (task : Nat) (snippet : String) (timeMs : JsNumber)
  | upstreamFailure (hostname : String) (failure : UpstreamFailure) (timeMs : JsNumber)
  | abort
  | resume (input : CallInput)

/-- The journey as it awaits its first page. -/
def journeyStart (cfg : JourneyConfig) : JourneyState :=
  visitPage cfg { activeDocumentHost := cfg.seed.hostname, phase := .finished } 0

/-- The journey and its listeners. -/
def journey (platform : Platform) (stringify : List JourneyHop → String) (cfg : JourneyConfig) :
    EventSystem JourneyState JourneyEvent JourneyReply where
  step s
    | .request request => (onRequest platform s request, .none)
    | .route request timeMs =>
      let (s, continued) := onRoute platform cfg s request timeMs
      (s, .route continued)
    | .response response timeMs time => (onResponse platform cfg s response timeMs time, .none)
    | .read task snippet timeMs => (onRead cfg s task snippet timeMs, .none)
    | .upstreamFailure hostname failure timeMs =>
      (onUpstreamFailure platform s hostname failure timeMs, .none)
    | .abort => ({ s with aborted := true }, .none)
    | .resume input => resumeJourney platform stringify cfg s input

end LinkSuffix
