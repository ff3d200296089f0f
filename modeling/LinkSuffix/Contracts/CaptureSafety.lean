import LinkSuffix.Contracts.RedirectCapture

/-!
# `evaluateCaptureResult`

The decision whether a journey's result is a capture (`captureSafety.ts`), over any value.

* `header`, `documents`: what is read of an event chain.
* `edgeStopForResponse`: a refusal of a main document, which ends the journey.
* `refusal`: the checks of the result as a whole.
* `redirectOnly`, `confirmed`: the evidence for the destination, with and without a policy.
* `evaluateCaptureResult`: the decision.
-/

namespace LinkSuffix

/-! ## Reading responses -/

/-- `header(headers, name)`: the first header of that name up to case, trimmed. -/
def header (headers : JsValue) (name : String) : String :=
  match headers.record.find? fun entry => jsLower entry.1 = name with
  | none => ""
  | some (_, value) => trim value.toText

/-- `/^\/cdn-cgi\/(?:challenge-platform(?:\/|$)|challenge(?:\/|$))/i`. -/
def isChallengePath (pathname : String) : Bool :=
  let path := asciiLower pathname
  ["/cdn-cgi/challenge-platform", "/cdn-cgi/challenge"].any fun page =>
    path = page || hasPrefix (page ++ "/") path

/-- `/Cloudflare/.test(issue ?? '')`. -/
def namesCloudflare (issue : Option String) : Bool :=
  issue.any fun issue => includesText issue "Cloudflare"

/-- `CaptureDiagnostics`. -/
structure CaptureDiagnostics where
  hostname : Option String := none
  httpStatus : Option Int := none
  rayId : Option String := none
  retryAfterMs : Option Int := none
  deriving DecidableEq

/-- `CaptureRejection`, without a retry. -/
structure CaptureRejection where
  code : String
  message : String
  diagnostics : CaptureDiagnostics := {}
  deriving DecidableEq

inductive Evidence where
  | documentResponse | redirectLocation | redirectOnly
  deriving DecidableEq

/-- `CaptureDecision`. -/
inductive CaptureOutcome where
  | rejected (rejection : CaptureRejection)
  | accepted (finalUrl suffix : String) (evidence : Evidence)
  deriving DecidableEq

/-- `/^[a-f0-9]{16,32}(?:-[a-z0-9]{3,10})?$/i`. -/
def isRayId (value : String) : Bool :=
  match splitOnChar '-' (asciiLower value).toList with
  | [id] => isHex id
  | [id, site] => isHex id && site.all (fun c => c.isLower || c.isDigit) && 3 ≤ site.length &&
      site.length ≤ 10
  | _ => false
where
  isHex (id : List Char) : Bool :=
    id.all (fun c => (hexValue c).isSome) && 16 ≤ id.length && id.length ≤ 32

/-- `Number.isSafeInteger`. -/
def safeInteger (n : JsNumber) : Option Int :=
  n.integer.filter fun n => n.natAbs ≤ 9007199254740991

section Capture

variable (platform : Platform)

/-- `captureUrlIssue`. -/
def captureUrlIssue (raw : JsValue) : Option String :=
  match raw with
  | .string raw =>
    match platform.parse raw with
    | none => some "Invalid final landing URL"
    | some url =>
      if ¬url.isWeb then some "Invalid final landing URL protocol"
      else if isChallengePath url.pathname then some "Cloudflare challenge page is not a destination"
      else deliverySuffixIssue (String.ofList (url.search.toList.drop 1))
  | _ => some "Invalid final landing URL"

/-- `documentUrl`. -/
def documentUrl (raw : JsValue) : Option String :=
  match raw with
  | .string raw => (platform.parse raw).map (·.withoutHash)
  | _ => none

/-- `captureDiagnostics`. -/
def captureDiagnostics (main finalUrl : JsValue) : CaptureDiagnostics :=
  let headers := main.get "headers"
  let retryAfter := header headers "retry-after"
  let delay : JsNumber :=
    match parseDigits retryAfter.toList with
    | some seconds => .finite (seconds * 1000)
    | none =>
      match platform.dateParse retryAfter with
      | .finite date => .finite (date - platform.now)
      | other => other
  let rayId := header headers "cf-ray"
  { hostname :=
      match (main.get "url").orElse finalUrl with
      | .string raw => ((platform.parse raw).filter (·.isWeb)).map fun url => sliceTo 253 url.hostname
      | _ => none
    httpStatus := (main.get "status").toNumber.integer.filter fun status =>
      100 ≤ status ∧ status ≤ 599
    rayId := if isRayId rayId then some rayId else none
    retryAfterMs := (safeInteger delay).filter fun delay =>
      0 ≤ delay ∧ platform.now + delay ≤ 8640000000000000 }

/-- The response redirects to a challenge page. -/
def redirectsToChallenge (response : JsValue) : Bool :=
  let location := header (response.get "headers") "location"
  location ≠ "" && (platform.resolve location (response.get "url")).any fun target =>
    namesCloudflare (captureUrlIssue platform (.string target.href))

/-- The response is a challenge. -/
def isCloudflare (response : JsValue) : Bool :=
  namesCloudflare (captureUrlIssue platform (response.get "url")) ||
    redirectsToChallenge platform response ||
    jsLower (header (response.get "headers") "cf-mitigated") = "challenge"

/-- `edgeStopForResponse`. -/
def edgeStopForResponse (response : JsValue) : Option CaptureRejection :=
  let status := (response.get "status").toNumber
  let cloudflare := isCloudflare platform response
  if ¬cloudflare ∧ status ≠ .finite 403 ∧ status ≠ .finite 429 then none
  else
    some {
      code := if cloudflare then "cloudflare_challenge"
        else if status = .finite 429 then "rate_limited" else "blocked_response"
      message := if cloudflare then "Cloudflare challenge received; the journey was stopped"
        else if status = .finite 429 then "Rate limit received; the journey was stopped"
        else "HTTP 403 received; the journey was stopped"
      diagnostics := captureDiagnostics platform response (response.get "url") }

/-! ## The result -/

/-- The main documents among the events, in their order. -/
def documents (result : JsValue) : List JsValue :=
  ((result.get "events").items.map fun event => .object event.record).filter fun event =>
    ((event.get "ta_signal").get "main_document").isText "true"

/-- `record(event.ta_signal)[name]`. -/
def signal (event : JsValue) (name : String) : JsValue := (event.get "ta_signal").get name

/-- The text after a match of `(?:page|context|browser)` up to the end of its line. -/
def afterTarget (rest : List Char) : Option (List Char) :=
  (["page", "context", "browser"].find? fun word => word.toList.isPrefixOf rest).map fun word =>
    (rest.drop word.length).takeWhile fun c => c ∉ ['\n', '\r', '\u2028', '\u2029']

/-- The error says that the page, its context or the browser was closed. -/
def isClosedError (error : String) : Bool :=
  (asciiLower error).toList.tails.any fun rest =>
    "target page, context or browser".toList.isPrefixOf rest ||
      "target closed".toList.isPrefixOf rest ||
      (afterTarget rest).any fun line =>
        ["has been closed", "was closed", "is closed"].any fun phrase =>
          includesText (String.ofList line) phrase

/-- The verdicts that refuse a capture. -/
def refusedVerdicts : List String := ["block", "blocked", "challenge", "error", "deny", "denied"]

/-- The checks up to the suffix: the code and the message of a rejection. -/
def refusal (result : JsValue) (main : Option JsValue) : Option (String × String) :=
  let urlIssue := captureUrlIssue platform (result.get "final_landing_url")
  let failed := (result.get "error").truthy
  let ofCloudflare := urlIssue.any fun issue => includesText (asciiLower issue) "cloudflare"
  if failed ∧ ¬ofCloudflare then
    some (if isClosedError (result.get "error").toText
      then ("browser_closed", "Browser closed before capture completed; no suffix was accepted")
      else ("capture_error", "The journey failed; no suffix was accepted"))
  else
    match urlIssue with
    | some issue =>
      some (if ofCloudflare then "cloudflare_challenge"
        else if includesText issue "empty tracking identifier" then "empty_tracking_identifier"
        else "invalid_url", issue)
    | none =>
      if main.any fun main => jsLower (header (main.get "headers") "cf-mitigated") = "challenge" then
        some ("cloudflare_challenge", "Blocked by Cloudflare; no destination suffix was captured")
      else if failed then some ("capture_error", "The journey failed; no suffix was accepted")
      else if ((result.get "challenge").get "status").truthy ∧
          ¬((result.get "challenge").get "status").isText "resolved" then
        some ("unresolved_challenge",
          "The destination challenge is unresolved; no suffix was accepted")
      else if jsLower (result.get "final_verdict").toText ∈ refusedVerdicts then
        some ("blocked_response", "The journey was blocked; no suffix was accepted")
      else none

/-- What follows the first `?` up to the first `#`, when the `?` comes first. -/
def suffixOf (finalUrl : String) : Option String :=
  let cs := finalUrl.toList
  let fragment := cs.findIdx? (· = '#')
  match cs.findIdx? (· = '?') with
  | none => none
  | some question =>
    if fragment.any (· < question) then none
    else some (String.ofList ((cs.take (fragment.getD cs.length)).drop (question + 1)))

/-! ## Evidence -/

/-- A main document outside the policy, where the loop over them finds one. -/
def unapproved (policy : RedirectCapturePolicy) : List JsValue → Except String Bool
  | [] => .ok false
  | event :: events =>
    match platform.parseValue (event.get "url") with
    | none => .error "Invalid URL"
    | some url =>
      if url.origin ∉ policy.navigationOrigins ∨
          (captureUrlIssue platform (event.get "url")).isSome then .ok true
      else unapproved policy events

/-- The code and the message of a rejection, or the evidence. -/
abbrev Evaluation := Except (String × String) Evidence

/-- The evidence under a policy, or the error that the `catch` turns into a rejection. -/
def redirectEvidence (policy : JsValue) (docs : List JsValue) (main : JsValue) (finalUrl : String) :
    Except String Evaluation := do
  match ← parseRedirectCapturePolicy platform.toUrlParser policy none with
  | none => return mismatch
  | some policy =>
    if ¬(signal main "capture_path").isText "browser-redirect-only" ∨
        ¬(signal main "destination_visited").isText "false" ∨
        ¬(signal main "egress_guard").isText "origin_allowlist" then return mismatch
    if ← unapproved platform policy docs then return mismatch
    let location := redirectLocationForPolicy platform.toUrlParser policy (main.get "url")
      (main.get "status").toNumber (main.get "headers").record
    if ¬location.any (·.isText finalUrl) then
      return .error ("unverified_destination",
        "No approved affiliate Location confirms these exact destination bytes")
    match platform.parse finalUrl with
    | none => throw "Invalid URL"
    | some url =>
      let identifiers := ((searchParams url.search).filter fun field =>
        field.1 = policy.requiredParameter.toText).map (·.2)
      match identifiers with
      | [identifier] =>
        if trim identifier = "" then return missingIdentifier
        return .ok .redirectOnly
      | _ => return missingIdentifier
where
  mismatch : Evaluation := .error ("redirect_policy_mismatch",
    "Redirect evidence does not match this run approved routing policy")
  missingIdentifier : Evaluation := .error ("missing_tracking_identifier",
    "The approved redirect requires exactly one nonempty tracking identifier")

/-- The evidence of a redirect alone. -/
def redirectOnly (policy : JsValue) (docs : List JsValue) (main : JsValue) (finalUrl : String) :
    Evaluation :=
  match redirectEvidence platform policy docs main finalUrl with
  | .ok evaluation => evaluation
  | .error _ => .error ("redirect_policy_mismatch",
    "Redirect evidence requires a valid explicit routing policy")

/-- The evidence of a destination response, or of a redirect to it. -/
def confirmed (main : JsValue) (finalUrl : String) : Evaluation :=
  let status := (main.get "status").toNumber
  let location := header (main.get "headers") "location"
  if status.integer.any (fun status => 200 ≤ status ∧ status < 300) ∧
      documentUrl platform (main.get "url") = documentUrl platform (.string finalUrl) then
    .ok .documentResponse
  else if (signal main "capture_path").isText "redirect-first" ∧ isRedirectStatus status ∧
      location ≠ "" ∧ captureUrlIssue platform (main.get "url") = none ∧
      (platform.resolve location (main.get "url")).any (fun target =>
        documentUrl platform (.string target.href) = documentUrl platform (.string finalUrl)) then
    .ok .redirectLocation
  else
    .error ("unverified_destination",
      "A successful destination response or verified redirect is required before capture")

/-- The checks from the suffix on. `policy` is the option, when there are options. -/
def evidence (result : JsValue) (options : Option JsValue) (finalUrl : String) :
    Except (String × String) (String × Evidence) :=
  match suffixOf finalUrl with
  | none => .error missing
  | some suffix =>
    if suffix = "" then .error missing
    else
      match (documents result).getLast? with
      | none => .error ("unverified_destination",
          "No main-document response confirms this destination")
      | some main =>
        let policy := options.getD (result.get "redirect_capture")
        let evaluation :=
          if (signal main "capture_path").isText "browser-redirect-only" ∨
              ¬(result.get "redirect_capture").isNullish ∨
              options.any fun policy => ¬policy.isNullish then
            redirectOnly platform policy (documents result) main finalUrl
          else confirmed platform main finalUrl
        evaluation.map fun evidence => (suffix, evidence)
where
  missing : String × String := ("missing_suffix", "The final landing URL did not contain a suffix")

/-- `evaluateCaptureResult`. -/
def evaluateCaptureResult (result : JsValue) (options : Option JsValue) : CaptureOutcome :=
  match (documents result).findSome? (edgeStopForResponse platform) with
  | some stop => .rejected stop
  | none =>
    let main := (documents result).getLast?
    let reject (reason : String × String) : CaptureOutcome := .rejected {
      code := reason.1
      message := reason.2
      diagnostics := captureDiagnostics platform (main.getD .undefined) (result.get "final_landing_url") }
    match refusal platform result main, (result.get "final_landing_url").text? with
    | some reason, _ => reject reason
    -- a landing URL without an issue is a text
    | none, none => reject ("invalid_url", "Invalid final landing URL")
    | none, some finalUrl =>
      match evidence platform result options finalUrl with
      | .error reason => reject reason
      | .ok (suffix, evidence) => .accepted finalUrl suffix evidence

end Capture

end LinkSuffix
