import LinkSuffix.Contracts.CaptureSafety
import LinkSuffix.Contracts.RequestEvent

/-!
# The redirect preflight of a journey

`resolveRedirectFirst` (`redirectResolver.ts`): before a browser is started, the worker follows the
redirects of the tracking URL itself, hop by hop, and reports a capture when they lead to a query.

* `publicHttpUrl`, `isPublicAddress`: the destinations it may reach (`network.ts`).
* `parseRefreshLocation`, `resolveLocationPreservingQuery`: where a redirect leads.
* `HopState`, `followHop`: one hop. `followHops`, `resolveRedirectFirst`: the chain.
* `lastHop`: the hop that ends a chain. `followHop_next`, `followHop_captured`: what a hop that goes
  on, and one that captures, was given.

What a hop asks of the network, the name server and the clock is an input. A chain whose inputs run
out is still going. The times of a result are left out.
-/

namespace LinkSuffix

/-! ## Public destinations -/

/-- `value.endsWith(suffix)`. -/
def hasSuffix (suffix value : String) : Bool := suffix.toList.isSuffixOf value.toList

/-- A host without the brackets around it. -/
def unbracket (host : String) : String :=
  let cs := match host.toList with
    | '[' :: cs => cs
    | cs => cs
  String.ofList (if cs.getLast? = some ']' then cs.dropLast else cs)

/-- `normalizedHost`. -/
def normalizedHost (host : String) : String :=
  let cs := (unbracket (jsLower host)).toList
  String.ofList (if cs.getLast? = some '.' then cs.dropLast else cs)

/-- An IPv4 address outside the reserved ranges. -/
def isPublicIpv4 (ip : String) : Bool :=
  let octets := (splitOnChar '.' ip.toList).map fun part => (parseDigits part).getD 0
  let a := octets.getD 0 0
  let b := octets.getD 1 0
  let c := octets.getD 2 0
  !(a = 0 || a = 10 || a = 127 || 224 ≤ a || (a = 100 && 64 ≤ b && b ≤ 127) ||
    (a = 169 && b = 254) || (a = 172 && 16 ≤ b && b ≤ 31) || (a = 192 && (b = 0 || b = 168)) ||
    (a = 198 && (b = 18 || b = 19 || (b = 51 && c = 100))) || (a = 203 && b = 0 && c = 113))

/-- A global unicast IPv6 address: `/^[23][0-9a-f]{3}:/`, outside the reserved prefixes. -/
def isPublicIpv6 (ip : String) : Bool :=
  (match ip.toList with
    | d :: x :: y :: z :: ':' :: _ => d ∈ ['2', '3'] && [x, y, z].all fun c =>
        (hexValue c).isSome && !c.isUpper
    | _ => false) &&
  !(["2001:0:", "2001::", "2001:db8:", "2002:"].any fun front => hasPrefix front ip)

section Network

-- `isIP` of `node:net` is 4, 6 or 0
variable (P : UrlParser) (isIP : String → Nat)

def isPublicAddress (raw : String) : Bool :=
  let ip := normalizedHost raw
  let spelled : Option String :=
    if isIP ip = 6 then (P.parse ("http://[" ++ ip ++ "]/")).map fun url => normalizedHost url.hostname
    else some ip
  match spelled with
  | none => false
  | some ip =>
    if isIP ip = 4 then isPublicIpv4 ip else isIP ip = 6 && isPublicIpv6 ip

def publicHttpUrl (raw : String) : Option Url :=
  match P.parse raw with
  | none => none
  | some url =>
    let host := normalizedHost url.hostname
    if ¬url.isWeb ∨ url.username ≠ "" ∨ url.password ≠ "" ∨ host = "localhost" ∨
        [".localhost", ".local", ".internal"].any (fun suffix => hasSuffix suffix host) ∨
        (isIP host ≠ 0 ∧ ¬isPublicAddress P isIP host) then none
    else some url

end Network

/-- `isPrivateHostname`. -/
def isPrivateHostname (hostname : String) : Bool :=
  let host := unbracket (jsLower hostname)
  let octets := splitOnChar '.' host.toList
  let starts (parts : List String) : Bool :=
    octets.take parts.length = parts.map String.toList && parts.length < octets.length
  host ∈ ["localhost", "0.0.0.0", "::1"] || hasSuffix ".localhost" host || hasSuffix ".local" host ||
    (match host.toList with
      | 'f' :: c :: x :: y :: ':' :: _ => c ∈ ['c', 'd'] && (hexValue x).isSome && (hexValue y).isSome
      | _ => false) ||
    hasPrefix "fe80:" host || starts ["127"] || starts ["10"] || starts ["192", "168"] ||
    starts ["169", "254"] ||
    ((List.range 16).any fun n => starts ["172", toString (16 + n)])

/-! ## Where a redirect leads -/

/-- `boundedInteger`. -/
def boundedInteger (value : Option String) (fallback least most : Int) : Int :=
  match value.map textToNumber with
  | some (.finite parsed) =>
    let whole := if parsed < 0 then -(-parsed).floor else parsed.floor
    min most (max least whole)
  | _ => fallback

/-- `hasExactQuery`. -/
def hasExactQuery (raw : String) : Bool :=
  let cs := raw.toList
  match cs.findIdx? (· = '?') with
  | none => false
  | some queryStart => queryStart + 1 < (cs.findIdx? (· = '#')).getD cs.length

/-- `\s*` and then a text, up to case. -/
def afterWord (word : String) (cs : List Char) : Option (List Char) :=
  let cs := cs.dropWhile isJsSpace
  if (cs.take word.length).map Char.toLower = word.toList then some (cs.drop word.length) else none

/-- `\d+(?:\.\d+)?`. -/
def afterSeconds (cs : List Char) : Option (List Char) :=
  if (cs.takeWhile Char.isDigit).isEmpty then none
  else
    match cs.dropWhile Char.isDigit with
    | '.' :: rest =>
      if (rest.takeWhile Char.isDigit).isEmpty then some ('.' :: rest)
      else some (rest.dropWhile Char.isDigit)
    | rest => some rest

/-- A text without the quotes around it. -/
def unquoted (raw : List Char) : List Char :=
  if raw.head? = raw.getLast? ∧ raw.head?.any (fun c => c = '\x22' || c = '\x27') then
    (raw.drop 1).dropLast
  else raw

/-- `parseRefreshLocation`: `/^\s*\d+(?:\.\d+)?\s*;\s*url\s*=\s*(.+?)\s*$/i`, and what it finds
without quotes. -/
def parseRefreshLocation (value : Option String) : Option String := do
  let value ← value
  let delayed ← afterSeconds (value.toList.dropWhile isJsSpace)
  let named ← afterWord ";" delayed
  let assigned ← afterWord "url" named
  let target ← afterWord "=" assigned
  let raw := (trim (String.ofList target)).toList
  if raw = [] ∨ raw.any (fun c => c ∈ ['\n', '\r', '\u2028', '\u2029']) then none
  else some (String.ofList (unquoted raw))

example : parseRefreshLocation (some "0; URL='https://a.example/?x=1' ") =
    some "https://a.example/?x=1" := by decide +kernel

/-- `/^https?:\/\//i`. -/
def isAbsoluteWeb (raw : String) : Bool :=
  hasPrefix "http://" (asciiLower raw) || hasPrefix "https://" (asciiLower raw)

/-- `resolveLocationPreservingQuery`: the URL to ask next, and the text to capture. -/
def resolveLocationPreservingQuery (P : UrlParser) (rawLocation : String) (current : Url) :
    Option (Url × String) :=
  let raw := trim rawLocation
  if raw = "" then none
  else
    match P.parseFrom raw current.href with
    | none => none
    | some requestUrl =>
      if ¬requestUrl.isWeb then none
      else some (requestUrl, if isAbsoluteWeb raw then raw else requestUrl.href)

/-! ## One hop -/

/-- What `fireWithJa3` gives: the status and the headers, under lower-case names. -/
structure HopResponse where
  status : Nat
  headers : List (String × String)
  lower : ∀ header ∈ headers, jsLower header.1 = header.1

/-- How a request ends. -/
inductive HopAnswer where
  | response (response : HopResponse)
  | transportError
  | proxyResponse (status : Nat) (retryAfter rayId : String)
  | failed

/-- What a hop is answered from outside. -/
structure HopInput where
  /-- The total timeout has passed. -/
  expired : Bool := false
  answer : HopAnswer
  timeMs : JsNumber := .finite 0
  /-- `resolvePublicAddress` accepts the target. -/
  publicTarget : Bool := true

/-- `RedirectResolutionHop`. -/
structure RedirectHop where
  source : String
  target : String
  status : Nat
  deriving DecidableEq

inductive PreflightOutcome where
  | captured | browserRequired | stopped
  deriving DecidableEq

/-- `RedirectFirstResult`. -/
structure RedirectFirstResult where
  outcome : PreflightOutcome
  reason : String
  finalUrl : Option String := none
  events : List RawRequestRecord
  redirects : List RedirectHop
  deriving DecidableEq

/-- The scenario and the environment of a preflight. -/
structure PreflightConfig where
  seedUrl : String
  /-- `scenario.session?.follow_external_redirects === true`. -/
  followExternal : Bool := false
  /-- `env.TAH_REDIRECT_MAX_HOPS`. -/
  maxHopsSetting : Option String := none

/-- `maxHops`. -/
def PreflightConfig.maxHops (cfg : PreflightConfig) : Int :=
  boundedInteger cfg.maxHopsSetting 10 1 25

/-- The loop between two hops. -/
structure HopState where
  seedOrigin : String
  current : Url
  hop : Nat := 0
  events : List RawRequestRecord := []
  redirects : List RedirectHop := []

/-- How a hop leaves the loop. -/
inductive HopStep where
  | next (s : HopState)
  | done (result : RedirectFirstResult)
  | thrown

namespace HopState

/-- `events.push(…)`. -/
def push (s : HopState) (item : RawRequestRecord) : HopState :=
  { s with events := s.events ++ [item] }

/-- `browserRequired`. -/
def browserRequired (s : HopState) (reason : String) : RedirectFirstResult where
  outcome := .browserRequired
  reason := reason
  events := s.events
  redirects := s.redirects

/-- `{ ...browserRequired(…), outcome: 'stopped', finalUrl }`. -/
def stopped (s : HopState) (reason : String) : RedirectFirstResult :=
  { s.browserRequired reason with outcome := .stopped, finalUrl := some s.current.href }

/-- A capture. -/
def captured (s : HopState) (reason finalUrl : String) : RedirectFirstResult :=
  { s.browserRequired reason with outcome := .captured, finalUrl := some finalUrl }

/-- The record of a request that is not sent. -/
def unsent (s : HopState) : RawRequestRecord where
  url := s.current.href
  method := "GET"
  status := .finite 0
  timeMs := .finite 0
  headers := []
  taSignal := [("main_document", "true"), ("capture_path", "redirect-first"),
    ("request_not_sent", "true")]

/-- The record of an answer of the proxy itself. -/
def proxied (s : HopState) (status : Nat) (retryAfter rayId : String) (timeMs : JsNumber) :
    RawRequestRecord where
  url := s.current.href
  method := "GET"
  status := .finite status
  timeMs := timeMs
  headers := [("retry-after", retryAfter), ("cf-ray", rayId)]
  taSignal := [("main_document", "true"), ("capture_path", "redirect-first"),
    ("proxy_response", "true")]

end HopState

/-- `response.headers.location ?? parseRefreshLocation(response.headers.refresh)`. -/
def HopResponse.location (response : HopResponse) : Option String :=
  match textField response.headers "location" with
  | some location => some location
  | none => parseRefreshLocation (textField response.headers "refresh")

/-- The record of a response. -/
def HopState.record (s : HopState) (response : HopResponse) (timeMs : JsNumber) :
    RawRequestRecord where
  url := s.current.href
  method := "GET"
  status := .finite response.status
  timeMs := timeMs
  headers := response.headers
  taSignal := [("main_document", "true"), ("body_capture_state", "unavailable"),
    ("capture_path", "redirect-first"), ("redirect_hop", toString s.hop)] ++
    match response.location.filter (· ≠ "") with
    | some location => [("redirect_to", location)]
    | none => []

section Preflight

variable (platform : Platform) (isIP : String → Nat) (cfg : PreflightConfig)

/-- The response of a hop is a redirect. -/
def redirected (s : HopState) (input : HopInput) (status : Nat) (location : String) : HopStep :=
  if location = "" then .done (s.browserRequired "redirect_without_location")
  else if cfg.maxHops ≤ s.hop then .done (s.browserRequired "redirect_hop_limit")
  else
    match resolveLocationPreservingQuery platform.toUrlParser location s.current with
    | none => .done (s.browserRequired "unsupported_redirect_location")
    | some (requestUrl, capturedUrl) =>
      if isPrivateHostname requestUrl.hostname ∨
          (publicHttpUrl platform.toUrlParser isIP requestUrl.href).isNone ∨ ¬input.publicTarget then
        .done (s.browserRequired "private_redirect_blocked")
      else
        let s' : HopState :=
          { s with redirects := s.redirects ++ [⟨s.current.href, capturedUrl, status⟩] }
        if requestUrl.origin ≠ s.seedOrigin ∧ ¬cfg.followExternal then
          if hasExactQuery capturedUrl then
            .done (s'.captured "external_redirect_query_captured" capturedUrl)
          else .done (s'.browserRequired "external_redirect_requires_browser")
        else .next { s' with current := requestUrl, hop := s.hop + 1 }

/-- The response of a hop is none. -/
def landed (s : HopState) (status : Nat) : HopStep :=
  match s.redirects.getLast?.filter fun redirect =>
      (200 ≤ status && status < 300) && hasExactQuery redirect.target with
  | some redirect => .done (s.captured "redirect_chain_resolved" redirect.target)
  | none => .done (s.browserRequired
      (if status = 403 ∨ status = 429 then "challenge_or_rate_limit"
        else "browser_navigation_required"))

/-- A response of a hop. -/
def responded (s : HopState) (input : HopInput) (response : HopResponse) : HopStep :=
  let item := s.record response input.timeMs
  if (edgeStopForResponse platform (.object item.fields)).isSome then
    .done ((s.push item).stopped "edge_response_stopped")
  else if 300 ≤ response.status ∧ response.status < 400 then
    redirected platform isIP cfg (s.push item) input response.status (response.location.getD "")
  else landed (s.push item) response.status

/-- One turn of the loop. -/
def followHop (s : HopState) (input : HopInput) : HopStep :=
  if input.expired then .done (s.browserRequired "redirect_total_timeout")
  else if (edgeStopForResponse platform (.object [("url", .string s.current.href)])).isSome then
    .done ((s.push s.unsent).stopped "challenge_url_blocked")
  else
    match input.answer with
    | .response response => responded platform isIP cfg s input response
    -- the caller may try once more with another proxy
    | .transportError =>
      if s.events = [] then .thrown else .done (s.stopped "redirect_request_failed")
    | .proxyResponse status retryAfter rayId =>
      .done ((s.push (s.proxied status retryAfter rayId input.timeMs)).stopped
        "redirect_request_failed")
    | .failed => .done (s.stopped "redirect_request_failed")

/-! ## The chain -/

/-- How a preflight ends. -/
inductive ChainEnd where
  | returned (result : RedirectFirstResult)
  | thrown
  deriving DecidableEq

/-- The loop over the hops. -/
def followHops : HopState → List HopInput → Option ChainEnd
  | _, [] => none
  | s, input :: inputs =>
    match followHop platform isIP cfg s input with
    | .next s' => followHops s' inputs
    | .done result => some (.returned result)
    | .thrown => some .thrown

/-- The hop that ends the loop, and the loop before it. -/
def lastHop : HopState → List HopInput → Option (HopState × HopInput)
  | _, [] => none
  | s, input :: inputs =>
    match followHop platform isIP cfg s input with
    | .next s' => lastHop s' inputs
    | _ => some (s, input)

/-- The loop at the tracking URL, when that is public. -/
def firstHop (publicSeed : Bool) : Option HopState :=
  match publicHttpUrl platform.toUrlParser isIP cfg.seedUrl with
  | none => none
  | some url => if publicSeed then some { seedOrigin := url.origin, current := url } else none

/-- `resolveRedirectFirst`. -/
def resolveRedirectFirst (publicSeed : Bool) (inputs : List HopInput) : Option ChainEnd :=
  match firstHop platform isIP cfg publicSeed with
  | none => some (.returned {
      outcome := .browserRequired, reason := "invalid_seed_url", events := [], redirects := [] })
  | some s => followHops platform isIP cfg s inputs

end Preflight

/-! ## How a hop goes on -/

section Cases

variable {platform : Platform} {isIP : String → Nat} {cfg : PreflightConfig} {s s' : HopState}
  {input : HopInput} {result : RedirectFirstResult}

/-- A target that passes every check before it is asked. -/
structure Admitted (platform : Platform) (isIP : String → Nat) (input : HopInput) (target : Url) :
    Prop where
  unprivate : isPrivateHostname target.hostname = false
  publicUrl : (publicHttpUrl platform.toUrlParser isIP target.href).isSome = true
  publicTarget : input.publicTarget = true

/-- How a redirect goes on, and how it is captured. -/
theorem redirected_cases (status : Nat) (location : String) (step : HopStep)
    (h : redirected platform isIP cfg s input status location = step) :
    (∃ (reason : String) (s' : HopState), step = .done (s'.browserRequired reason)) ∨
    ∃ target text, s.hop < cfg.maxHops ∧
      resolveLocationPreservingQuery platform.toUrlParser location s.current =
        some (target, text) ∧ Admitted platform isIP input target ∧
      ((target.origin = s.seedOrigin ∨ cfg.followExternal = true) ∧ step = .next { s with
          redirects := s.redirects ++ [⟨s.current.href, text, status⟩]
          current := target, hop := s.hop + 1 } ∨
        hasExactQuery text = true ∧ ∃ reason, step = .done (({ s with
          redirects := s.redirects ++ [⟨s.current.href, text, status⟩] } : HopState).captured
            reason text)) := by
  subst h
  unfold redirected
  split
  · exact Or.inl ⟨_, _, rfl⟩
  · split
    · exact Or.inl ⟨_, _, rfl⟩
    · rename_i hhop
      split
      · exact Or.inl ⟨_, _, rfl⟩
      · rename_i target text hresolved
        split
        · exact Or.inl ⟨_, _, rfl⟩
        · rename_i hbad
          have hadmitted : Admitted platform isIP input target := by
            rw [not_or, not_or] at hbad
            exact ⟨Bool.eq_false_iff.mpr hbad.1, Option.isSome_iff_ne_none.mpr fun hnone =>
              hbad.2.1 (Option.isNone_iff_eq_none.mpr hnone), not_not.mp hbad.2.2⟩
          have hhop : s.hop < cfg.maxHops := Int.not_le.mp hhop
          dsimp only
          split
          · split
            · rename_i hquery
              exact Or.inr ⟨target, text, hhop, hresolved, hadmitted, Or.inr ⟨hquery, _, rfl⟩⟩
            · exact Or.inl ⟨_, _, rfl⟩
          · rename_i hinside
            refine Or.inr ⟨target, text, hhop, hresolved, hadmitted, Or.inl ⟨?_, rfl⟩⟩
            rw [not_and_or, not_not, not_not] at hinside
            exact hinside

/-- A hop ends without a capture, or with an error, or was given a response that passes. -/
theorem followHop_cases {step : HopStep} (h : followHop platform isIP cfg s input = step) :
    (∃ result, step = .done result ∧ result.outcome ≠ .captured) ∨ step = .thrown ∨
    ∃ response, input.answer = .response response ∧
      edgeStopForResponse platform (.object (s.record response input.timeMs).fields) = none ∧
      ((300 ≤ response.status ∧ response.status < 400) ∧
          redirected platform isIP cfg (s.push (s.record response input.timeMs)) input
            response.status (response.location.getD "") = step ∨
        landed (s.push (s.record response input.timeMs)) response.status = step) := by
  subst h
  unfold followHop
  split
  · exact Or.inl ⟨_, rfl, nofun⟩
  · split
    · exact Or.inl ⟨_, rfl, nofun⟩
    · split
      · rename_i response hanswer
        unfold responded
        dsimp only
        split
        · exact Or.inl ⟨_, rfl, nofun⟩
        · rename_i hstop
          refine Or.inr (Or.inr ⟨response, hanswer, Option.not_isSome_iff_eq_none.mp hstop, ?_⟩)
          split
          · rename_i hredirect
            exact Or.inl ⟨hredirect, rfl⟩
          · exact Or.inr rfl
      · split
        · exact Or.inr (Or.inl rfl)
        · exact Or.inl ⟨_, rfl, nofun⟩
      · exact Or.inl ⟨_, rfl, nofun⟩
      · exact Or.inl ⟨_, rfl, nofun⟩

/-- A hop that goes on has been answered with a redirect. -/
theorem followHop_next (h : followHop platform isIP cfg s input = .next s') :
    ∃ response target text, input.answer = .response response ∧
      edgeStopForResponse platform (.object (s.record response input.timeMs).fields) = none ∧
      (300 ≤ response.status ∧ response.status < 400) ∧ s.hop < cfg.maxHops ∧
      resolveLocationPreservingQuery platform.toUrlParser (response.location.getD "") s.current =
        some (target, text) ∧
      Admitted platform isIP input target ∧
      (target.origin = s.seedOrigin ∨ cfg.followExternal = true) ∧
      s' = { s.push (s.record response input.timeMs) with
        redirects := s.redirects ++ [⟨s.current.href, text, response.status⟩]
        current := target, hop := s.hop + 1 } := by
  rcases followHop_cases h with ⟨_, hdone, -⟩ | hthrown | ⟨response, hanswer, hstop, hanswered⟩
  · cases hdone
  · cases hthrown
  · rcases hanswered with ⟨hredirect, h⟩ | h
    · rcases redirected_cases _ _ _ h with ⟨_, _, hdone⟩ | ⟨target, text, hhop, hresolved,
        hadmitted, ⟨hinside, hnext⟩ | ⟨-, _, hdone⟩⟩
      · cases hdone
      · exact ⟨response, target, text, hanswer, hstop, hredirect, hhop, hresolved, hadmitted,
          hinside, HopStep.next.inj hnext⟩
      · cases hdone
    · unfold landed at h
      split at h <;> cases h

/-- A hop that captures has been answered with a redirect to a query, or ends a chain to one. -/
theorem followHop_captured (h : followHop platform isIP cfg s input = .done result)
    (hcaptured : result.outcome = .captured) :
    ∃ response finalUrl, input.answer = .response response ∧
      edgeStopForResponse platform (.object (s.record response input.timeMs).fields) = none ∧
      result.events = s.events ++ [s.record response input.timeMs] ∧
      result.finalUrl = some finalUrl ∧ hasExactQuery finalUrl = true ∧
      ((300 ≤ response.status ∧ response.status < 400) ∧
          (∃ target, resolveLocationPreservingQuery platform.toUrlParser
            (response.location.getD "") s.current = some (target, finalUrl)) ∨
        (200 ≤ response.status ∧ response.status < 300) ∧
          ∃ redirect, s.redirects.getLast? = some redirect ∧ redirect.target = finalUrl) := by
  rcases followHop_cases h with ⟨_, hdone, hother⟩ | hthrown | ⟨response, hanswer, hstop, hanswered⟩
  · obtain rfl := HopStep.done.inj hdone
    exact absurd hcaptured hother
  · cases hthrown
  · rcases hanswered with ⟨hredirect, h⟩ | h
    · rcases redirected_cases _ _ _ h with ⟨_, _, hdone⟩ | ⟨target, text, -, hresolved, -,
        ⟨-, hnext⟩ | ⟨hquery, _, hdone⟩⟩
      · obtain rfl := HopStep.done.inj hdone
        cases hcaptured
      · cases hnext
      · obtain rfl := HopStep.done.inj hdone
        exact ⟨response, text, hanswer, hstop, rfl, rfl, hquery,
          Or.inl ⟨hredirect, target, hresolved⟩⟩
    · unfold landed at h
      split at h
      · rename_i redirect hlanded
        obtain rfl := HopStep.done.inj h
        obtain ⟨hlast, hquery⟩ := Option.filter_eq_some_iff.mp hlanded
        simp only [Bool.and_eq_true, decide_eq_true_eq] at hquery
        exact ⟨response, redirect.target, hanswer, hstop, rfl, rfl, hquery.2,
          Or.inr ⟨hquery.1, redirect, hlast, rfl⟩⟩
      · obtain rfl := HopStep.done.inj h
        cases hcaptured

end Cases

end LinkSuffix
