import LinkSuffix.Js.IpAddress
import LinkSuffix.Js.JsonText
import LinkSuffix.Js.RegExp
import LinkSuffix.Js.Userinfo
import LinkSuffix.Lib.Run
import Mathlib.Data.Finset.Card

/-!
# The exit of a proxy

Which address a proxy leaves by, and where that is (`egressTimezone.ts`): up to four requests
through the proxy for the address, and up to three past it for what the first ones left out.

* `Engine`: what the runtime has that is not under the source. `World`: how the providers behave.
* `runProvider`, `normalizeParsed`: one request of a provider.
* `probe`, `obtained`: the address. `fetchProxyEgress`: the identity.
* `resolveProxyEgress`, with its cache, and `verifyProxyEgressStability`.
* `resolutions`: the calls in the order they are made.
-/

namespace LinkSuffix.Egress

open Lib RegExp

inductive FailureCode
  | proxyAuthFailed | proxyConnectFailed | proxyTimeout | ipLookupFailed | timezoneLookupFailed
  deriving DecidableEq

/-- What the runtime decides. -/
structure Engine where
  /-- `new Intl.DateTimeFormat("en-US", { timeZone }).format()` does not throw. -/
  isZone : String → Bool
  /-- `value.toUpperCase()`. -/
  upper : String → String
  /-- The message of a `JSON.parse` that throws. -/
  syntaxError : String → String
  /-- The message of reading a property of `null`. -/
  nullError : String

/-- `ProxyProbeAttempt`. -/
structure Attempt where
  provider : String
  /-- `stage`: whether it is "egress". -/
  egress : Bool
  ok : Bool
  statusCode : Option Int := none
  error : Option String := none

/-- `Parsed`. -/
structure Parsed where
  ip : Option String := none
  timezone : Option String := none
  country : Option String := none
  state : Option String := none
  city : Option String := none
  asn : Option Nat := none
  organization : Option String := none
  isp : Option String := none
  deriving DecidableEq

/-- `ProxyEgressIdentity`. -/
structure Identity extends Parsed where
  verified : Bool
  provider : String
  attempts : List Attempt

inductive Failure
  /-- `ProxyEgressResolutionError`. -/
  | resolution (code : FailureCode) (message : String) (attempts : List Attempt)
    (ip : Option String)
  /-- The agent cannot be made, or closed. -/
  | agent

/-! ## Reading an answer -/

/-- `value`. -/
def value : JsValue → Option String
  | .string text => if trim text ≠ "" then some (trim text) else none
  | _ => none

/-- `record`. -/
def record : JsValue → JsValue
  | .object fields => .object fields
  | _ => .object []

/-- `^AS`, of a text in any case. -/
def afterAs : List Char → Option (List Char)
  | a :: s :: rest => if a.toLower = 'a' ∧ s.toLower = 's' then some rest else none
  | _ => none

def isAsn (n : Nat) : Bool := 0 < n && n ≤ 4294967295

/-- `asnValue`: one to ten digits that a word ends after. -/
def asnValue (input : JsValue) : Option Nat :=
  let text := (trim (input.orElse (.string "")).toText).toList
  let rest := (afterAs text).getD text
  let digits := rest.takeWhile Char.isDigit
  if digits.length ≤ 10 ∧ (rest.drop digits.length).head?.any isWordChar = false then
    (parseDigits digits).filter isAsn
  else none

/-- `ipInfoNetwork`. -/
def ipInfoNetwork (input : JsValue) : Option Nat × Option String :=
  match (value input).bind fun raw => afterAs raw.toList with
  | none => (none, none)
  | some rest =>
    let digits := (rest.takeWhile Char.isDigit).take 10
    let organization := (rest.drop digits.length).dropWhile isJsSpace
    if digits ≠ [] ∧ ∀ c ∈ ['\n', '\r', '\u2028', '\u2029'], c ∉ organization then
      (asnValue (.string (String.ofList digits)), value (.string (String.ofList organization)))
    else (none, none)

/-- `parsers.ipapi`. -/
def ipapi (body : JsValue) : Parsed where
  ip := value (body.get "ip")
  timezone := value (body.get "timezone")
  country := value (body.get "country_code")
  state := (value (body.get "region_code")).or (value (body.get "region"))
  city := value (body.get "city")
  asn := asnValue (body.get "asn")
  organization := value (body.get "org")
  isp := value (body.get "org")

/-- `parsers.ipwhois`. An array is an object without an `id`. -/
def ipwhois (body : JsValue) : Parsed where
  ip := value (body.get "ip")
  timezone :=
    match body.get "timezone" with
    | .object fields => value ((JsValue.object fields).get "id")
    | other => value other
  country := value (body.get "country_code")
  state := (value (body.get "region_code")).or (value (body.get "region"))
  city := value (body.get "city")
  asn := asnValue ((record (body.get "connection")).get "asn")
  organization := value ((record (body.get "connection")).get "org")
  isp := value ((record (body.get "connection")).get "isp")

/-- `parsers.ipinfo`. -/
def ipinfo (body : JsValue) : Parsed where
  ip := value (body.get "ip")
  timezone := value (body.get "timezone")
  country := value (body.get "country")
  state := value (body.get "region")
  city := value (body.get "city")
  asn := (ipInfoNetwork (body.get "org")).1
  organization := (ipInfoNetwork (body.get "org")).2
  isp := (ipInfoNetwork (body.get "org")).2

section Requests

variable (engine : Engine)

/-- `validTimezone`. -/
def validTimezone (timezone : Option String) : Option String :=
  timezone.filter fun zone => zone ≠ "" ∧ utf16Length zone ≤ 80 ∧ engine.isZone zone

def normalizeParsed (parsed : Parsed) : Parsed where
  ip := parsed.ip.filter fun ip => isIP ip ≠ 0
  timezone := validTimezone engine parsed.timezone
  country := parsed.country.map fun country => engine.upper (sliceTo 2 country)
  state := parsed.state.map (sliceTo 120)
  city := parsed.city.map (sliceTo 160)
  asn := parsed.asn.filter isAsn
  organization := parsed.organization.map (sliceTo 240)
  isp := parsed.isp.map (sliceTo 240)

/-! ## Requests -/

structure Provider where
  name : String
  url : String
  parse : JsValue → Parsed

def egressProviders : List Provider :=
  [{ name := "ipapi", url := "https://ipapi.co/json/", parse := ipapi },
   { name := "ipwhois", url := "https://ipwho.is/", parse := ipwhois },
   { name := "ipinfo", url := "https://ipinfo.io/json", parse := ipinfo }]

def timezoneProviders (ip : String) : List Provider :=
  let encoded := String.ofList (encodeURIComponent ip.toList)
  [{ name := "ipwhois", url := "https://ipwho.is/" ++ encoded, parse := ipwhois },
   { name := "ipapi", url := "https://ipapi.co/" ++ encoded ++ "/json/", parse := ipapi },
   { name := "ipinfo", url := "https://ipinfo.io/" ++ encoded ++ "/json", parse := ipinfo }]

/-- What a request comes to. -/
inductive Response
  | answered (statusCode : Int) (body : String)
  | failed (statusCode : Option Int) (message : String)

/-- How the providers behave during one fetch: what each URL answers, through the proxy and past
it, and whether the agent of the proxy can be made and closed again. -/
structure World where
  reply : Bool → String → Response
  agent : Bool := true

/-- `fetchBody`: the status and the text, or the status and the message of an error. -/
def fetchBody : Response → Except (Option Int × String) (Int × String)
  | .failed statusCode message => .error (statusCode, message)
  | .answered statusCode body =>
    if 65536 < body.utf8ByteSize then
      .error (none, "Geo provider response exceeded the configured limit")
    else if statusCode < 200 ∨ 300 ≤ statusCode then
      .error (some statusCode, "HTTP " ++ toString statusCode)
    else .ok (statusCode, body)

/-- The userinfo of a URL in a message. -/
def credentials : Pattern Char :=
  .chain [word "http", .maybe (word "s"), word "://", .one fun c => !isJsSpace c && c != '@',
    .many fun c => !isJsSpace c && c != '@', .one (· == '@')]

/-- `cleanError`. -/
def cleanError (message : String) : String :=
  sliceTo 240 (String.ofList (credentials.replaceAll "http://***:***@".toList message.toList))

/-- `provider.parse(JSON.parse(text))`. -/
def parseBody (provider : Provider) (text : String) : Except String Parsed :=
  match parseJson text.toList with
  | none => .error (engine.syntaxError text)
  | some .null => .error engine.nullError
  | some body => .ok (provider.parse body)

/-- `runProvider`: what it returns, and the attempt that it notes. -/
def runProvider (world : World) (egress : Bool) (provider : Provider) : Option Parsed × Attempt :=
  match fetchBody (world.reply egress provider.url) with
  | .error (statusCode, message) =>
    (none, { provider := provider.name, egress := egress, ok := false, statusCode := statusCode,
             error := some (cleanError message) })
  | .ok (statusCode, text) =>
    match parseBody engine provider text with
    | .error message =>
      (none, { provider := provider.name, egress := egress, ok := false,
               error := some (cleanError message) })
    | .ok body =>
      let parsed := normalizeParsed engine body
      (some parsed, {
        provider := provider.name, egress := egress, statusCode := some statusCode,
        ok := if egress then parsed.ip.isSome else parsed.timezone.isSome })

/-- `classify`. -/
def classify (attempts : List Attempt) : FailureCode :=
  let errors := (" ".intercalate (attempts.map fun attempt => attempt.error.getD "")).toList
  if (attempts.any fun attempt => attempt.statusCode == some 407) ||
      (Pattern.oneOf [.chain [boundary, word "407", boundary],
        word "proxy authentication"]).test errors then .proxyAuthFailed
  else if (Pattern.oneOf [word "timeout", word "timed out", word "abort"]).test errors then
    .proxyTimeout
  else if (Pattern.oneOf [word "ENOTFOUND", word "ECONNREFUSED", word "ECONNRESET",
      word "connect", word "tunnel", word "socket"]).test errors then .proxyConnectFailed
  else .ipLookupFailed

def messageFor : FailureCode → String
  | .proxyAuthFailed => "IPRoyal rejected the proxy credentials or routing parameters (HTTP 407). " ++
    "Check the username, password, country, state, and city."
  | .proxyConnectFailed => "The IPRoyal gateway could not be reached. Check the proxy host, port, " ++
    "network, and provider availability."
  | .proxyTimeout => "The IPRoyal gateway did not respond before the proxy verification timeout."
  | .ipLookupFailed => "The proxy responded, but no residential exit IP could be verified."
  | .timezoneLookupFailed =>
    "The residential exit IP was verified, but its timezone could not be resolved."

/-! ## A fetch -/

/-- What the first stage has by now: the last answer, and who gave its address. -/
structure Probe where
  answer : Option Parsed := none
  provider : Option String := none
  attempts : List Attempt := []

def Probe.ip (probe : Probe) : Option String := probe.answer.bind (·.ip)

/-- The providers are asked through the proxy until one names an address, or the proxy refuses. -/
def probe (world : World) : Probe → List Provider → Probe
  | found, [] => found
  | found, provider :: providers =>
    let (parsed, attempt) := runProvider engine world true provider
    let asked : Probe := { answer := parsed, attempts := found.attempts ++ [attempt] }
    if asked.ip.isSome then { asked with provider := some provider.name }
    else if classify asked.attempts = .proxyAuthFailed then asked
    else probe world asked providers

def icanhazip : String := "https://ipv4.icanhazip.com/"

/-- The text that the last probe answers with, which is taken for an address as it is. -/
def plainProbe (world : World) : Option String × Attempt :=
  match fetchBody (world.reply true icanhazip) with
  | .error (statusCode, message) =>
    (none, { provider := "icanhazip", egress := true, ok := false, statusCode := statusCode,
             error := some (cleanError message) })
  | .ok (statusCode, text) =>
    (some (trim text), { provider := "icanhazip", egress := true, ok := trim text ≠ "",
                         statusCode := some statusCode })

/-- What the requests through the proxy have found. -/
def obtained (world : World) : Probe :=
  let found := probe engine world {} egressProviders
  if found.ip.isSome then found
  else
    let (text, attempt) := plainProbe world
    match text.filter (· ≠ "") with
    | some ip =>
      { answer := some { ip := some ip }, attempts := found.attempts ++ [attempt] }
    | none => { found with attempts := found.attempts ++ [attempt] }

/-- `partial`, with what it lacks from a lookup. -/
def merge (known geo : Parsed) : Parsed where
  ip := known.ip
  timezone := known.timezone.or geo.timezone
  country := known.country.or geo.country
  state := known.state.or geo.state
  city := known.city.or geo.city
  asn := known.asn.or geo.asn
  organization := known.organization.or geo.organization
  isp := known.isp.or geo.isp

/-- The lookups, until one names a time zone. -/
def lookup (world : World) (known : Parsed) :
    List Attempt → List Provider → Except Failure Identity
  | attempts, [] =>
    .error (.resolution .timezoneLookupFailed (messageFor .timezoneLookupFailed) attempts known.ip)
  | attempts, provider :: providers =>
    let (geo, attempt) := runProvider engine world false provider
    match geo.filter (·.timezone.isSome) with
    | some geo =>
      .ok { merge known geo with
            verified := true, provider := provider.name, attempts := attempts ++ [attempt] }
    | none => lookup world known (attempts ++ [attempt]) providers

/-- The identity, while the agent lasts. -/
def identify (world : World) : Except Failure Identity :=
  let found := obtained engine world
  match found.answer, found.ip with
  | some known, some ip =>
    match found.provider.filter fun _ =>
      known.timezone.isSome && known.asn.isSome && known.organization.isSome with
    | some provider =>
      .ok { known with verified := true, provider := provider, attempts := found.attempts }
    | none => lookup engine world known found.attempts (timezoneProviders ip)
  | _, _ =>
    let code := classify found.attempts
    .error (.resolution code (messageFor code) found.attempts none)

def fetchProxyEgress (world : World) : Except Failure Identity :=
  if world.agent then identify engine world else .error .agent

/-! ## The calls -/

structure ProxyUrl where
  protocol : String
  href : String

/-- A promise is the fetch that it stands for. -/
structure CacheEntry where
  expiresAt : Int
  promise : World

/-- The map, the oldest key first. The digest of a URL is taken for the URL. -/
abbrev Cache := List (String × CacheEntry)

def directIdentity : Identity where
  verified := true
  provider := "direct"
  attempts := []

/-- `putBounded`. A key that is there keeps its place. -/
def putBounded (capacity : Nat) (cache : Cache) (key : String) (entry : CacheEntry) : Cache :=
  if cache.any (·.1 = key) then cache.map fun item => if item.1 = key then (key, entry) else item
  else (if capacity ≤ cache.length then cache.drop 1 else cache) ++ [(key, entry)]

inductive Call
  /-- `resolveProxyEgress`, how the providers behave should it fetch, and the time that a failure of
  that fetch is seen. -/
  | resolve (proxyUrl : ProxyUrl) (now : Int) (world : World) (failedAt : Int)
  /-- `verifyProxyEgressStability`, and how the providers behave during each sample. -/
  | verify (proxyUrl : ProxyUrl) (samples : Int) (worlds : Nat → World)
  /-- `resetTzCache`. -/
  | reset

/-- The entry that answers a call, if there is one. -/
def hit (cache : Cache) (key : String) (now : Int) : Option CacheEntry :=
  ((cache.find? (·.1 = key)).map (·.2)).filter fun entry => now < entry.expiresAt

variable (capacity : Nat)

/-- `resolveProxyEgress`. A promise that fails is kept for a quarter of a minute. -/
def resolveProxyEgress (cache : Cache) (proxyUrl : ProxyUrl) (now : Int) (world : World)
    (failedAt : Int) : Cache × Except Failure Identity :=
  if proxyUrl.protocol = "direct:" then (cache, .ok directIdentity)
  else
    match hit cache proxyUrl.href now with
    | some entry => (cache, fetchProxyEgress engine entry.promise)
    | none =>
      let result := fetchProxyEgress engine world
      let expiresAt :=
        match result with
        | .ok _ => now + 10 * 60000
        | .error _ => failedAt + 15000
      (putBounded capacity cache proxyUrl.href { expiresAt := expiresAt, promise := world }, result)

/-- How many samples are taken. -/
def sampleCount (samples : Int) : Nat := (max 2 samples).toNat

/-- `ips`. -/
def stableIps (identities : List Identity) : Finset String :=
  ((identities.filterMap (·.ip)).filter (· ≠ "")).toFinset

def verifyProxyEgressStability (proxyUrl : ProxyUrl) (samples : Int) (worlds : Nat → World) :
    Except Failure Identity := do
  if proxyUrl.protocol = "direct:" then return directIdentity
  let identities ← (List.range (sampleCount samples)).mapM fun i =>
    fetchProxyEgress engine (worlds i)
  let ips := stableIps identities
  match identities.getLast?.filter fun _ => ips.card = 1 with
  | some identity => return identity
  | none =>
    throw (.resolution .ipLookupFailed ("Residential sticky-session verification failed: " ++
      (if ips.card = 0 then "no" else toString ips.card) ++
      " stable exit IPs were observed. Target traffic was blocked.")
      (identities.flatMap (·.attempts)) none)

/-- The calls, as they are made. The reply to a call is what it returns at last. -/
def resolutions : EventSystem Cache Call (Option (Except Failure Identity)) where
  step cache
    | .resolve proxyUrl now world failedAt =>
      let (cache, result) := resolveProxyEgress engine capacity cache proxyUrl now world failedAt
      (cache, some result)
    | .verify proxyUrl samples worlds =>
      (cache, some (verifyProxyEgressStability engine proxyUrl samples worlds))
    | .reset => ([], none)

end Requests

end LinkSuffix.Egress
