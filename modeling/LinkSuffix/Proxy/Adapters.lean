import LinkSuffix.Js.Case
import LinkSuffix.Js.Userinfo

/-!
# Proxy adapters

The endpoints of a provider (`packages/proxy/src/index.ts`): `buildProxyEndpoint`, which puts the
route of a run into an IPRoyal password, and the two adapters that render the credentials of a
provider. `new URL` of a gateway is a parameter.

* `Gateway`, `ProxyUrl`: a proxy's URL, with the setters of its credentials.
* `token`, `stripRouting`, `routedPassword`, `buildProxyEndpoint`: the IPRoyal route.
* `validateProxyProvider`, `renderTemplate`, `assertRequestSupported`: what the adapters share.
* `universalResidentialAdapter`, `ipRoyalProviderAdapter`: the adapters.
-/

namespace LinkSuffix.Adapter

/-! ## URLs of proxies -/

/-- `new URL("protocol://host:port")`. -/
structure Gateway where
  protocol : String
  hostname : String
  port : String
  deriving DecidableEq

/-- `new URL(text)` of a gateway's text, where it does not throw. -/
abbrev GatewayParser := String → Option Gateway

/-- A gateway with the credentials its setters were given, percent-encoded. -/
structure ProxyUrl extends Gateway where
  username : String := ""
  password : String := ""
  deriving DecidableEq

/-- `url.username = username; url.password = password`. -/
def Gateway.withCredentials (gateway : Gateway) (username password : String) : ProxyUrl :=
  { toGateway := gateway
    username := String.ofList (encodeUserinfo username.toList)
    password := String.ofList (encodeUserinfo password.toList) }

/-! ## Requests -/

inductive ProxyMode where
  | rotatingResidential
  | stickyResidential
  deriving DecidableEq

structure GeoTarget where
  country : String
  state : Option String := none
  city : Option String := none

/-- An optional text that is not empty. -/
def given (value : Option String) : Option String := value.filter (· ≠ "")

structure ProxyEndpoint where
  url : ProxyUrl
  mode : ProxyMode
  sessionId : Option String

structure ProxyCredentials where
  user : String
  pass : String

/-! ## The IPRoyal route -/

/-- `US_STATES`. -/
def usStates : List (String × String) :=
  [("al", "alabama"), ("ak", "alaska"), ("az", "arizona"), ("ar", "arkansas"),
    ("ca", "california"), ("co", "colorado"), ("ct", "connecticut"), ("de", "delaware"),
    ("fl", "florida"), ("ga", "georgia"), ("hi", "hawaii"), ("id", "idaho"), ("il", "illinois"),
    ("in", "indiana"), ("ia", "iowa"), ("ks", "kansas"), ("ky", "kentucky"), ("la", "louisiana"),
    ("me", "maine"), ("md", "maryland"), ("ma", "massachusetts"), ("mi", "michigan"),
    ("mn", "minnesota"), ("ms", "mississippi"), ("mo", "missouri"), ("mt", "montana"),
    ("ne", "nebraska"), ("nv", "nevada"), ("nh", "newhampshire"), ("nj", "newjersey"),
    ("nm", "newmexico"), ("ny", "newyork"), ("nc", "northcarolina"), ("nd", "northdakota"),
    ("oh", "ohio"), ("ok", "oklahoma"), ("or", "oregon"), ("pa", "pennsylvania"),
    ("ri", "rhodeisland"), ("sc", "southcarolina"), ("sd", "southdakota"), ("tn", "tennessee"),
    ("tx", "texas"), ("ut", "utah"), ("vt", "vermont"), ("va", "virginia"), ("wa", "washington"),
    ("wv", "westvirginia"), ("wi", "wisconsin"), ("wy", "wyoming"), ("dc", "districtofcolumbia")]

/-- Every run of hyphens becomes one. -/
def collapseHyphens : List Char → List Char
  | '-' :: '-' :: cs => collapseHyphens ('-' :: cs)
  | c :: cs => c :: collapseHyphens cs
  | [] => []

def isTokenChar (c : Char) : Bool := c.isLower || c.isDigit || c = '-'

/-- `token` of `buildProxyEndpoint`. -/
def token (value : String) : String :=
  String.ofList (collapseHyphens ((toLowerCase (trim value).toList).map fun c =>
    if isTokenChar c then c else '-'))

/-- `US_STATES[state] ?? state` in a text. Besides the states, an object literal has one more
property a token can name: its `constructor`. -/
def stateName (state : String) : String :=
  match usStates.find? fun entry => entry.1 = state with
  | some entry => entry.2
  | none => if state = "constructor" then "function Object() { [native code] }" else state

def routingWords : List String := ["country", "state", "city", "session", "lifetime", "streaming"]

def isLineTerminator (c : Char) : Bool := c ∈ ['\n', '\r', '\u2028', '\u2029']

/-- `/_(?:country|state|city|session|lifetime|streaming)-.*$/i` matches here. -/
def startsRouting (cs : List Char) : Bool :=
  routingWords.any fun word =>
    let opening := '_' :: word.toList ++ ['-']
    ((cs.take opening.length).map Char.toLower = opening) &&
      (cs.drop opening.length).all fun c => !isLineTerminator c

/-- `pass.replace(/_(?:country|state|city|session|lifetime|streaming)-.*$/i, "")`. -/
def stripRouting : List Char → List Char
  | [] => []
  | c :: cs => if startsRouting (c :: cs) then [] else c :: stripRouting cs

/-- The password a run's route is appended to. -/
def basePassword (pass : String) : String := String.ofList (stripRouting pass.toList)

/-- The country, state and city a password is given. -/
def geoSuffix (geo : GeoTarget) : String :=
  if geo.country = "" then ""
  else
    let state := match given geo.state with
      | none => ""
      | some state =>
        "_state-" ++
          if asciiLower geo.country = "us" then stateName (token state) else token state
    let city := match given geo.city with
      | none => ""
      | some city => "_city-" ++ token city
    "_country-" ++ token geo.country ++ state ++ city

/-- `/^[a-z0-9]{8}$/`. -/
def isStickySession (session : String) : Bool :=
  session.length = 8 && session.toList.all fun c => c.isLower || c.isDigit

/-- The password of `buildProxyEndpoint`. -/
def routedPassword (geo : GeoTarget) (mode : ProxyMode) (pass : String)
    (sessionId : Option String) : Except String String :=
  let password := basePassword pass ++ geoSuffix geo
  match mode with
  | .rotatingResidential => .ok password
  | .stickyResidential =>
    let session := token (sessionId.getD "")
    if isStickySession session then .ok (password ++ "_session-" ++ session ++ "_lifetime-1h")
    else .error "IPRoyal sticky session IDs must contain exactly 8 alphanumeric characters"

/-- `IPROYAL_USERNAME_REGEX`. -/
def isIproyalUsername (user : String) : Bool :=
  user ≠ "" && user.toList.all fun c => c.isAlphanum || c ∈ ['.', '_', '-']

/-- `/^[a-z0-9][a-z0-9.-]{0,252}$/`. -/
def isGatewayHostname (hostname : String) : Bool :=
  match hostname.toList with
  | [] => false
  | c :: cs => (c.isLower || c.isDigit) && cs.length ≤ 252 &&
      cs.all fun c => c.isLower || c.isDigit || c ∈ ['.', '-']

/-- The port, when it is an integer from 1 to 65535. -/
def portNumber (port : JsNumber) : Option Nat :=
  match port.integer with
  | some port => if 1 ≤ port ∧ port ≤ 65535 then some port.toNat else none
  | none => none

/-- `HOSTNAMES` and `PROXY_PORT`. -/
structure Defaults where
  hostname : String := "geo.iproyal.com"
  port : JsNumber := .finite 12321

/-- `buildProxyEndpoint(geo, mode, creds, sessionId, gateway)`. -/
def buildProxyEndpoint (parse : GatewayParser) (defaults : Defaults) (geo : GeoTarget)
    (mode : ProxyMode) (creds : ProxyCredentials) (sessionId : Option String)
    (hostname : Option String) (port : Option JsNumber) : Except String ProxyEndpoint := do
  if isIproyalUsername creds.user = false then
    throw ("Invalid IP Royal account username (must be alphanumeric): " ++ creds.user)
  let password ← routedPassword geo mode creds.pass sessionId
  let hostname := String.ofList (toLowerCase (trim (hostname.getD defaults.hostname)).toList)
  if isGatewayHostname hostname = false then throw "Invalid proxy gateway hostname"
  match portNumber (port.getD defaults.port) with
  | none => throw "Invalid proxy gateway port"
  | some port =>
    match parse ("http://" ++ hostname ++ ":" ++ toString port) with
    | none => throw "Invalid URL"
    | some gateway =>
      return { url := gateway.withCredentials creds.user password, mode, sessionId }

/-! ## Providers -/

inductive ProxyProtocol where
  | http
  | https
  | socks5
  deriving DecidableEq

def ProxyProtocol.text : ProxyProtocol → String
  | .http => "http"
  | .https => "https"
  | .socks5 => "socks5"

inductive ProxyAuthMode where
  | usernamePassword
  | token
  | ipAllowlist
  deriving DecidableEq

inductive ProxyRotationMode where
  | perRequest
  | stickySession
  | portPool
  | providerManaged
  deriving DecidableEq

def ProxyRotationMode.text : ProxyRotationMode → String
  | .perRequest => "per-request"
  | .stickySession => "sticky-session"
  | .portPool => "port-pool"
  | .providerManaged => "provider-managed"

structure ProxyProviderCapabilities where
  country : Option Bool := none
  state : Option Bool := none
  city : Option Bool := none
  asn : Option Bool := none
  stickySession : Option Bool := none
  maximumSessionSeconds : Option JsNumber := none

structure ProxyProviderDefinition where
  id : String
  name : String
  enabled : Bool
  protocol : ProxyProtocol
  host : String
  ports : List JsNumber
  authMode : ProxyAuthMode
  usernameTemplate : Option String := none
  passwordTemplate : Option String := none
  rotationModes : List ProxyRotationMode
  capabilities : ProxyProviderCapabilities := {}

structure ProxyProviderSecret where
  username : Option String := none
  password : Option String := none
  token : Option String := none

structure ProxyLeaseRequest where
  geo : GeoTarget
  rotationMode : ProxyRotationMode
  sessionId : Option String := none
  ttlSeconds : Option JsNumber := none
  port : Option JsNumber := none
  asn : Option String := none

structure ProviderProxyEndpoint extends ProxyEndpoint where
  providerId : String
  protocol : ProxyProtocol
  rotationMode : ProxyRotationMode
  port : JsNumber

/-! ### Templates -/

/-- A character of a template, or a token in braces. -/
inductive Piece where
  | char (c : Char)
  | token (name : List Char)
  deriving DecidableEq

/-- The name of the token a text starts with: `/\{([A-Za-z][A-Za-z0-9]*)\}/`. -/
def tokenAt : List Char → Option (List Char)
  | '{' :: cs =>
    match cs.takeWhile Char.isAlphanum, cs.dropWhile Char.isAlphanum with
    | c :: name, '}' :: _ => if c.isAlpha then some (c :: name) else none
    | _, _ => none
  | _ => none

/-- The pieces of a template; the first `skip` characters belong to a token already read. -/
def pieces : Nat → List Char → List Piece
  | _, [] => []
  | skip + 1, _ :: cs => pieces skip cs
  | 0, c :: cs =>
    match tokenAt (c :: cs) with
    | some name => .token name :: pieces (name.length + 1) cs
    | none => .char c :: pieces 0 cs

def allowedTemplateTokens : List String :=
  ["username", "password", "token", "country", "state", "city", "asn", "sessionId", "ttl"]

def templatePieces (template : String) : List Piece := pieces 0 template.toList

/-- `validateTemplate(template, field)`. -/
def validateTemplate (template : Option String) (field : String) : Except String Unit :=
  match template with
  | none => .ok ()
  | some template =>
    if 512 < utf16Length template then .error (field ++ " exceeds 512 characters")
    else
      let unsupported := (templatePieces template).findSome? fun piece =>
        match piece with
        | .token name =>
          if String.ofList name ∈ allowedTemplateTokens then none else some (String.ofList name)
        | .char _ => none
      match unsupported with
      | some name => .error (field ++ " contains unsupported token \x7b" ++ name ++ "\x7d")
      | none =>
        if .char '\x7b' ∈ templatePieces template ∨ .char '\x7d' ∈ templatePieces template then
          .error (field ++ " contains malformed template syntax")
        else .ok ()

def isTemplateTokenChar (c : Char) : Bool :=
  c.isLower || c.isDigit || c ∈ ['.', '_', '-']

/-- `normalizedTemplateToken(value)`. -/
def normalizedTemplateToken (value : Option String) : String :=
  String.ofList (collapseHyphens ((toLowerCase (trim (value.getD "")).toList).map fun c =>
    if isTemplateTokenChar c then c else '-'))

/-- What a piece of a template is replaced by. -/
def renderPiece (values : List (String × String)) : Piece → Except String (List Char)
  | .char c => .ok [c]
  | .token name =>
    if String.ofList name ∈ allowedTemplateTokens then
      match values.find? fun value => value.1 = String.ofList name with
      | some value => .ok value.2.toList
      | none => .error ("Proxy template requires " ++ String.ofList name)
    else .error ("Unsupported proxy template token \x7b" ++ String.ofList name ++ "\x7d")

/-- `renderTemplate(template, values)`. -/
def renderTemplate (template : String) (values : List (String × String)) :
    Except String String := do
  let parts ← (templatePieces template).mapM (renderPiece values)
  return String.ofList parts.flatten

/-! ### Checks -/

/-- `PROVIDER_ID_PATTERN`. -/
def isProviderId (id : String) : Bool :=
  match id.toList with
  | [] => false
  | c :: cs => (c.isLower || c.isDigit) && 1 ≤ cs.length && cs.length ≤ 63 &&
      cs.all isTemplateTokenChar

/-- `GATEWAY_HOST_PATTERN`. -/
def isProviderHost (host : String) : Bool :=
  match host.toList with
  | [] => false
  | c :: cs => (c.isLower || c.isDigit) && cs.length ≤ 252 &&
      (cs.all fun c => c.isLower || c.isDigit || c ∈ ['.', '-']) &&
      (cs.getLast?.all fun c => c.isLower || c.isDigit)

/-- `provider.host.trim().toLowerCase()`. -/
def ProxyProviderDefinition.hostname (provider : ProxyProviderDefinition) : String :=
  String.ofList (toLowerCase (trim provider.host).toList)

/-- `validateProxyProvider(provider)`; the kind, protocol and modes are valid by their types. -/
def validateProxyProvider (provider : ProxyProviderDefinition) : Except String Unit := do
  if isProviderId provider.id = false then
    throw ("Provider ID must contain 2-64 lowercase letters, numbers, dots, underscores, or " ++
      "hyphens")
  if trim provider.name = "" ∨ 120 < utf16Length provider.name then
    throw "Provider name is required and must not exceed 120 characters"
  if isProviderHost provider.hostname = false then throw "Invalid proxy gateway hostname"
  if provider.ports = [] ∨ 5000 < provider.ports.length then
    throw "Provider must define between 1 and 5,000 gateway ports"
  if ¬provider.ports.Nodup ∨ provider.ports.any fun port => (portNumber port).isNone then
    throw "Provider gateway ports must be unique integers between 1 and 65535"
  if provider.rotationModes = [] ∨ ¬provider.rotationModes.Nodup then
    throw "Provider must define unique rotation modes"
  if .stickySession ∈ provider.rotationModes ∧ provider.capabilities.stickySession = some false then
    throw "Sticky rotation requires sticky-session capability"
  validateTemplate provider.usernameTemplate "Username template"
  validateTemplate provider.passwordTemplate "Password template"

/-- `ttl < 60 || ttl > maximum` or no integer. -/
def isSessionTtl (ttl maximum : JsNumber) : Bool :=
  match ttl.integer with
  | none => false
  | some ttl => 60 ≤ ttl && match maximum with
    | .nan => true
    | .infinity negative => !negative
    | .finite maximum => (ttl : Rat) ≤ maximum

/-- `assertRequestSupported(provider, request)`. -/
def assertRequestSupported (provider : ProxyProviderDefinition) (request : ProxyLeaseRequest) :
    Except String Unit := do
  let capabilities := provider.capabilities
  if provider.enabled = false then throw "Proxy provider is disabled"
  if request.rotationMode ∉ provider.rotationModes then
    throw ("Provider does not support " ++ request.rotationMode.text ++ " rotation")
  if request.geo.country ≠ "" ∧ capabilities.country = some false then
    throw "Provider does not support country targeting"
  if (given request.geo.state).isSome ∧ capabilities.state ≠ some true then
    throw "Provider does not support state targeting"
  if (given request.geo.city).isSome ∧ capabilities.city ≠ some true then
    throw "Provider does not support city targeting"
  if (given request.asn).isSome ∧ capabilities.asn ≠ some true then
    throw "Provider does not support ASN targeting"
  if request.rotationMode = .stickySession ∧ trim (request.sessionId.getD "") = "" then
    throw "Sticky sessions require a session ID"
  match request.ttlSeconds with
  | none => return ()
  | some ttl =>
    let maximum := match capabilities.maximumSessionSeconds with
      | some maximum => if maximum.truthy then maximum else .finite 86400
      | none => .finite 86400
    if isSessionTtl ttl maximum then return ()
    else throw ("Session TTL must be between 60 and " ++ maximum.toText ++ " seconds")

/-- `request.port ?? firstProviderPort(provider)`, one of the provider's ports. -/
def requestPort (provider : ProxyProviderDefinition) (request : ProxyLeaseRequest)
    (failure : String) : Except String JsNumber := do
  let port ← match request.port, provider.ports with
    | some port, _ => Except.ok port
    | none, port :: _ => Except.ok port
    | none, [] => throw "Proxy provider has no gateway port"
  if port ∈ provider.ports then return port else throw failure

def ProxyLeaseRequest.mode (request : ProxyLeaseRequest) : ProxyMode :=
  if request.rotationMode = .stickySession then .stickyResidential else .rotatingResidential

/-! ## The adapters -/

/-- The values a template is rendered with. -/
def templateValues (secret : ProxyProviderSecret) (request : ProxyLeaseRequest) :
    List (String × String) :=
  [("country", normalizedTemplateToken (some request.geo.country)),
    ("state", normalizedTemplateToken request.geo.state),
    ("city", normalizedTemplateToken request.geo.city),
    ("asn", normalizedTemplateToken request.asn),
    ("sessionId", normalizedTemplateToken request.sessionId),
    ("ttl", (request.ttlSeconds.getD (.finite 3600)).toText),
    ("username", secret.username.getD ""),
    ("password", secret.password.getD ""),
    ("token", secret.token.getD "")]

/-- The username and password a provider renders. -/
def renderedCredentials (provider : ProxyProviderDefinition) (secret : ProxyProviderSecret)
    (request : ProxyLeaseRequest) : Except String (String × String) := do
  let values := templateValues secret request
  match provider.authMode with
  | .usernamePassword =>
    if (given secret.username).isNone ∨ (given secret.password).isNone then
      throw "Provider credentials are incomplete"
    let username ← renderTemplate ((given provider.usernameTemplate).getD "\x7busername\x7d") values
    let password ← renderTemplate ((given provider.passwordTemplate).getD "\x7bpassword\x7d") values
    return (username, password)
  | .token =>
    if (given secret.token).isNone then throw "Provider token is missing"
    let username ← renderTemplate ((given provider.usernameTemplate).getD "\x7btoken\x7d") values
    let password ← renderTemplate (provider.passwordTemplate.getD "") values
    return (username, password)
  | .ipAllowlist => return ("", "")

/-- `universalResidentialAdapter.buildEndpoint(provider, secret, request)`. -/
def universalResidentialAdapter (parse : GatewayParser) (provider : ProxyProviderDefinition)
    (secret : ProxyProviderSecret) (request : ProxyLeaseRequest) :
    Except String ProviderProxyEndpoint := do
  validateProxyProvider provider
  assertRequestSupported provider request
  let port ← requestPort provider request "Requested gateway port is not part of this provider"
  let (username, password) ← renderedCredentials provider secret request
  match parse (provider.protocol.text ++ "://" ++ provider.hostname ++ ":" ++ port.toText) with
  | none => throw "Invalid URL"
  | some gateway =>
    return {
      url := gateway.withCredentials username password, mode := request.mode
      sessionId := request.sessionId, providerId := provider.id, protocol := provider.protocol
      rotationMode := request.rotationMode, port }

/-- `ipRoyalProviderAdapter.buildEndpoint(provider, secret, request)`. -/
def ipRoyalProviderAdapter (parse : GatewayParser) (defaults : Defaults)
    (provider : ProxyProviderDefinition) (secret : ProxyProviderSecret)
    (request : ProxyLeaseRequest) : Except String ProviderProxyEndpoint := do
  validateProxyProvider provider
  assertRequestSupported provider request
  match given secret.username, given secret.password with
  | some username, some password =>
    let port ← requestPort provider request "Requested IPRoyal port is not part of this provider"
    let endpoint ← buildProxyEndpoint parse defaults request.geo request.mode
      { user := username, pass := password } request.sessionId (some provider.host) (some port)
    return { endpoint with
      providerId := provider.id, protocol := .http, rotationMode := request.rotationMode, port }
  | _, _ => throw "IPRoyal credentials are incomplete"

end LinkSuffix.Adapter
