import LinkSuffix.Lib.Run
import LinkSuffix.Lib.Table
import LinkSuffix.Proxy.Endpoint

/-!
# The proxy registry

The providers, pools and campaign policies of `proxy-provider-store.mjs`, with the checks of its
service and the two transactions of `proxy-provider-setup.mjs`. An input is any JSON value; it is
merged over the row it edits, field by field, and checked.

* `normalizeProvider`, `normalizePool`, `normalizePolicy`: the rows an input makes.
* `saveProvider`, `savePool`, `assignPolicy`, `setProviderEnabled`: the service.
* `saveProviderSetup`, `saveCampaignProxy`: the transactions.
-/

namespace LinkSuffix.ProxyRegistry

open Lib

/-! ## Fields -/

def text (value : JsValue) (field : String) (max : Nat) (required : Bool) :
    Except String String :=
  let result := match value with
    | .string value => trim value
    | _ => ""
  if required ∧ result = "" then .error (field ++ " is required")
  else if max < utf16Length result then .error (field ++ " is too long")
  else .ok result

/-- A character of an identifier after its first. -/
def isIdentifierChar (c : Char) : Bool := c.isLower || c.isDigit || c ∈ ['.', '_', '-']

/-- `ID_PATTERN`. -/
def isIdentifier (value : String) : Bool :=
  match value.toList with
  | [] => false
  | c :: cs => (c.isLower || c.isDigit) && cs.all isIdentifierChar && 1 ≤ cs.length &&
      cs.length ≤ 63

def identifier (value : JsValue) (field : String) : Except String String := do
  let result := jsLower (← text value field 64 true)
  if isIdentifier result then .ok result
  else .error (field ++
    " must contain only lowercase letters, numbers, dots, underscores, or hyphens")

/-- `enumValue`, for the values that `parse` knows. -/
def enumValue {α : Type} (parse : String → Option α) (value : JsValue) (field : String) :
    Except String α := do
  match parse (jsLower (← text value field 64 true)) with
  | none => .error (field ++ " is not supported")
  | some result => .ok result

/-- `host`; `hostnameOf` is the URL parser's host name of a text. -/
def host (hostnameOf : String → Option String) (value : JsValue) : Except String String := do
  let lowered := (jsLower (← text value "gatewayHost" 253 true)).toList
  let result := if lowered.getLast? = some '.' then lowered.dropLast else lowered
  if result.any fun c => c ∈ ['/', '\\', '@', ':'] || isJsSpace c then
    .error "gatewayHost must be a hostname or IPv4 address without a scheme, path, or port"
  else
    let name := String.ofList result
    if hostnameOf ("http://" ++ name) = some name ∧ name ≠ "" then .ok name
    else .error "gatewayHost is invalid"

/-- The items of an array, or of a text between commas. -/
def listed (value : JsValue) : List JsValue :=
  match value with
  | .array items => items
  | value => (splitText ',' (value.orElse (.string "")).toText).map .string

/-- `Number.isInteger(port) && port >= 1 && port <= 65535`. -/
def portOf (item : JsValue) : Option Nat :=
  match item.toNumber.integer with
  | none => none
  | some port => if 1 ≤ port ∧ port ≤ 65535 then some port.toNat else none

def ports (value : JsValue) (field : String) : Except String (List Nat) :=
  let result := ((listed value).filterMap portOf).eraseDups
  if result = [] ∨ 5000 < result.length then
    .error (field ++ " must contain between 1 and 5,000 valid ports")
  else .ok result

/-- `stringList`, for the values that `parse` knows. -/
def stringList {α : Type} (parse : String → Option α) (value : JsValue) (field : String) :
    Except String (List α) :=
  let texts := (((listed value).map fun item => jsLower (trim item.toText)).filter
    (· ≠ "")).eraseDups
  if texts = [] ∨ 16 < texts.length ∨ texts.any (fun item => (parse item).isNone) then
    .error (field ++ " contains an unsupported value")
  else .ok (texts.filterMap parse)

def plainObject (value : JsValue) : JsValue := .object value.record

/-- `Math.max(low, Math.min(high, n || fallback))`. -/
def clamp (low high fallback : Rat) : JsNumber → Rat
  | .nan => max low (min high fallback)
  | .infinity negative => if negative then low else high
  | .finite value => max low (min high (if value = 0 then fallback else value))

/-- `input?.name ?? existing.name ?? fallback`. -/
def field (input : JsValue) (name : String) (existing fallback : JsValue) : JsValue :=
  (input.get name).orElse (existing.orElse fallback)

/-- `input?.enabled === undefined ? existing.enabled !== false : input.enabled === true`. -/
def enabledField (input : JsValue) (existing : Option Bool) : Bool :=
  match input.get "enabled" with
  | .undefined => existing.getD true
  | value => value.isBool true

/-! ## Rows -/

inductive ProviderType where
  | iproyal | universal | custom
  deriving DecidableEq

def ProviderType.parse (value : String) : Option ProviderType :=
  if value = "iproyal" then some .iproyal
  else if value = "universal" then some .universal
  else if value = "custom" then some .custom
  else none

inductive Protocol where
  | http | https | socks5
  deriving DecidableEq

def Protocol.parse (value : String) : Option Protocol :=
  if value = "http" then some .http
  else if value = "https" then some .https
  else if value = "socks5" then some .socks5
  else none

inductive AuthMode where
  | usernamePassword | token | ipAllowlist
  deriving DecidableEq

def AuthMode.parse (value : String) : Option AuthMode :=
  if value = "username-password" then some .usernamePassword
  else if value = "token" then some .token
  else if value = "ip-allowlist" then some .ipAllowlist
  else none

inductive RotationMode where
  | perRequest | stickySession | portPool | providerManaged
  deriving DecidableEq

def RotationMode.parse (value : String) : Option RotationMode :=
  if value = "per-request" then some .perRequest
  else if value = "sticky-session" then some .stickySession
  else if value = "port-pool" then some .portPool
  else if value = "provider-managed" then some .providerManaged
  else none

def ProviderType.name : ProviderType → String
  | .iproyal => "iproyal"
  | .universal => "universal"
  | .custom => "custom"

def Protocol.name : Protocol → String
  | .http => "http"
  | .https => "https"
  | .socks5 => "socks5"

def AuthMode.name : AuthMode → String
  | .usernamePassword => "username-password"
  | .token => "token"
  | .ipAllowlist => "ip-allowlist"

def RotationMode.name : RotationMode → String
  | .perRequest => "per-request"
  | .stickySession => "sticky-session"
  | .portPool => "port-pool"
  | .providerManaged => "provider-managed"

/-- A row of `tah_proxy_providers`. -/
structure Provider where
  providerId : String
  name : String
  providerType : ProviderType
  enabled : Bool
  protocol : Protocol
  gatewayHost : String
  gatewayPorts : List Nat
  authMode : AuthMode
  usernameTemplate : String
  passwordTemplate : String
  rotationModes : List RotationMode
  capabilities : JsValue
  healthConfig : JsValue
  createdAt : Nat

/-- A row of `tah_proxy_pools`. -/
structure Pool where
  poolId : String
  providerId : String
  name : String
  enabled : Bool
  endpointPorts : List Nat
  defaultRotationMode : RotationMode
  maxConcurrentPerEndpoint : Rat
  config : JsValue
  createdAt : Nat

/-- A row of `tah_campaign_proxy_policies`. -/
structure Policy where
  campaignRecordId : String
  primaryProviderId : String
  primaryPoolId : String
  rotationMode : RotationMode
  fallbackProviderIds : List String
  stickyTtlSeconds : Rat
  geo : JsValue
  enabled : Bool
  createdAt : Nat

def ofPorts (ports : List Nat) : JsValue := .array (ports.map .ofNat)

/-- The fields of a row that an object literal spreads. -/
def Provider.fields (provider : Provider) : List (String × JsValue) := [
  ("providerId", .string provider.providerId), ("name", .string provider.name),
  ("providerType", .string provider.providerType.name), ("enabled", .bool provider.enabled),
  ("protocol", .string provider.protocol.name), ("gatewayHost", .string provider.gatewayHost),
  ("gatewayPorts", ofPorts provider.gatewayPorts), ("authMode", .string provider.authMode.name),
  ("usernameTemplate", .string provider.usernameTemplate),
  ("passwordTemplate", .string provider.passwordTemplate),
  ("rotationModes", .ofTexts (provider.rotationModes.map (·.name))),
  ("capabilities", provider.capabilities), ("healthConfig", provider.healthConfig),
  ("createdAt", .ofNat provider.createdAt)]

def Policy.fields (policy : Policy) : List (String × JsValue) := [
  ("campaignRecordId", .string policy.campaignRecordId),
  ("primaryProviderId", .string policy.primaryProviderId),
  ("primaryPoolId", .string policy.primaryPoolId), ("rotationMode", .string policy.rotationMode.name),
  ("fallbackProviderIds", .ofTexts policy.fallbackProviderIds),
  ("stickyTtlSeconds", .number (.finite policy.stickyTtlSeconds)), ("geo", policy.geo),
  ("enabled", .bool policy.enabled), ("createdAt", .ofNat policy.createdAt)]

/-- A field of the row that is edited, as a value. -/
def old {Row : Type} (existing : Option Row) (read : Row → JsValue) : JsValue :=
  (existing.map read).getD .undefined

def normalizeProvider (hostnameOf : String → Option String) (now : Nat) (input : JsValue)
    (existing : Option Provider) : Except String Provider := do
  let providerId ← identifier
    (field input "providerId" (old existing fun row => .string row.providerId) .undefined)
    "providerId"
  let providerType ← enumValue ProviderType.parse
    (field input "providerType" (old existing fun row => .string row.providerType.name)
      (.string "universal")) "providerType"
  let protocol ← enumValue Protocol.parse
    (field input "protocol" (old existing fun row => .string row.protocol.name) (.string "http"))
    "protocol"
  let authMode ← enumValue AuthMode.parse
    (field input "authMode" (old existing fun row => .string row.authMode.name)
      (.string "username-password")) "authMode"
  let rotationModes ← stringList RotationMode.parse
    (field input "rotationModes" (old existing fun row => .ofTexts (row.rotationModes.map (·.name)))
      (.ofTexts ["provider-managed"])) "rotationModes"
  let name ← text
    (field input "name" (old existing fun row => .string row.name) (.string providerId))
    "name" 120 true
  let gatewayHost ← host hostnameOf
    (field input "gatewayHost" (old existing fun row => .string row.gatewayHost) .undefined)
  let gatewayPorts ← ports
    (field input "gatewayPorts" (old existing fun row => ofPorts row.gatewayPorts) .undefined)
    "gatewayPorts"
  let usernameTemplate ← text
    (field input "usernameTemplate" (old existing fun row => .string row.usernameTemplate)
      (.string "{username}")) "usernameTemplate" 512 false
  let passwordTemplate ← text
    (field input "passwordTemplate" (old existing fun row => .string row.passwordTemplate)
      (.string "{password}")) "passwordTemplate" 512 false
  return {
    providerId, name, providerType, enabled := enabledField input (existing.map (·.enabled))
    protocol, gatewayHost, gatewayPorts, authMode, usernameTemplate, passwordTemplate
    rotationModes
    capabilities := plainObject (field input "capabilities" (old existing (·.capabilities)) .undefined)
    healthConfig := plainObject (field input "healthConfig" (old existing (·.healthConfig)) .undefined)
    createdAt := (existing.map (·.createdAt)).getD now }

def normalizePool (now : Nat) (input : JsValue) (existing : Option Pool) : Except String Pool := do
  let poolId ← identifier
    (field input "poolId" (old existing fun row => .string row.poolId) .undefined) "poolId"
  let providerId ← identifier
    (field input "providerId" (old existing fun row => .string row.providerId) .undefined)
    "providerId"
  let name ← text (field input "name" (old existing fun row => .string row.name) (.string poolId))
    "name" 120 true
  let endpointPorts ← ports
    (field input "endpointPorts" (old existing fun row => ofPorts row.endpointPorts) .undefined)
    "endpointPorts"
  let defaultRotationMode ← enumValue RotationMode.parse
    (field input "defaultRotationMode"
      (old existing fun row => .string row.defaultRotationMode.name) (.string "provider-managed"))
    "defaultRotationMode"
  return {
    poolId, providerId, name, enabled := enabledField input (existing.map (·.enabled))
    endpointPorts, defaultRotationMode
    maxConcurrentPerEndpoint := clamp 1 100 1 (field input "maxConcurrentPerEndpoint"
      (old existing fun row => .number (.finite row.maxConcurrentPerEndpoint)) (.ofNat 1)).toNumber
    config := plainObject (field input "config" (old existing (·.config)) .undefined)
    createdAt := (existing.map (·.createdAt)).getD now }

/-- The identifiers that an array of fallbacks lists. -/
def identifiers : List JsValue → Except String (List String)
  | [] => .ok []
  | item :: items => do
    let id ← identifier item "fallbackProviderId"
    let ids ← identifiers items
    return id :: ids

/-- The fallbacks of the input when it has an array, those of the row otherwise. -/
def fallbackItems (input : JsValue) (existing : Option Policy) : List JsValue :=
  match input.get "fallbackProviderIds" with
  | .array items => items
  | _ => ((existing.map (·.fallbackProviderIds)).getD []).map .string

def normalizePolicy (now : Nat) (input : JsValue) (existing : Option Policy) :
    Except String Policy := do
  let ids ← identifiers (fallbackItems input existing)
  let primaryProviderId ← identifier
    (field input "primaryProviderId" (old existing fun row => .string row.primaryProviderId)
      .undefined) "primaryProviderId"
  if primaryProviderId ∈ ids.eraseDups then
    throw "A fallback provider must differ from the primary provider"
  let campaignRecordId ← text
    (field input "campaignRecordId" (old existing fun row => .string row.campaignRecordId)
      .undefined) "campaignRecordId" 160 true
  let primaryPoolId ← identifier
    (field input "primaryPoolId" (old existing fun row => .string row.primaryPoolId) .undefined)
    "primaryPoolId"
  let rotationMode ← enumValue RotationMode.parse
    (field input "rotationMode" (old existing fun row => .string row.rotationMode.name)
      (.string "provider-managed")) "rotationMode"
  return {
    campaignRecordId, primaryProviderId, primaryPoolId, rotationMode
    fallbackProviderIds := ids.eraseDups
    stickyTtlSeconds := clamp 60 86400 1800 (field input "stickyTtlSeconds"
      (old existing fun row => .number (.finite row.stickyTtlSeconds)) (.ofNat 1800)).toNumber
    geo := plainObject (field input "geo" (old existing (·.geo)) .undefined)
    enabled := enabledField input (existing.map (·.enabled))
    createdAt := (existing.map (·.createdAt)).getD now }

/-! ## The tables -/

/-- The rows of the registry, and the credentials of its providers. -/
structure Registry where
  providers : List Provider := []
  pools : List Pool := []
  policies : List Policy := []
  secrets : List (String × List (String × JsValue)) := []

namespace Registry

variable (s : Registry)

def getProvider (providerId : String) : Option Provider :=
  s.providers.find? fun provider => provider.providerId = providerId

def getPool (poolId : String) : Option Pool := s.pools.find? fun pool => pool.poolId = poolId

def getPolicy (campaignRecordId : String) : Option Policy :=
  s.policies.find? fun policy => policy.campaignRecordId = campaignRecordId

/-- The credentials of a provider, decrypted. -/
def getSecret (providerId : String) : Option (List (String × JsValue)) :=
  (s.secrets.find? fun secret => secret.1 = providerId).map (·.2)

def upsertProvider (provider : Provider) : Registry :=
  { s with providers := upsertKey (·.providerId) provider s.providers }

/-- `upsertPool`: a second pool of its provider's with one name, and a limit that is no integer,
fail the statement. -/
def upsertPool (pool : Pool) : Except String Registry :=
  if s.pools.any fun other => other.poolId ≠ pool.poolId ∧ other.providerId = pool.providerId ∧
      other.name = pool.name then
    .error "duplicate key value violates unique constraint"
  else if pool.maxConcurrentPerEndpoint.den ≠ 1 then
    .error "invalid input syntax for type integer"
  else .ok { s with pools := upsertKey (·.poolId) pool s.pools }

/-- `upsertPolicy`, which fails for a time to live that is no integer. -/
def upsertPolicy (policy : Policy) : Except String Registry :=
  if policy.stickyTtlSeconds.den ≠ 1 then .error "invalid input syntax for type integer"
  else .ok { s with policies := upsertKey (·.campaignRecordId) policy s.policies }

def setSecret (providerId : String) (secret : List (String × JsValue)) : Registry :=
  { s with secrets := upsertKey (·.1) (providerId, secret) s.secrets }

end Registry

/-! ## The service -/

/-- What the service is built with: the host name of the URL parser, the digest of an id, and
whether the vault has a key. -/
structure Setting where
  hostnameOf : String → Option String
  digest : String → String
  vaultKey : Bool

section Service

variable (setting : Setting)

def saveSecret (s : Registry) (providerId : String) (secret : JsValue) : Except String Registry := do
  let id ← identifier (.string providerId) "providerId"
  if (s.getProvider id).isNone then throw "Provider not found"
  if !setting.vaultKey then
    throw "TAH_PROXY_VAULT_KEY is required before credentials can be stored"
  if secret.record.isEmpty then throw "At least one credential value is required"
  return s.setSecret id secret.record

def runtimeSecret (s : Registry) (providerId : String) :
    Except String (List (String × JsValue)) := do
  if !setting.vaultKey then throw "TAH_PROXY_VAULT_KEY is required"
  let id ← identifier (.string providerId) "providerId"
  match s.getSecret id with
  | none => throw "Provider credentials are not configured"
  | some secret => return secret

/-- The provider that `saveProvider` writes. -/
def savedProvider (s : Registry) (now : Nat) (input : JsValue) : Except String Provider :=
  let providerId := input.get "providerId"
  normalizeProvider setting.hostnameOf now input
    (if providerId.truthy then s.getProvider (jsLower providerId.toText) else none)

/-- The registry after `saveProvider`, whose provider is written before its credentials. -/
def saveProvider (s : Registry) (now : Nat) (input secret : JsValue) :
    Registry × Except String Provider :=
  match savedProvider setting s now input with
  | .error error => (s, .error error)
  | .ok provider =>
    let written := s.upsertProvider provider
    if secret.truthy ∧ secret.values.any fun value => (value.or (.string "")).toText ≠ "" then
      match saveSecret setting written provider.providerId secret with
      | .error error => (written, .error error)
      | .ok saved => (saved, .ok provider)
    else (written, .ok provider)

/-- The pool that `savePool` writes. -/
def savedPool (s : Registry) (now : Nat) (input : JsValue) : Except String Pool := do
  let poolId := input.get "poolId"
  let pool ← normalizePool now input
    (if poolId.truthy then s.getPool (jsLower poolId.toText) else none)
  match s.getProvider pool.providerId with
  | none => throw "Provider not found"
  | some provider =>
    if pool.defaultRotationMode ∉ provider.rotationModes then
      throw "Pool rotation mode is not supported by its provider"
    return pool

def savePool (s : Registry) (now : Nat) (input : JsValue) : Except String Registry := do
  s.upsertPool (← savedPool s now input)

/-- The policy that `assignPolicy` writes. -/
def assignedPolicy (s : Registry) (now : Nat) (input : JsValue) : Except String Policy := do
  let campaignRecordId := input.get "campaignRecordId"
  let policy ← normalizePolicy now input
    (if campaignRecordId.truthy then s.getPolicy campaignRecordId.toText else none)
  match s.getProvider policy.primaryProviderId, s.getPool policy.primaryPoolId with
  | some provider, some pool =>
    if pool.providerId ≠ provider.providerId then
      throw "Primary provider and pool do not match"
    if policy.rotationMode ∉ provider.rotationModes then
      throw "Campaign rotation mode is not supported by its provider"
    match policy.fallbackProviderIds.find? fun id => (s.getProvider id).isNone with
    | some fallbackId => throw s!"Fallback provider {fallbackId} was not found"
    | none => return policy
  | _, _ => throw "Primary provider and pool do not match"

def assignPolicy (s : Registry) (now : Nat) (input : JsValue) : Except String Registry := do
  s.upsertPolicy (← assignedPolicy s now input)

def setProviderEnabled (s : Registry) (providerId : JsValue) (enabled : Bool) :
    Except String Registry := do
  let id ← identifier providerId "providerId"
  if (s.getProvider id).isNone then throw "Provider not found"
  return { s with providers := updateKey (·.providerId) id (fun provider =>
    { provider with enabled := enabled }) s.providers }

/-! ## The transactions -/

/-- `isEvomi`, of the `gatewayHost` it reads. -/
def isEvomi (gatewayHost : JsValue) : Bool :=
  jsLower (gatewayHost.or (.string "")).toText ∈ evomiHosts

def defaultPoolId (id : String) : String :=
  if utf16Length id ≤ 56 then id ++ "-default"
  else sliceTo 44 id ++ "-" ++ sliceTo 8 (setting.digest id) ++ "-default"

/-- The fields `credentialInput` reads. -/
def credentialFields : List String := ["username", "password", "token"]

/-- The loop of `credentialInput`: a nonempty text that was supplied replaces the previous one. -/
def suppliedCredentials (supplied : JsValue) :
    List String → List (String × JsValue) → Except String (List (String × JsValue))
  | [], secret => .ok secret
  | name :: names, secret =>
    match supplied.get name with
    | .undefined => suppliedCredentials supplied names secret
    | .string value =>
      suppliedCredentials supplied names
        (if value = "" then secret else JsValue.spread secret [(name, .string value)])
    | _ => .error "Credential values must be strings"

def credentialInput (provider supplied : JsValue) (previous : List (String × JsValue)) :
    Except String JsValue := do
  let secret ← suppliedCredentials supplied credentialFields previous
  let authMode := provider.get "authMode"
  if authMode.isText "username-password" then
    if !(JsValue.lookup secret "username").truthy || !(JsValue.lookup secret "password").truthy then
      throw ("Username and password are required in the encrypted credential fields, " ++
        "not template fields")
    if !includesText ((provider.get "usernameTemplate").or (.string "{username}")).toText
          "{username}" ||
        !includesText ((provider.get "passwordTemplate").or (.string "{password}")).toText
          "{password}" then
      throw ("Use {username} and {password} in templates. " ++
        "Put actual login details in the encrypted credential fields")
  else if authMode.isText "token" ∧ !(JsValue.lookup secret "token").truthy then
    throw "A token is required in the encrypted credential field"
  return if authMode.isText "ip-allowlist" then .undefined else .object secret

/-- What `saveProviderSetup` sets for an EVOMI provider. -/
def evomiFields : List (String × JsValue) := [
  ("rotationModes", .ofTexts ["sticky-session"]),
  ("capabilities", .object [("country", .bool true), ("state", .bool true), ("city", .bool true),
    ("asn", .bool false), ("stickySession", .bool true), ("maximumSessionSeconds", .ofNat 86400)]),
  ("usernameTemplate", .string "{username}"), ("passwordTemplate", .string "{password}")]

/-- `automaticPool`: the input that saves the pool, unless the pool is to stay as it is. -/
def automaticPool (provider : Provider) (existing : Option Pool) :
    Except String (Option JsValue) := do
  let evomi := isEvomi (.string provider.gatewayHost)
  let sticky : Bool := .stickySession ∈ provider.rotationModes
  let mode : JsValue :=
    if evomi then .string "sticky-session"
    else if sticky then .string "sticky-session"
    else (provider.rotationModes.head?.map fun mode => .string mode.name).getD .undefined
  if evomi && !sticky then
    throw ("EVOMI browser journeys require sticky-session mode; " ++
      "a new session is assigned to each browser context")
  if existing.any fun pool => !(pool.config.get "autoManaged").isBool true then return none
  return some (.object [
    ("poolId", .string (defaultPoolId setting provider.providerId)),
    ("providerId", .string provider.providerId),
    ("name", .string (provider.name ++ " / Automatic")), ("enabled", .bool true),
    ("endpointPorts", ofPorts provider.gatewayPorts), ("defaultRotationMode", mode),
    ("maxConcurrentPerEndpoint", .ofNat 1),
    ("config", .object [("autoManaged", .bool true), ("sessionSharedGateway", .bool (sticky && evomi)),
      ("sessionCapacity", .ofNat 100)])])

/-- The provider input of `saveProviderSetup`, beside its credentials. -/
def setupInput (s : Registry) (input supplied : JsValue) :
    Except String (String × JsValue × JsValue) := do
  let id := jsLower (trim ((input.get "providerId").or (.string "")).toText)
  if !isIdentifier id then throw "Invalid provider ID"
  let existing := ((s.getProvider id).map (·.fields)).getD []
  let provider := JsValue.spread (JsValue.spread existing input.record) [("providerId", .string id)]
  let previous ← if (s.getSecret id).isSome then runtimeSecret setting s id else .ok []
  let secret ← credentialInput (.object provider) supplied previous
  let provider :=
    if isEvomi (JsValue.lookup provider "gatewayHost") then JsValue.spread provider evomiFields
    else provider
  return (id, .object provider, secret)

/-- The automatic pool of `saveProviderSetup`, once the provider is saved. -/
def saveAutomaticPool (s : Registry) (now : Nat) (id : String) (saved : Provider) :
    Except String Registry := do
  let currentPool := s.getPool (defaultPoolId setting id)
  if currentPool.any fun pool => pool.providerId ≠ id then
    throw "Automatic pool belongs to a different provider"
  match ← automaticPool setting saved currentPool with
  | none => return s
  | some input => savePool s now input

/-- `saveProviderSetup`, a transaction. -/
def saveProviderSetup (s : Registry) (now : Nat) (input supplied : JsValue) :
    Except String Registry := do
  let (id, provider, secret) ← setupInput setting s input supplied
  match saveProvider setting s now provider secret with
  | (_, .error error) => throw error
  | (written, .ok saved) => saveAutomaticPool setting written now id saved

/-- The campaign of `saveCampaignProxy`, stopped. `payload` is the stored campaign list. -/
def stoppedCampaign (payload : JsValue) (campaignRecordId : String) : Except String JsValue := do
  match payload.items.find? fun item => (item.get "id").isText campaignRecordId with
  | none => throw "Saved campaign was not found"
  | some campaign =>
    if !(campaign.get "status").isText "stopped" || (campaign.get "desiredRunning").isBool true ||
        (campaign.get "activeRunId").truthy then
      throw ("Stop the campaign and wait for its active run to finish " ++
        "before changing proxy selection")
    return campaign

/-- The policy input that `saveCampaignProxy` assigns. -/
def campaignPolicyInput (s : Registry) (input : JsValue) (campaignRecordId : String)
    (provider : Provider) (pool : Pool) : Except String JsValue := do
  let existing := s.getPolicy campaignRecordId
  let fallbacks ← match (input.get "fallbackProviderIds").or
      (old existing fun row => .ofTexts row.fallbackProviderIds) with
    | .array items => pure items
    | .undefined => pure []
    | other =>
      if other.truthy then throw "(intermediate value).filter is not a function" else pure []
  return .object (JsValue.spread
    (JsValue.spread ((existing.map (·.fields)).getD []) input.record) [
      ("campaignRecordId", .string campaignRecordId), ("enabled", .bool true),
      ("primaryProviderId", .string provider.providerId), ("primaryPoolId", .string pool.poolId),
      ("rotationMode", (input.get "rotationMode").or (.string pool.defaultRotationMode.name)),
      ("fallbackProviderIds", .array (fallbacks.filter fun id => !id.isText provider.providerId)),
      ("stickyTtlSeconds", ((input.get "stickyTtlSeconds").or
        (old existing fun row => .number (.finite row.stickyTtlSeconds))).or (.ofNat 1800)),
      ("geo", ((input.get "geo").or (old existing (·.geo))).or (.object []))])

/-- `saveCampaignProxy`, a transaction. -/
def saveCampaignProxy (s : Registry) (now : Nat) (payload input : JsValue) :
    Except String Registry := do
  let campaignRecordId := trim ((input.get "campaignRecordId").or (.string "")).toText
  if campaignRecordId = "" then throw "campaignRecordId is required"
  let campaign ← stoppedCampaign payload campaignRecordId
  if (input.get "enabled").isBool false then
    return { s with policies := updateKey (·.campaignRecordId) campaignRecordId (fun policy =>
      { policy with enabled := false }) s.policies }
  let config := campaign.get "config"
  if !(config.get "tier").isText "human" || !(config.get "continuous").isBool true ||
      (config.get "mitm").isBool true then
    throw "Saved proxy selection requires continuous browser mode without MITM"
  match s.getProvider ((input.get "primaryProviderId").or (.string "")).toText,
      s.getPool ((input.get "primaryPoolId").or (.string "")).toText with
  | some provider, some pool =>
    if !provider.enabled || !pool.enabled || pool.providerId ≠ provider.providerId then
      throw "Select an enabled provider and its matching pool"
    if provider.authMode ≠ .ipAllowlist then
      let _ ← runtimeSecret setting s provider.providerId
    assignPolicy s now (← campaignPolicyInput s input campaignRecordId provider pool)
  | _, _ => throw "Select an enabled provider and its matching pool"

end Service

/-! ## Sequences of operations -/

/-- An operation on the registry, at the time it runs. -/
inductive RegistryEvent where
  | saveProvider (now : Nat) (input secret : JsValue)
  | saveProviderSetup (now : Nat) (input supplied : JsValue)
  | savePool (now : Nat) (input : JsValue)
  | assignPolicy (now : Nat) (input : JsValue)
  | saveCampaignProxy (now : Nat) (payload input : JsValue)
  | setProviderEnabled (providerId : JsValue) (enabled : Bool)

/-- A statement or a transaction that fails changes nothing. -/
def committed (s : Registry) : Except String Registry → Registry
  | .error _ => s
  | .ok written => written

def step (setting : Setting) (s : Registry) : RegistryEvent → Registry
  | .saveProvider now input secret => (saveProvider setting s now input secret).1
  | .saveProviderSetup now input supplied =>
    committed s (saveProviderSetup setting s now input supplied)
  | .savePool now input => committed s (savePool s now input)
  | .assignPolicy now input => committed s (assignPolicy s now input)
  | .saveCampaignProxy now payload input =>
    committed s (saveCampaignProxy setting s now payload input)
  | .setProviderEnabled providerId enabled =>
    committed s (setProviderEnabled s providerId enabled)

/-- The registry, taking one operation after the other. -/
def registry (setting : Setting) : EventSystem Registry RegistryEvent Unit where
  step s e := (step setting s e, ())

end LinkSuffix.ProxyRegistry
