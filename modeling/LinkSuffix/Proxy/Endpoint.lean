import LinkSuffix.Js.Value

/-!
# Endpoint keys

The keys a pool's endpoints are leased under (`leaseEndpointKeys`), and the physical endpoint a key
stands for (`physicalEndpointKey`). A shared gateway is leased by numbered session slots,
`host~pool~slot:port`; every other endpoint by `host:port`.
-/

namespace LinkSuffix

/-- `EVOMI_HOSTS`. -/
def evomiHosts : List String :=
  ["core-residential.evomi.com", "premium-residential.evomi.com", "rp.evomi.com",
    "rp.evomi-proxy.com"]

/-- A row of `tah_proxy_pools`. -/
structure ProxyPool where
  poolId : String
  providerId : String
  enabled : Bool
  endpointPorts : List Nat
  config : JsValue

/-- `slots` of `leaseEndpointKeys`. -/
def sessionSlots (pool : ProxyPool) : Rat :=
  match (pool.config.get "sessionCapacity").toNumber with
  | .nan => 100
  | .infinity negative => if negative then 1 else 500
  | .finite capacity => max 1 (min 500 (if capacity = 0 then 100 else capacity))

/-- `leaseEndpointKeys`; `digest` is the first four bytes of the SHA-256 of a text. -/
def leaseEndpointKeys (digest : String → Nat) (pool : ProxyPool)
    (host rotationMode sessionId : String) : Except String (List String) :=
  if jsLower host ∉ evomiHosts ∨ (pool.config.get "sessionSharedGateway").truthy = false ∨
      rotationMode ≠ "sticky-session" then
    .ok (pool.endpointPorts.map fun port => host ++ ":" ++ toString port)
  else
    let slots := sessionSlots pool
    if slots.den ≠ 1 ∨ 5000 < slots * pool.endpointPorts.length then
      .error "Shared gateway capacity exceeds the bounded lease limit"
    else
      let count := slots.num.toNat
      let offset := digest sessionId % count
      .ok (pool.endpointPorts.flatMap fun port => (List.range count).map fun index =>
        host ++ "~" ++ pool.poolId ++ "~" ++ toString ((index + offset) % count) ++ ":" ++
          toString port)

/-- The characters of a pool id in a key. -/
def isPoolChar (c : Char) : Bool := c.isLower || c.isDigit || c ∈ ['.', '_', '-']

/-- The nonempty run of characters a reversed key starts with, up to a separator. -/
def takeRun (p : Char → Bool) (separator : Char) (cs : List Char) : Option (List Char × List Char) :=
  match cs.takeWhile p, cs.dropWhile p with
  | [], _ => none
  | _, [] => none
  | run, c :: rest => if c = separator then some (run, rest) else none

/-- `physicalEndpointKey`: the key without a `~pool~slot` before its port. -/
def physicalEndpointKey (key : String) : String :=
  let stripped := do
    let (port, rest) ← takeRun Char.isDigit ':' key.toList.reverse
    let (_, rest) ← takeRun Char.isDigit '~' rest
    let (_, rest) ← takeRun isPoolChar '~' rest
    return String.ofList (rest.reverse ++ ':' :: port.reverse)
  stripped.getD key

/-- `endpointPort`: the number after the last colon. -/
def endpointPort (endpointKey : String) : Except String Nat :=
  let text := String.ofList (endpointKey.toList.reverse.takeWhile (· ≠ ':')).reverse
  match (textToNumber text).integer with
  | none => .error "Leased proxy endpoint has an invalid port"
  | some port =>
    if port < 1 ∨ 65535 < port then .error "Leased proxy endpoint has an invalid port"
    else .ok port.toNat

/-- `requireBrowserSessionId`. -/
def requireBrowserSessionId (value : Option String) : Except String String :=
  let failure := "A valid browser session ID is required; a campaign ID is not a fallback"
  match value with
  | none => .error failure
  | some value =>
    if 1 ≤ value.length ∧ value.length ≤ 128 ∧
        value.toList.all fun c => c.isAlphanum || c ∈ ['_', '-'] then .ok value
    else .error failure

end LinkSuffix
