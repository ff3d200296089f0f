import LinkSuffix.Js.IpSpelling
import LinkSuffix.Worker.RedirectFirst

/-!
# The address policy

Which addresses the services may reach is decided three times: `isPublicAddress` of the proxy package
(`network.ts`), `isBlockedAddress` of the web side (`url-security.ts`) and `blockedTargetAddress` of
the control server (`control.mjs`). The first one asks `new URL` for the canonical spelling of an
IPv6 address; the other two test the text they are given.

* `Spells`: an address and the texts `isIP` accepts for it, in brackets or not.
* `IpAddress.Special`: the addresses no service may reach.
* `Uniform`: a text gets the verdicts of its canonical spelling, and a special address is refused.
  `Conforms`: where each text is spelled as the tests expect.

`Number.parseInt` is modelled on what comes to it: no sign, space or `0x`.
-/

namespace LinkSuffix.AddressPolicy

/-! ## The guards -/

/-- `parts.map(Number)`, one part that is an integer of a byte. -/
def byteOf (part : String) : Option Nat :=
  match textToNumber part with
  | .finite value => if value.den = 1 ∧ 0 ≤ value ∧ value ≤ 255 then some value.num.toNat else none
  | _ => none

def ipv4Bytes (address : String) : Option (List Nat) :=
  let parts := splitText '.' address
  if parts.length ≠ 4 then none else parts.mapM byteOf

/-- The reserved ranges of both lists. -/
def reservedBytes (bytes : List Nat) : Bool :=
  let a := bytes.getD 0 0
  let b := bytes.getD 1 0
  let c := bytes.getD 2 0
  a = 0 || a = 10 || a = 127 || (a = 100 && 64 ≤ b && b ≤ 127) || (a = 169 && b = 254) ||
    (a = 172 && 16 ≤ b && b ≤ 31) || (a = 192 && b = 0 && c = 0) || (a = 192 && b = 0 && c = 2) ||
    (a = 192 && b = 168) || (a = 198 && (b = 18 || b = 19)) || (a = 198 && b = 51 && c = 100) ||
    (a = 203 && b = 0 && c = 113) || 224 ≤ a

def blockedIpv4 (address : String) : Bool :=
  match ipv4Bytes address with
  | none => true
  | some bytes => reservedBytes bytes

/-- `normalizedIpv6`: lower case, no brackets, no zone. -/
def normalizedIpv6 (address : String) : String :=
  String.ofList (beforeZone (unbracket (jsLower address)).toList)

/-- `/^::ffff:(\d+\.\d+\.\d+\.\d+)$/`. -/
def mappedIpv4 (normalized : String) : Option String :=
  let rest := normalized.toList.drop 7
  let parts := splitOnChar '.' rest
  if hasPrefix "::ffff:" normalized ∧ parts.length = 4 ∧
      parts.all fun part => part ≠ [] && part.all Char.isDigit then some (String.ofList rest)
  else none

/-- `Number.parseInt(normalized.split(":")[0] || "0", 16)`, and zero for what is no number. -/
def firstGroup (normalized : String) : Nat :=
  match splitOnChar ':' normalized.toList with
  | [] => 0
  | first :: _ => (parseRadix 16 hexValue (first.takeWhile fun c => (hexValue c).isSome)).getD 0

/-- The ranges tested by a mask, and the documentation prefix. -/
def reservedIpv6 (normalized : String) : Bool :=
  let first := firstGroup normalized
  first &&& 0xfe00 = 0xfc00 || first &&& 0xffc0 = 0xfe80 || first &&& 0xff00 = 0xff00 ||
    hasPrefix "2001:db8:" normalized

def isBlockedAddress (address : String) : Bool :=
  let version := isIP (String.ofList (beforeZone (unbracket address).toList))
  if version = 4 then blockedIpv4 address
  else if version ≠ 6 then true
  else
    let normalized := normalizedIpv6 address
    if normalized = "::" ∨ normalized = "::1" then true
    else
      match mappedIpv4 normalized with
      | some ip => blockedIpv4 ip
      | none => reservedIpv6 normalized

/-- The list of the control server is the one of `blockedIpv4`. -/
def blockedTargetIpv4 (address : String) : Bool := blockedIpv4 address

def blockedTargetAddress (address : String) : Bool :=
  let normalized := normalizedIpv6 address
  let version := isIP normalized
  if version = 4 then blockedTargetIpv4 normalized
  else if version ≠ 6 then true
  else if normalized = "::" ∨ normalized = "::1" ∨ hasPrefix "::ffff:" normalized then true
  else reservedIpv6 normalized

example : isBlockedAddress "[FE80::1%eth0]" = true ∧ isBlockedAddress "2606:4700::1111" = false := by
  decide +kernel

/-! ## Addresses -/

/-- A text as it stands or in brackets. -/
def Bracketed (raw text : String) : Prop := raw = text ∨ raw = "[" ++ text ++ "]"

/-- A text that `isIP` accepts, and the address it spells: a zone is no part of it. -/
def Spells (raw : String) : IpAddress → Prop
  | .four ip => ∃ text, isIP text = 4 ∧ parseIpv4 text.toList = some ip.octets ∧ Bracketed raw text
  | .six ip => ∃ text, isIP text = 6 ∧ parseIpv6 (beforeZone text.toList) = some ip.groups ∧
      Bracketed raw text

/-- Loopback, unspecified, private, link-local, multicast and documentation addresses. -/
def SpecialBytes (bytes : List Nat) : Prop :=
  let a := bytes.getD 0 0
  let b := bytes.getD 1 0
  let c := bytes.getD 2 0
  a = 127 ∨ bytes = [0, 0, 0, 0] ∨ a = 10 ∨ (a = 172 ∧ 16 ≤ b ∧ b ≤ 31) ∨ (a = 192 ∧ b = 168) ∨
    (a = 169 ∧ b = 254) ∨ (224 ≤ a ∧ a ≤ 239) ∨ (a = 192 ∧ b = 0 ∧ c = 2) ∨
    (a = 198 ∧ b = 51 ∧ c = 100) ∨ (a = 203 ∧ b = 0 ∧ c = 113)

/-- The IPv4 address in `::ffff:0:0/96`. -/
def mappedBytes : List Nat → Option (List Nat)
  | [a, b, c, d, e, f, x, y] =>
    if a = 0 ∧ b = 0 ∧ c = 0 ∧ d = 0 ∧ e = 0 ∧ f = 0xffff then
      some [x / 256, x % 256, y / 256, y % 256]
    else none
  | _ => none

/-- `2001:db8::/32`. -/
def InDocumentation (groups : List Nat) : Prop := groups.take 2 = [0x2001, 0xdb8]

/-- `3fff::/20`, the newer documentation prefix. -/
def InNewDocumentation (groups : List Nat) : Prop :=
  groups.getD 0 0 = 0x3fff ∧ groups.getD 1 0 < 0x1000

/-- `fc00::/7`, `fe80::/10` or `ff00::/8`. -/
def InLocal (first : Nat) : Prop :=
  (0xfc00 ≤ first ∧ first ≤ 0xfdff) ∨ (0xfe80 ≤ first ∧ first ≤ 0xfebf) ∨ 0xff00 ≤ first

def unspecified : List Nat := [0, 0, 0, 0, 0, 0, 0, 0]

def loopback : List Nat := [0, 0, 0, 0, 0, 0, 0, 1]

def Special : IpAddress → Prop
  | .four ip => SpecialBytes ip.octets
  | .six ip => ip.groups = unspecified ∨ ip.groups = loopback ∨ InLocal (ip.groups.getD 0 0) ∨
      InDocumentation ip.groups ∨ InNewDocumentation ip.groups ∨
      ∃ bytes ∈ mappedBytes ip.groups, SpecialBytes bytes

/-- `new URL` writes the host of an IPv6 address canonically and refuses a zone. -/
def ReadsIpv6 (P : UrlParser) : Prop :=
  ∀ text, isIP text = 6 → (P.parse ("http://[" ++ text ++ "]/")).map Url.hostname =
    (parseIpv6 text.toList).map fun groups => String.ofList ('[' :: serialize groups ++ [']'])

/-- A text of an address gets the verdicts of the canonical one, and a special address is refused. -/
structure Uniform (P : UrlParser) (raw : String) (address : IpAddress) : Prop where
  isPublic : isPublicAddress P isIP raw = isPublicAddress P isIP address.canonical
  isBlocked : isBlockedAddress raw = isBlockedAddress address.canonical
  blockedTarget : blockedTargetAddress raw = blockedTargetAddress address.canonical
  special : Special address → isPublicAddress P isIP raw = false ∧ isBlockedAddress raw = true ∧
    blockedTargetAddress raw = true

/-- A global address: `2000::/3` outside `2001::/32`, `2001:db8::/32` and `2002::/16`. -/
def Global (groups : List Nat) : Prop :=
  (0x2000 ≤ groups.getD 0 0 ∧ groups.getD 0 0 ≤ 0x3fff) ∧
    ¬(groups.getD 0 0 = 0x2001 ∧ (groups.getD 1 0 = 0 ∨ groups.getD 1 0 = 0xdb8)) ∧
    groups.getD 0 0 ≠ 0x2002

/-- Where a text is tested, it is spelled as the test expects. -/
structure SpelledOut (raw : String) (groups : List Nat) : Prop where
  zone : '%' ∈ raw.toList → ¬Global groups
  unspecified : groups = unspecified → normalizedIpv6 raw = "::"
  loopback : groups = loopback → normalizedIpv6 raw = "::1"
  documentation : InDocumentation groups → hasPrefix "2001:db8:" (normalizedIpv6 raw) = true
  newDocumentation : ¬InNewDocumentation groups
  compressed : hasPrefix "::ffff:" (normalizedIpv6 raw) =
    hasPrefix "::ffff:" (String.ofList (serialize groups))
  mapped : ∀ bytes ∈ mappedBytes groups, ¬SpecialBytes bytes ∧
    (reservedBytes bytes = true → mappedIpv4 (normalizedIpv6 raw) = none)

/-- The texts whose verdicts are uniform. -/
def Conforms (raw : String) : IpAddress → Prop
  | .four ip => raw.toList.head? = some '[' → reservedBytes ip.octets = true
  | .six ip => SpelledOut raw ip.groups

end LinkSuffix.AddressPolicy
