import LinkSuffix.Js.Url
import LinkSuffix.Lib.Checked

/-!
# Redirect capture policies

`redirectCapture.ts`: the policy of a run that captures from an approved redirect alone, and the
`Location` it approves.

* `parseRedirectCapturePolicy`: the policy in a value, or the error thrown.
* `redirectLocationForPolicy`: the `Location` of the issuer, byte for byte.
* `ValidPolicy`, `parsed_policy`: what every policy that was parsed satisfies.
-/

namespace LinkSuffix

open Lib

/-- `RedirectCapturePolicy`. -/
structure RedirectCapturePolicy where
  issuerOrigin : String
  destinationOrigin : String
  requiredParameter : JsValue
  navigationOrigins : List String

/-- A label of a host name: lower-case letters and digits, with hyphens inside. -/
def isHostLabel (label : List Char) : Bool :=
  let edge (c : Option Char) : Bool := c.any fun c => c.isLower || c.isDigit
  edge label.head? && edge label.getLast? &&
    label.all fun c => c.isLower || c.isDigit || c = '-'

/-- `/^(?:[a-z0-9](?:[a-z0-9-]*[a-z0-9])?\.)+[a-z]{2,63}$/`. -/
def isPublicHostname (hostname : String) : Bool :=
  let labels := splitOnChar '.' hostname.toList
  2 ≤ labels.length && labels.dropLast.all isHostLabel && labels.getLast?.any fun last =>
    last.all Char.isLower && 2 ≤ last.length && last.length ≤ 63

/-- `/\.(?:localhost|local|internal)$/`. -/
def isLocalHostname (hostname : String) : Bool :=
  [".localhost", ".local", ".internal"].any fun suffix =>
    suffix.toList.isSuffixOf hostname.toList

section Policy

variable (P : UrlParser)

def approvedOrigin (value : JsValue) (allowHttp : Bool) : Except String String :=
  match value with
  | .string value =>
    if 300 < utf16Length value then .error "Redirect capture requires an exact public web origin"
    else
      match P.parse value with
      | none => .error "Invalid URL"
      | some url =>
        if (url.protocol ≠ "https:" ∧ ¬(allowHttp ∧ url.protocol = "http:")) ∨ url.origin ≠ value ∨
            url.username ≠ "" ∨ url.password ≠ "" ∨ ¬isPublicHostname url.hostname ∨
            isLocalHostname url.hostname then
          .error "Redirect capture requires an approved public web origin without paths or credentials"
        else .ok value
  | _ => .error "Redirect capture requires an exact public web origin"

/-- `p.navigation_origins.map(origin => approvedOrigin(origin, true))`. -/
def approvedOrigins : List JsValue → Except String (List String)
  | [] => .ok []
  | item :: items => do
    let origin ← approvedOrigin P item true
    let origins ← approvedOrigins items
    return origin :: origins

/-- `new URL(origin).hostname`. -/
def hostnameOf (origin : String) : Option String := (P.parse origin).map (·.hostname)

/-- The fields a policy may have. -/
def policyFields : List String :=
  ["mode", "issuer_origin", "destination_origin", "required_parameter", "navigation_origins"]

/-- The tracking URL is one that the policy lets the run load. -/
def seedApproved (origins : List String) (seedUrl : String) : Bool :=
  (P.parse seedUrl).any fun seed =>
    seed.protocol = "https:" && seed.username = "" && seed.password = "" && seed.origin ∈ origins

def parseRedirectCapturePolicy (value : JsValue) (seedUrl : Option String) :
    Except String (Option RedirectCapturePolicy) := do
  match value with
  | .undefined => return none
  | .null => return none
  | .object p =>
    let field := JsValue.lookup p
    if p.any (fun entry => entry.1 ∉ policyFields) ∨ ¬(field "mode").isText "redirect_only" ∨
        (field "required_parameter").toText ∉ ["irclickid", "im_ref"] then
      throw "Invalid redirect capture mode or tracking identifier"
    let issuer ← approvedOrigin P (field "issuer_origin") false
    let destination ← approvedOrigin P (field "destination_origin") false
    match field "navigation_origins" with
    | .array items =>
      if items.length < 1 ∨ 16 < items.length then
        throw "Redirect capture requires 1 to 16 explicit tracking origins"
      let origins ← approvedOrigins P items
      if origins.any fun origin => hostnameOf P origin = hostnameOf P issuer ∧ origin ≠ issuer then
        throw "The final affiliate issuer must remain HTTPS-only on its approved origin"
      if ¬origins.Nodup ∨ issuer ∉ origins ∨
          origins.any fun origin => hostnameOf P origin = hostnameOf P destination then
        throw "The issuer must be approved and the merchant must be excluded from network access"
      if seedUrl.any fun seedUrl => ¬seedApproved P origins seedUrl then
        throw "The tracking URL is outside the redirect capture policy"
      return some ⟨issuer, destination, field "required_parameter", origins⟩
    | _ => throw "Redirect capture requires 1 to 16 explicit tracking origins"
  | _ => throw "Invalid redirect capture policy"

/-- `.length` of a value. -/
def jsLength : JsValue → Nat
  | .string value => utf16Length value
  | .array items => items.length
  | _ => 0

/-- The five redirects that carry a `Location`. -/
def isRedirectStatus (status : JsNumber) : Bool :=
  status ∈ [301, 302, 303, 307, 308].map fun code : Rat => JsNumber.finite code

/-- The approved `Location`, as the header has it. -/
def redirectLocationForPolicy (policy : RedirectCapturePolicy) (url : JsValue) (status : JsNumber)
    (headers : List (String × JsValue)) : Option JsValue :=
  match P.parseValue url, headers.find? fun entry => jsLower entry.1 = "location" with
  | some source, some (_, location) =>
    if ¬isRedirectStatus status ∨ source.origin ≠ policy.issuerOrigin ∨ ¬location.truthy ∨
        32768 < jsLength location ∨
        location.toText.toList.any (fun c => isJsSpace c || c = '\\') ∨
        ¬hasPrefix "https://" location.toText then none
    else
      match P.parseValue location with
      | none => none
      | some target =>
        if target.origin ≠ policy.destinationOrigin ∨ target.username ≠ "" ∨
            target.password ≠ "" then none
        else some location
  | _, _ => none

/-! ## Valid policies -/

/-- An exact public web origin, over HTTPS unless HTTP is allowed. -/
structure ApprovedOrigin (origin : String) (allowHttp : Bool) : Prop where
  short : utf16Length origin ≤ 300
  web : ∃ url, P.parse origin = some url ∧ url.origin = origin ∧
    (url.protocol = "https:" ∨ (allowHttp = true ∧ url.protocol = "http:")) ∧
    url.username = "" ∧ url.password = "" ∧ isPublicHostname url.hostname = true ∧
    isLocalHostname url.hostname = false

/-- A policy the service may follow. -/
structure ValidPolicy (policy : RedirectCapturePolicy) : Prop where
  issuer : ApprovedOrigin P policy.issuerOrigin false
  destination : ApprovedOrigin P policy.destinationOrigin false
  parameter : policy.requiredParameter.toText ∈ ["irclickid", "im_ref"]
  count : 1 ≤ policy.navigationOrigins.length ∧ policy.navigationOrigins.length ≤ 16
  distinct : policy.navigationOrigins.Nodup
  origins : ∀ origin ∈ policy.navigationOrigins, ApprovedOrigin P origin true
  issuerListed : policy.issuerOrigin ∈ policy.navigationOrigins
  issuerAlone : ∀ origin ∈ policy.navigationOrigins,
    hostnameOf P origin = hostnameOf P policy.issuerOrigin → origin = policy.issuerOrigin
  merchantExcluded : ∀ origin ∈ policy.navigationOrigins,
    hostnameOf P origin ≠ hostnameOf P policy.destinationOrigin

variable {P}

theorem approvedOrigin_spec {value : JsValue} {allowHttp : Bool} {origin : String}
    (h : approvedOrigin P value allowHttp = .ok origin) : ApprovedOrigin P origin allowHttp := by
  unfold approvedOrigin at h
  cases value with
  | string value =>
    dsimp only at h
    split_ifs at h with hlong
    cases hurl : P.parse value with
    | none =>
      rw [hurl] at h
      cases h
    | some url =>
      rw [hurl] at h
      dsimp only at h
      split_ifs at h with hbad
      obtain rfl := Except.ok.inj h
      push Not at hbad
      obtain ⟨hprotocol, horigin, husername, hpassword, hpublic, hlocal⟩ := hbad
      refine ⟨Nat.le_of_not_lt hlong, url, hurl, horigin, ?_, husername, hpassword, hpublic,
        by simpa using hlocal⟩
      by_cases hhttps : url.protocol = "https:"
      · exact Or.inl hhttps
      · exact Or.inr (hprotocol hhttps)
  | undefined => cases h
  | null => cases h
  | bool value => cases h
  | number value => cases h
  | array items => cases h
  | object fields => cases h

theorem approvedOrigins_spec {items : List JsValue} {origins : List String}
    (h : approvedOrigins P items = .ok origins) :
    origins.length = items.length ∧ ∀ origin ∈ origins, ApprovedOrigin P origin true := by
  induction items generalizing origins with
  | nil =>
    obtain rfl := Except.ok.inj h
    exact ⟨rfl, by simp⟩
  | cons item items ih =>
    obtain ⟨origin, horigin, h⟩ := bind_eq_ok.mp h
    obtain ⟨rest, hrest, h⟩ := bind_eq_ok.mp h
    obtain rfl := pure_eq_ok.mp h
    obtain ⟨hlength, hrest⟩ := ih hrest
    refine ⟨congrArg (· + 1) hlength, fun other hother => ?_⟩
    rcases List.mem_cons.mp hother with rfl | hother
    · exact approvedOrigin_spec horigin
    · exact hrest other hother

/-- **A policy that was parsed is valid.** -/
theorem parsed_policy {value : JsValue} {seedUrl : Option String} {policy : RedirectCapturePolicy}
    (h : parseRedirectCapturePolicy P value seedUrl = .ok (some policy)) : ValidPolicy P policy := by
  unfold parseRedirectCapturePolicy at h
  cases value with
  | object p =>
    dsimp only at h
    obtain ⟨hfields, h⟩ := ite_throw_eq_ok.mp h
    obtain ⟨issuer, hissuer, h⟩ := bind_eq_ok.mp h
    obtain ⟨destination, hdestination, h⟩ := bind_eq_ok.mp h
    split at h
    · obtain ⟨hcount, h⟩ := ite_throw_eq_ok.mp h
      obtain ⟨origins, horigins, h⟩ := bind_eq_ok.mp h
      obtain ⟨halone, h⟩ := ite_throw_eq_ok.mp h
      obtain ⟨hlisted, h⟩ := ite_throw_eq_ok.mp h
      obtain ⟨-, h⟩ := ite_throw_eq_ok.mp h
      obtain rfl := Option.some.inj (pure_eq_ok.mp h)
      obtain ⟨hlength, happroved⟩ := approvedOrigins_spec horigins
      push Not at hfields hcount hlisted
      simp only [List.any_eq_true, decide_eq_true_eq, not_exists, not_and] at halone
      obtain ⟨hdistinct, hissuerListed, hexcluded⟩ := hlisted
      refine ⟨approvedOrigin_spec hissuer, approvedOrigin_spec hdestination, hfields.2.2, ?_,
        hdistinct, happroved, hissuerListed, fun origin horigin hhost => ?_, ?_⟩
      · rw [hlength]
        exact hcount
      · exact not_not.mp (halone origin horigin hhost)
      · intro origin horigin hhost
        exact hexcluded (List.any_eq_true.mpr ⟨origin, horigin, by simpa using hhost⟩)
    · cases h
  | undefined => cases h
  | null => cases h
  | bool value => cases h
  | number value => cases h
  | string value => cases h
  | array items => cases h

/-- What the approved `Location` is. -/
theorem redirectLocationForPolicy_spec {policy : RedirectCapturePolicy} {url : JsValue}
    {status : JsNumber} {headers : List (String × JsValue)} {location : JsValue}
    (h : redirectLocationForPolicy P policy url status headers = some location) :
    isRedirectStatus status = true ∧
      (∃ source, P.parseValue url = some source ∧ source.origin = policy.issuerOrigin) ∧
      (∃ name, headers.find? (fun entry => jsLower entry.1 = "location") = some (name, location)) ∧
      hasPrefix "https://" location.toText = true ∧
      ∃ target, P.parseValue location = some target ∧ target.origin = policy.destinationOrigin ∧
        target.username = "" ∧ target.password = "" := by
  unfold redirectLocationForPolicy at h
  split at h
  · rename_i source name location' hsource hheader
    split_ifs at h with hbad
    push Not at hbad
    obtain ⟨hstatus, horigin, -, -, -, hhttps⟩ := hbad
    split at h
    · cases h
    · rename_i target htarget
      split_ifs at h with hother
      obtain rfl := Option.some.inj h
      push Not at hother
      exact ⟨hstatus, ⟨source, hsource, horigin⟩, ⟨name, hheader⟩, hhttps, target, htarget, hother⟩
  · cases h

end Policy

end LinkSuffix
