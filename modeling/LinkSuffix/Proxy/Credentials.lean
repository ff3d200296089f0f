import LinkSuffix.Js.Numeral
import LinkSuffix.Lib.Base64
import LinkSuffix.Lib.Checked
import LinkSuffix.Proxy.Adapters

/-!
# Credentials in transport

What `openPublicSocket` (`network.ts`) recovers from a proxy's URL and sends, SOCKS5 or Basic,
against what the adapters rendered. The setters leave a percent sign as it is and
`decodeURIComponent` does not, so the credentials survive exactly where they have none.

* `recoverCredentials`, `socksAuthentication`, `basicAuthorization`: the code.
* `renderTemplate_percent`: a rendered text has a percent sign where its template or a secret has.
* `credentials_survive`: the adapters and the socket together.
-/

namespace LinkSuffix.Adapter

/-! ## `openPublicSocket` -/

/-- `decodeURIComponent(proxy.username)` and `decodeURIComponent(proxy.password)`. -/
def recoverCredentials (url : ProxyUrl) : Option (String × String) := do
  let username ← decodeURIComponent url.username.toList
  let password ← decodeURIComponent url.password.toList
  return (String.ofList username, String.ofList password)

def byteLength (text : String) : Nat := (utf8Bytes text.toList).length

/-- The username/password message of SOCKS5; none where both are empty. -/
def socksMessage (username password : String) : Except String (Option (List Nat)) :=
  if 255 < byteLength username ∨ 255 < byteLength password then
    .error "SOCKS credentials exceed protocol limits"
  else if username = "" ∧ password = "" then .ok none
  else .ok (some ([1, byteLength username] ++ utf8Bytes username.toList ++
    [byteLength password] ++ utf8Bytes password.toList))

/-- What the SOCKS5 branch sends to authenticate. -/
def socksAuthentication (url : ProxyUrl) : Except String (Option (List Nat)) :=
  match recoverCredentials url with
  | none => .error "URI malformed"
  | some (username, password) => socksMessage username password

/-- `buffer.toString("base64")`. -/
def standardBase64 (bytes : List Nat) : List Char :=
  let text := (Base64.encode bytes).map fun c => if c = '-' then '+' else if c = '_' then '/' else c
  text ++ List.replicate ((4 - text.length % 4) % 4) '='

/-- The `Proxy-Authorization` header; none where both are empty. -/
def basicHeader (username password : String) : Option String :=
  if username = "" ∧ password = "" then none
  else some ("Basic " ++ String.ofList
    (standardBase64 (utf8Bytes (username.toList ++ ':' :: password.toList))))

/-- What the HTTP branch sends to authenticate. -/
def basicAuthorization (url : ProxyUrl) : Except String (Option String) :=
  if url.username = "" ∧ url.password = "" then .ok none
  else
    match recoverCredentials url with
    | none => .error "URI malformed"
    | some (username, password) => .ok (basicHeader username password)

/-- The socket recovers the credentials, and sends them. -/
structure Survives (url : ProxyUrl) (username password : String) : Prop where
  recovered : recoverCredentials url = some (username, password)
  socks : socksAuthentication url = socksMessage username password
  basic : basicAuthorization url = .ok (basicHeader username password)

theorem encodeUserinfo_eq_nil {cs : List Char} : encodeUserinfo cs = [] ↔ cs = [] := by
  constructor
  · intro h
    cases cs with
    | nil => rfl
    | cons c cs =>
      have hnil := (List.append_eq_nil_iff.mp h).1
      unfold encodeUserinfoChar at hnil
      split at hnil
      · cases hbytes : utf8Encode c with
        | nil => exact absurd hbytes (utf8Encode_ne_nil c)
        | cons b bs =>
          rw [hbytes] at hnil
          cases hnil
      · cases hnil
  · rintro rfl
    rfl

/-- **Credentials survive the setters and the socket exactly where they have no percent sign.** -/
theorem survives_iff (gateway : Gateway) (username password : String) :
    Survives (gateway.withCredentials username password) username password ↔
      '%' ∉ username.toList ∧ '%' ∉ password.toList := by
  have huser : (gateway.withCredentials username password).username.toList =
      encodeUserinfo username.toList := String.toList_ofList
  have hpass : (gateway.withCredentials username password).password.toList =
      encodeUserinfo password.toList := String.toList_ofList
  rw [← decode_encodeUserinfo, ← decode_encodeUserinfo]
  constructor
  · intro h
    have hrecovered := h.recovered
    unfold recoverCredentials at hrecovered
    rw [huser, hpass] at hrecovered
    cases hu : decodeURIComponent (encodeUserinfo username.toList) with
    | none =>
      rw [hu] at hrecovered
      cases hrecovered
    | some u =>
      cases hp : decodeURIComponent (encodeUserinfo password.toList) with
      | none =>
        rw [hu, hp] at hrecovered
        cases hrecovered
      | some p =>
        rw [hu, hp] at hrecovered
        obtain ⟨rfl, rfl⟩ := Prod.mk.inj (Option.some.inj hrecovered)
        exact ⟨congrArg some String.toList_ofList.symm, congrArg some String.toList_ofList.symm⟩
  · rintro ⟨hu, hp⟩
    have hrecovered : recoverCredentials (gateway.withCredentials username password) =
        some (username, password) := by
      unfold recoverCredentials
      rw [huser, hpass, hu, hp]
      simp
    refine ⟨hrecovered, ?_, ?_⟩
    · unfold socksAuthentication
      rw [hrecovered]
    · have hempty (text : String) : String.ofList (encodeUserinfo text.toList) = "" ↔ text = "" := by
        rw [← String.toList_inj, String.toList_ofList, ← String.toList_inj]
        exact encodeUserinfo_eq_nil
      unfold basicAuthorization
      rw [hrecovered]
      by_cases hnone : username = "" ∧ password = ""
      · rw [if_pos ⟨(hempty _).mpr hnone.1, (hempty _).mpr hnone.2⟩]
        exact congrArg Except.ok (if_pos hnone).symm
      · rw [if_neg fun h => hnone ⟨(hempty _).mp h.1, (hempty _).mp h.2⟩]

/-! ## Rendered texts -/

theorem mem_collapseHyphens {c : Char} {cs : List Char} (h : c ∈ collapseHyphens cs) : c ∈ cs := by
  induction cs using collapseHyphens.induct with
  | case1 cs ih =>
    rw [collapseHyphens] at h
    exact List.mem_cons_of_mem _ (ih h)
  | case2 d cs hnot ih =>
    rw [collapseHyphens] at h
    · rcases List.mem_cons.mp h with rfl | h
      · exact List.mem_cons_self
      · exact List.mem_cons_of_mem d (ih h)
    · exact hnot
  | case3 => exact h

theorem token_percent (value : String) : '%' ∉ (token value).toList := by
  unfold token
  rw [String.toList_ofList]
  intro h
  obtain ⟨c, -, hc⟩ := List.mem_map.mp (mem_collapseHyphens h)
  split at hc
  · rename_i htoken
    subst hc
    cases htoken
  · cases hc

theorem normalizedTemplateToken_percent (value : Option String) :
    '%' ∉ (normalizedTemplateToken value).toList := by
  unfold normalizedTemplateToken
  rw [String.toList_ofList]
  intro h
  obtain ⟨c, -, hc⟩ := List.mem_map.mp (mem_collapseHyphens h)
  split at hc
  · rename_i htoken
    subst hc
    cases htoken
  · cases hc

/-- The text of an integer has no percent sign. -/
theorem toText_percent {number : JsNumber} {n : Int} (h : number.integer = some n) :
    '%' ∉ number.toText.toList := by
  cases number with
  | nan => cases h
  | infinity negative => cases h
  | finite value =>
    have hden : value.den = 1 := by
      unfold JsNumber.integer at h
      dsimp only at h
      by_contra hden
      rw [if_neg hden] at h
      cases h
    intro hpercent
    cases toText_chars (written_integer hden) '%' hpercent

/-- The secret a token names; nothing for the other tokens. -/
def secretValue (secret : ProxyProviderSecret) (name : String) : String :=
  if name = "username" then secret.username.getD ""
  else if name = "password" then secret.password.getD ""
  else if name = "token" then secret.token.getD ""
  else ""

/-- A piece is no percent sign and names no secret with one. -/
def PieceFree (secret : ProxyProviderSecret) : Piece → Prop
  | .char c => c ≠ '%'
  | .token name => '%' ∉ (secretValue secret (String.ofList name)).toList

/-- No percent sign stands in a template or in a secret it names. -/
def TemplateFree (secret : ProxyProviderSecret) (template : String) : Prop :=
  ∀ piece ∈ templatePieces template, PieceFree secret piece

theorem renderPiece_percent {secret : ProxyProviderSecret} {request : ProxyLeaseRequest}
    (httl : '%' ∉ (request.ttlSeconds.getD (.finite 3600)).toText.toList) {piece : Piece}
    {part : List Char} (h : renderPiece (templateValues secret request) piece = .ok part) :
    '%' ∉ part ↔ PieceFree secret piece := by
  cases piece with
  | char c =>
    rw [← Except.ok.inj h, List.mem_singleton]
    exact ne_comm
  | token name =>
    unfold renderPiece at h
    unfold PieceFree
    dsimp only at h ⊢
    generalize String.ofList name = word at h ⊢
    by_cases hallowed : word ∈ allowedTemplateTokens
    · rw [if_pos hallowed] at h
      have hnone {text : String} (hword : secretValue secret word = "")
          (htext : '%' ∉ text.toList) (hpart : Except.ok text.toList = Except.ok (ε := String) part) :
          '%' ∉ part ↔ '%' ∉ (secretValue secret word).toList := by
        rw [hword, ← Except.ok.inj hpart]
        exact iff_of_true htext (by simp)
      unfold allowedTemplateTokens at hallowed
      simp only [List.mem_cons, List.not_mem_nil, or_false] at hallowed
      rcases hallowed with rfl | rfl | rfl | rfl | rfl | rfl | rfl | rfl | rfl
      · rw [← Except.ok.inj h]
        rfl
      · rw [← Except.ok.inj h]
        rfl
      · rw [← Except.ok.inj h]
        rfl
      · exact hnone rfl (normalizedTemplateToken_percent _) h
      · exact hnone rfl (normalizedTemplateToken_percent _) h
      · exact hnone rfl (normalizedTemplateToken_percent _) h
      · exact hnone rfl (normalizedTemplateToken_percent _) h
      · exact hnone rfl (normalizedTemplateToken_percent _) h
      · exact hnone rfl httl h
    · rw [if_neg hallowed] at h
      cases h

theorem mapM_pieces {f : Piece → Except String (List Char)} {pieces : List Piece}
    {parts : List (List Char)} (h : pieces.mapM f = .ok parts) :
    List.Forall₂ (fun piece part => f piece = .ok part) pieces parts := by
  induction pieces generalizing parts with
  | nil =>
    rw [← Except.ok.inj h]
    exact .nil
  | cons piece pieces ih =>
    rw [List.mapM_cons] at h
    obtain ⟨part, hpart, h⟩ := Lib.bind_eq_ok.mp h
    obtain ⟨more, hmore, h⟩ := Lib.bind_eq_ok.mp h
    rw [← Except.ok.inj h]
    exact .cons hpart (ih hmore)

/-- A rendered text has a percent sign where its template or a secret it names has. -/
theorem renderTemplate_percent {secret : ProxyProviderSecret} {request : ProxyLeaseRequest}
    (httl : '%' ∉ (request.ttlSeconds.getD (.finite 3600)).toText.toList) {template text : String}
    (h : renderTemplate template (templateValues secret request) = .ok text) :
    '%' ∉ text.toList ↔ TemplateFree secret template := by
  unfold renderTemplate at h
  obtain ⟨parts, hparts, h⟩ := Lib.bind_eq_ok.mp h
  rw [← Except.ok.inj h, String.toList_ofList]
  unfold TemplateFree
  have hall := mapM_pieces hparts
  clear hparts h
  generalize templatePieces template = pieces at hall
  induction hall with
  | nil => simp
  | cons hpiece _ ih =>
    rw [List.flatten_cons, List.mem_append, not_or, List.forall_mem_cons]
    exact and_congr (renderPiece_percent httl hpiece) ih

/-! ## The adapters -/

/-- The name of a state has no percent sign. -/
theorem stateName_percent {state : String} (h : '%' ∉ state.toList) :
    '%' ∉ (stateName state).toList := by
  unfold stateName
  split
  · rename_i entry hentry
    have hall : ∀ entry ∈ usStates, '%' ∉ entry.2.toList := by decide +kernel
    exact hall entry (List.mem_of_find?_eq_some hentry)
  · split
    · decide +kernel
    · exact h

theorem given_percent {value : Option String} {part : String → String}
    (h : ∀ text, '%' ∉ (part text).toList) :
    '%' ∉ (match value with
      | none => ""
      | some text => part text).toList := by
  cases value with
  | none => simp
  | some text => exact h text

theorem geoSuffix_percent (geo : GeoTarget) : '%' ∉ (geoSuffix geo).toList := by
  unfold geoSuffix
  split
  · simp
  · dsimp only
    simp only [String.toList_append, List.mem_append, not_or]
    refine ⟨⟨⟨by decide, token_percent geo.country⟩, given_percent fun state => ?_⟩,
      given_percent fun city => ?_⟩
    · split
      · simp [stateName_percent (token_percent state)]
      · simp [token_percent state]
    · simp [token_percent city]

/-- Of a routed password only the base password can have a percent sign. -/
theorem routedPassword_percent {geo : GeoTarget} {mode : ProxyMode} {pass password : String}
    {sessionId : Option String} (h : routedPassword geo mode pass sessionId = .ok password) :
    '%' ∉ password.toList ↔ '%' ∉ (basePassword pass).toList := by
  have hgeo := geoSuffix_percent geo
  unfold routedPassword at h
  cases mode with
  | rotatingResidential =>
    rw [← Except.ok.inj h]
    simp [hgeo]
  | stickyResidential =>
    dsimp only at h
    split at h
    · rw [← Except.ok.inj h]
      simp [hgeo, token_percent]
    · cases h

theorem isIproyalUsername_percent {user : String} (h : isIproyalUsername user = true) :
    '%' ∉ user.toList := by
  unfold isIproyalUsername at h
  rw [Bool.and_eq_true, List.all_eq_true] at h
  intro hmem
  cases h.2 '%' hmem

/-- No percent sign stands in what the universal adapter renders the credentials from. -/
def PercentFree (provider : ProxyProviderDefinition) (secret : ProxyProviderSecret) : Prop :=
  match provider.authMode with
  | .usernamePassword =>
    TemplateFree secret ((given provider.usernameTemplate).getD "\x7busername\x7d") ∧
      TemplateFree secret ((given provider.passwordTemplate).getD "\x7bpassword\x7d")
  | .token =>
    TemplateFree secret ((given provider.usernameTemplate).getD "\x7btoken\x7d") ∧
      TemplateFree secret (provider.passwordTemplate.getD "")
  | .ipAllowlist => True

theorem renderedCredentials_percent {provider : ProxyProviderDefinition}
    {secret : ProxyProviderSecret} {request : ProxyLeaseRequest}
    (httl : '%' ∉ (request.ttlSeconds.getD (.finite 3600)).toText.toList)
    {username password : String}
    (h : renderedCredentials provider secret request = .ok (username, password)) :
    '%' ∉ username.toList ∧ '%' ∉ password.toList ↔ PercentFree provider secret := by
  unfold renderedCredentials at h
  unfold PercentFree
  cases hmode : provider.authMode with
  | usernamePassword =>
    rw [hmode] at h
    obtain ⟨-, h⟩ := Lib.ite_throw_eq_ok.mp h
    obtain ⟨user, huser, h⟩ := Lib.bind_eq_ok.mp h
    obtain ⟨pass, hpass, h⟩ := Lib.bind_eq_ok.mp h
    obtain ⟨rfl, rfl⟩ := Prod.mk.inj (Except.ok.inj h)
    exact and_congr (renderTemplate_percent httl huser) (renderTemplate_percent httl hpass)
  | token =>
    rw [hmode] at h
    obtain ⟨-, h⟩ := Lib.ite_throw_eq_ok.mp h
    obtain ⟨user, huser, h⟩ := Lib.bind_eq_ok.mp h
    obtain ⟨pass, hpass, h⟩ := Lib.bind_eq_ok.mp h
    obtain ⟨rfl, rfl⟩ := Prod.mk.inj (Except.ok.inj h)
    exact and_congr (renderTemplate_percent httl huser) (renderTemplate_percent httl hpass)
  | ipAllowlist =>
    rw [hmode] at h
    obtain ⟨rfl, rfl⟩ := Prod.mk.inj (Except.ok.inj h)
    simp

/-- A request that is supported has an integer lifetime, or none. -/
theorem ttl_percent {provider : ProxyProviderDefinition} {request : ProxyLeaseRequest}
    (h : assertRequestSupported provider request = .ok ()) :
    '%' ∉ (request.ttlSeconds.getD (.finite 3600)).toText.toList := by
  unfold assertRequestSupported at h
  obtain ⟨-, h⟩ := Lib.ite_throw_eq_ok.mp h
  obtain ⟨-, h⟩ := Lib.ite_throw_eq_ok.mp h
  obtain ⟨-, h⟩ := Lib.ite_throw_eq_ok.mp h
  obtain ⟨-, h⟩ := Lib.ite_throw_eq_ok.mp h
  obtain ⟨-, h⟩ := Lib.ite_throw_eq_ok.mp h
  obtain ⟨-, h⟩ := Lib.ite_throw_eq_ok.mp h
  obtain ⟨-, h⟩ := Lib.ite_throw_eq_ok.mp h
  cases hseconds : request.ttlSeconds with
  | none => exact toText_percent (n := 3600) rfl
  | some ttl =>
    rw [hseconds] at h
    cases hinteger : ttl.integer with
    | none =>
      have hfalse (maximum : JsNumber) : isSessionTtl ttl maximum = false := by
        unfold isSessionTtl
        rw [hinteger]
      dsimp only at h
      rw [hfalse] at h
      cases h
    | some n => exact toText_percent hinteger

/-- An endpoint of the universal adapter carries what was rendered. -/
theorem universal_endpoint {parse : GatewayParser} {provider : ProxyProviderDefinition}
    {secret : ProxyProviderSecret} {request : ProxyLeaseRequest}
    {endpoint : ProviderProxyEndpoint}
    (h : universalResidentialAdapter parse provider secret request = .ok endpoint) :
    ∃ (username password : String) (gateway : Gateway),
      renderedCredentials provider secret request = .ok (username, password) ∧
      assertRequestSupported provider request = .ok () ∧
      endpoint.url = gateway.withCredentials username password := by
  unfold universalResidentialAdapter at h
  obtain ⟨-, -, h⟩ := Lib.bind_eq_ok.mp h
  obtain ⟨⟨⟩, hsupported, h⟩ := Lib.bind_eq_ok.mp h
  obtain ⟨port, -, h⟩ := Lib.bind_eq_ok.mp h
  obtain ⟨⟨username, password⟩, hrendered, h⟩ := Lib.bind_eq_ok.mp h
  dsimp only at h
  split at h
  · cases h
  · rename_i gateway _
    rw [← Except.ok.inj h]
    exact ⟨username, password, gateway, hrendered, hsupported, rfl⟩

/-- An IPRoyal endpoint carries the account and the routed password. -/
theorem buildProxyEndpoint_url {parse : GatewayParser} {defaults : Defaults} {geo : GeoTarget}
    {mode : ProxyMode} {creds : ProxyCredentials} {sessionId hostname : Option String}
    {port : Option JsNumber} {endpoint : ProxyEndpoint}
    (h : buildProxyEndpoint parse defaults geo mode creds sessionId hostname port = .ok endpoint) :
    ∃ (password : String) (gateway : Gateway), isIproyalUsername creds.user = true ∧
      routedPassword geo mode creds.pass sessionId = .ok password ∧
      endpoint.url = gateway.withCredentials creds.user password := by
  unfold buildProxyEndpoint at h
  obtain ⟨huser, h⟩ := Lib.ite_throw_eq_ok.mp h
  obtain ⟨password, hpassword, h⟩ := Lib.bind_eq_ok.mp h
  obtain ⟨-, h⟩ := Lib.ite_throw_eq_ok.mp h
  split at h
  · cases h
  · split at h
    · cases h
    · rename_i gateway _
      rw [← Except.ok.inj h]
      exact ⟨password, gateway, by simpa using huser, hpassword, rfl⟩

theorem iproyal_endpoint {parse : GatewayParser} {defaults : Defaults}
    {provider : ProxyProviderDefinition} {secret : ProxyProviderSecret}
    {request : ProxyLeaseRequest} {endpoint : ProviderProxyEndpoint}
    (h : ipRoyalProviderAdapter parse defaults provider secret request = .ok endpoint) :
    ∃ (username pass password : String) (gateway : Gateway), secret.username = some username ∧
      secret.password = some pass ∧ isIproyalUsername username = true ∧
      routedPassword request.geo request.mode pass request.sessionId = .ok password ∧
      endpoint.url = gateway.withCredentials username password := by
  unfold ipRoyalProviderAdapter at h
  obtain ⟨-, -, h⟩ := Lib.bind_eq_ok.mp h
  obtain ⟨-, -, h⟩ := Lib.bind_eq_ok.mp h
  split at h
  · rename_i username pass husername hpass
    obtain ⟨port, -, h⟩ := Lib.bind_eq_ok.mp h
    obtain ⟨built, hbuilt, h⟩ := Lib.bind_eq_ok.mp h
    obtain ⟨password, gateway, huser, hpassword, hurl⟩ := buildProxyEndpoint_url hbuilt
    rw [← Except.ok.inj h]
    exact ⟨username, pass, password, gateway, (Option.filter_eq_some_iff.mp husername).1,
      (Option.filter_eq_some_iff.mp hpass).1, huser, hpassword, hurl⟩
  · cases h

/-- **The credentials an adapter renders survive exactly where no percent sign stands in what they
are rendered from**: the templates and the secrets they name, or the base password of IPRoyal. -/
theorem credentials_survive (parse : GatewayParser) (defaults : Defaults)
    (provider : ProxyProviderDefinition) (secret : ProxyProviderSecret)
    (request : ProxyLeaseRequest) :
    (∀ endpoint, universalResidentialAdapter parse provider secret request = .ok endpoint →
      ∃ username password, renderedCredentials provider secret request = .ok (username, password) ∧
        (Survives endpoint.url username password ↔ PercentFree provider secret)) ∧
    ∀ endpoint, ipRoyalProviderAdapter parse defaults provider secret request = .ok endpoint →
      ∃ username pass password, secret.username = some username ∧ secret.password = some pass ∧
        routedPassword request.geo request.mode pass request.sessionId = .ok password ∧
        (Survives endpoint.url username password ↔ '%' ∉ (basePassword pass).toList) := by
  refine ⟨fun endpoint h => ?_, fun endpoint h => ?_⟩
  · obtain ⟨username, password, gateway, hrendered, hsupported, hurl⟩ := universal_endpoint h
    refine ⟨username, password, hrendered, ?_⟩
    rw [hurl, survives_iff]
    exact renderedCredentials_percent (ttl_percent hsupported) hrendered
  · obtain ⟨username, pass, password, gateway, husername, hpass, haccount, hpassword, hurl⟩ :=
      iproyal_endpoint h
    refine ⟨username, pass, password, husername, hpass, hpassword, ?_⟩
    rw [hurl, survives_iff, routedPassword_percent hpassword]
    exact and_iff_right (isIproyalUsername_percent haccount)

section Sample

/-- A parser that takes every gateway for the same host. -/
def sampleGateway : GatewayParser := fun _ =>
  some { protocol := "http:", hostname := "gate.example", port := "8080" }

def sampleProvider : ProxyProviderDefinition where
  id := "sample"
  name := "Sample"
  enabled := true
  protocol := .http
  host := "gate.example"
  ports := [.finite 8080]
  authMode := .usernamePassword
  rotationModes := [.perRequest]

def sampleRequest : ProxyLeaseRequest where
  geo := { country := "US" }
  rotationMode := .perRequest

def plainSecret : ProxyProviderSecret where
  username := some "user"
  password := some "p@ss"

/-- The endpoint of either adapter, with the credentials it rendered. -/
def sampleEndpoint (username password : String) : ProviderProxyEndpoint where
  url := Gateway.withCredentials { protocol := "http:", hostname := "gate.example", port := "8080" }
    username password
  mode := .rotatingResidential
  sessionId := none
  providerId := "sample"
  protocol := .http
  rotationMode := .perRequest
  port := .finite 8080

theorem credentials_survive_plain :
    (∃ username password,
      renderedCredentials sampleProvider plainSecret sampleRequest = .ok (username, password) ∧
      (Survives (sampleEndpoint "user" "p@ss").url username password ↔
        PercentFree sampleProvider plainSecret)) ∧
    ∃ username pass password, plainSecret.username = some username ∧
      plainSecret.password = some pass ∧
      routedPassword sampleRequest.geo sampleRequest.mode pass sampleRequest.sessionId =
        .ok password ∧
      (Survives (sampleEndpoint "user" "p@ss_country-us").url username password ↔
        '%' ∉ (basePassword pass).toList) :=
  ⟨(credentials_survive sampleGateway {} sampleProvider plainSecret sampleRequest).1 _ rfl,
    (credentials_survive sampleGateway {} sampleProvider plainSecret sampleRequest).2 _ rfl⟩

/-- **A password with a percent sign does not arrive**: one is decoded to another text, one is not
decoded at all. -/
theorem credentials_lost :
    (∃ endpoint, universalResidentialAdapter sampleGateway sampleProvider
        { username := some "user", password := some "p%41ss" } sampleRequest = .ok endpoint ∧
      recoverCredentials endpoint.url = some ("user", "pAss")) ∧
    ∃ endpoint, ipRoyalProviderAdapter sampleGateway {} sampleProvider
        { username := some "user", password := some "100%" } sampleRequest = .ok endpoint ∧
      recoverCredentials endpoint.url = none :=
  ⟨⟨sampleEndpoint "user" "p%41ss", rfl, by decide +kernel⟩,
    ⟨sampleEndpoint "user" "100%_country-us", rfl, by decide +kernel⟩⟩

end Sample

end LinkSuffix.Adapter
