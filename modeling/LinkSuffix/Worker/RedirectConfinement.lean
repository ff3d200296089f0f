import LinkSuffix.Worker.RedirectFirst

/-!
# What the redirect preflight asks for

`resolveRedirectFirst` reads its next URL out of a response, and asks for it one turn of its loop
later. The module lists what the preflight does to the outside, in order, and says which requests
can stand in that list.

* `PreflightAction`, `hopActions`, `preflightActions`: the list, branch by branch as in the source.
* `Permitted`: the URL of a request was checked just before, has the origin of the tracking URL
  unless the settings say otherwise, and nothing before it was to stop the preflight.
* `Advancing`: what every turn of the loop finds. `Advancing.next`: what it leaves to the next one.
* **`preflight_confined`**; `location_trimmed`: the landing URL of a capture can differ from the
  `Location` it was read from, at its ends.
-/

namespace LinkSuffix

/-! ## The actions of a preflight -/

inductive PreflightAction where
  /-- `publicHttpUrl`, where it does not throw. -/
  | checkedUrl (raw : String)
  /-- `resolvePublicAddress`, where it does not throw. -/
  | checkedAddress (hostname : String)
  /-- A turn of the loop gets to its URL in time. -/
  | arrived (url : Url)
  /-- `fireWithJa3`. -/
  | requested (url : Url)
  /-- An answer, of the target or of the proxy, is recorded. -/
  | answered (item : RawRequestRecord)
  deriving DecidableEq

def PreflightAction.request? : PreflightAction → Option Url
  | .requested url => some url
  | _ => none

/-- The requests among the actions. -/
def requests (actions : List PreflightAction) : List Url :=
  actions.filterMap PreflightAction.request?

section Actions

variable (platform : Platform) (isIP : String → Nat) (cfg : PreflightConfig)

/-- The checks of a redirect target. -/
def redirectChecks (s : HopState) (input : HopInput) (location : String) : List PreflightAction :=
  if location = "" then []
  else if cfg.maxHops ≤ s.hop then []
  else
    match resolveLocationPreservingQuery platform.toUrlParser location s.current with
    | none => []
    | some (requestUrl, _) =>
      if isPrivateHostname requestUrl.hostname then []
      else if (publicHttpUrl platform.toUrlParser isIP requestUrl.href).isNone then []
      else if input.publicTarget then
        [.checkedUrl requestUrl.href, .checkedAddress requestUrl.hostname]
      else [.checkedUrl requestUrl.href]

/-- What follows on a response. -/
def responseActions (s : HopState) (input : HopInput) (response : HopResponse) :
    List PreflightAction :=
  let item := s.record response input.timeMs
  .answered item ::
    if (edgeStopForResponse platform (.object item.fields)).isSome then []
    else if 300 ≤ response.status ∧ response.status < 400 then
      redirectChecks platform isIP cfg (s.push item) input (response.location.getD "")
    else []

/-- One turn of the loop. -/
def hopActions (s : HopState) (input : HopInput) : List PreflightAction :=
  if input.expired then []
  else if (edgeStopForResponse platform (.object [("url", .string s.current.href)])).isSome then
    [.arrived s.current]
  else
    .arrived s.current :: .requested s.current ::
      match input.answer with
      | .response response => responseActions platform isIP cfg s input response
      | .proxyResponse status retryAfter rayId =>
        [.answered (s.proxied status retryAfter rayId input.timeMs)]
      | .transportError => []
      | .failed => []

/-- The loop. -/
def chainActions : HopState → List HopInput → List PreflightAction
  | _, [] => []
  | s, input :: inputs =>
    hopActions platform isIP cfg s input ++
      match followHop platform isIP cfg s input with
      | .next s' => chainActions s' inputs
      | _ => []

/-- `resolveRedirectFirst`. -/
def preflightActions (publicSeed : Bool) (inputs : List HopInput) : List PreflightAction :=
  match publicHttpUrl platform.toUrlParser isIP cfg.seedUrl with
  | none => []
  | some url =>
    if publicSeed then
      [.checkedUrl cfg.seedUrl, .checkedAddress url.hostname] ++
        chainActions platform isIP cfg { seedOrigin := url.origin, current := url } inputs
    else [.checkedUrl cfg.seedUrl]

/-! ## What is promised of them -/

/-- A text that `publicHttpUrl` accepts for a URL: the tracking URL's own, or the URL's. -/
def Accepted (raw : String) (url : Url) : Prop :=
  publicHttpUrl platform.toUrlParser isIP raw = some url ∧ raw = cfg.seedUrl ∨
    (publicHttpUrl platform.toUrlParser isIP raw).isSome = true ∧ raw = url.href

/-- A request, given the actions before it. -/
structure Permitted (before : List PreflightAction) (url : Url) : Prop where
  checked : ∃ pre raw, before =
      pre ++ [.checkedUrl raw, .checkedAddress url.hostname, .arrived url] ∧
    Accepted platform isIP cfg raw url
  origin : cfg.followExternal = false → ∃ seed,
    publicHttpUrl platform.toUrlParser isIP cfg.seedUrl = some seed ∧ url.origin = seed.origin
  /-- No URL that it got to was one to stop at. -/
  urls : ∀ reached, .arrived reached ∈ before →
    edgeStopForResponse platform (.object [("url", .string reached.href)]) = none
  /-- No answer was one to stop at. -/
  answers : ∀ item, .answered item ∈ before →
    edgeStopForResponse platform (.object item.fields) = none

/-- An absolute location as it stands, or the URL that a relative one resolves to. -/
def LandsOn (location base finalUrl : String) : Prop :=
  isAbsoluteWeb location = true ∧ finalUrl = location ∨
    isAbsoluteWeb location = false ∧
      ∃ target, platform.parseFrom location base = some target ∧ finalUrl = target.href

/-- The landing URL that a recorded response leads to. -/
def LandsAt (item : RawRequestRecord) (finalUrl : String) : Prop :=
  ∃ (response : HopResponse) (location : String), response.headers = item.headers ∧
    response.location = some location ∧ LandsOn platform (trim location) item.url finalUrl

/-- A preflight stays within its bounds. -/
structure Confined (publicSeed : Bool) (inputs : List HopInput) : Prop where
  bounded : ((requests (preflightActions platform isIP cfg publicSeed inputs)).length : Int) ≤
    cfg.maxHops + 1
  /-- The loop has no more turns than that. -/
  ends : cfg.maxHops < inputs.length →
    (resolveRedirectFirst platform isIP cfg publicSeed inputs).isSome = true
  permitted : ∀ before url after,
    preflightActions platform isIP cfg publicSeed inputs = before ++ .requested url :: after →
      Permitted platform isIP cfg before url
  lands : ∀ result,
    resolveRedirectFirst platform isIP cfg publicSeed inputs = some (.returned result) →
    result.outcome = .captured →
      ∃ item ∈ result.events, ∃ finalUrl, result.finalUrl = some finalUrl ∧
        LandsAt platform item finalUrl

end Actions

/-! ## Turns of the loop -/

section Turns

variable {platform : Platform} {isIP : String → Nat} {cfg : PreflightConfig} {s s' : HopState}
  {input : HopInput} {inputs : List HopInput} {past : List PreflightAction}
  {result : RedirectFirstResult}

theorem mem_requests {actions : List PreflightAction} {url : Url} :
    url ∈ requests actions ↔ .requested url ∈ actions := by
  unfold requests
  rw [List.mem_filterMap]
  constructor
  · rintro ⟨action, haction, hrequest⟩
    cases action with
    | requested other =>
      obtain rfl := Option.some.inj hrequest
      exact haction
    | checkedUrl raw => cases hrequest
    | checkedAddress hostname => cases hrequest
    | arrived reached => cases hrequest
    | answered item => cases hrequest
  · exact fun h => ⟨_, h, rfl⟩

theorem requests_append (actions more : List PreflightAction) :
    requests (actions ++ more) = requests actions ++ requests more :=
  List.filterMap_append

theorem redirectChecks_requests (location : String) :
    requests (redirectChecks platform isIP cfg s input location) = [] := by
  unfold redirectChecks
  split
  · rfl
  · split
    · rfl
    · split
      · rfl
      · split
        · rfl
        · split
          · rfl
          · split <;> rfl

/-- A turn asks for its own URL, once at most, and only where it need not stop there. -/
theorem hopActions_cases :
    requests (hopActions platform isIP cfg s input) = [] ∨
    edgeStopForResponse platform (.object [("url", .string s.current.href)]) = none ∧
      ∃ rest, hopActions platform isIP cfg s input =
          .arrived s.current :: .requested s.current :: rest ∧
        requests rest = [] := by
  unfold hopActions
  split
  · exact .inl rfl
  · split
    · exact .inl rfl
    · rename_i hstop
      refine .inr ⟨Option.not_isSome_iff_eq_none.mp hstop, _, rfl, ?_⟩
      split
      · unfold responseActions
        dsimp only
        split
        · rfl
        · split
          · exact redirectChecks_requests _
          · rfl
      · rfl
      · rfl
      · rfl

/-- A turn that goes on has asked for its URL and checked the next one. -/
theorem hopActions_next (h : followHop platform isIP cfg s input = .next s') :
    ∃ item, hopActions platform isIP cfg s input =
        [.arrived s.current, .requested s.current, .answered item, .checkedUrl s'.current.href,
          .checkedAddress s'.current.hostname] ∧
      edgeStopForResponse platform (.object [("url", .string s.current.href)]) = none ∧
      edgeStopForResponse platform (.object item.fields) = none := by
  obtain ⟨response, target, text, hanswer, hstop, hstatus, hhop, hresolved, hadmitted, -, rfl⟩ :=
    followHop_next h
  refine ⟨s.record response input.timeMs, ?_, ?_, hstop⟩
  · have hlocation : response.location.getD "" ≠ "" := by
      intro hempty
      rw [hempty] at hresolved
      unfold resolveLocationPreservingQuery at hresolved
      rw [show trim "" = "" by decide +kernel] at hresolved
      cases hresolved
    have hchecks : redirectChecks platform isIP cfg (s.push (s.record response input.timeMs)) input
        (response.location.getD "") =
          [.checkedUrl target.href, .checkedAddress target.hostname] := by
      unfold redirectChecks
      rw [if_neg hlocation, if_neg (show ¬cfg.maxHops ≤ (s.push _).hop from Int.not_le.mpr hhop),
        show (s.push (s.record response input.timeMs)).current = s.current from rfl, hresolved]
      dsimp only
      rw [if_neg (Bool.eq_false_iff.mp hadmitted.unprivate),
        if_neg (Option.isNone_eq_false_iff.mpr hadmitted.publicUrl ▸ Bool.false_ne_true),
        if_pos hadmitted.publicTarget]
    unfold hopActions
    unfold followHop at h
    split at h
    · cases h
    · rename_i hexpired
      split at h
      · cases h
      · rename_i hurl
        rw [if_neg hexpired, if_neg hurl, hanswer]
        unfold responseActions
        dsimp only
        rw [hstop, if_pos hstatus, hchecks]
        rfl
  · unfold followHop at h
    split at h
    · cases h
    · split at h
      · cases h
      · rename_i hurl
        exact Option.not_isSome_iff_eq_none.mp hurl

/-- What a turn of the loop finds, and the actions before it. -/
structure Advancing (platform : Platform) (isIP : String → Nat) (cfg : PreflightConfig)
    (past : List PreflightAction) (s : HopState) : Prop where
  reached : ∃ pre raw, past = pre ++ [.checkedUrl raw, .checkedAddress s.current.hostname] ∧
    Accepted platform isIP cfg raw s.current
  seed : ∃ seed, publicHttpUrl platform.toUrlParser isIP cfg.seedUrl = some seed ∧
    s.seedOrigin = seed.origin
  origin : cfg.followExternal = false → s.current.origin = s.seedOrigin
  urls : ∀ reached, .arrived reached ∈ past →
    edgeStopForResponse platform (.object [("url", .string reached.href)]) = none
  answers : ∀ item, .answered item ∈ past →
    edgeStopForResponse platform (.object item.fields) = none
  counted : (requests past).length = s.hop
  within : (s.hop : Int) ≤ cfg.maxHops
  lands : ∀ redirect ∈ s.redirects, ∃ item ∈ s.events, LandsAt platform item redirect.target
  permitted : ∀ before url after, past = before ++ .requested url :: after →
    Permitted platform isIP cfg before url

/-- An element of two lists in a row is in the first, or in the second. -/
theorem split_append {actions more before after : List PreflightAction} {action : PreflightAction}
    (h : actions ++ more = before ++ action :: after) :
    (∃ rest, actions = before ++ action :: rest) ∨
      ∃ mid, before = actions ++ mid ∧ more = mid ++ action :: after := by
  rcases List.append_eq_append_iff.mp h with ⟨mid, hbefore, hmore⟩ | ⟨mid, hactions, hmore⟩
  · exact .inr ⟨mid, hbefore, hmore⟩
  · cases mid with
    | nil => exact .inr ⟨[], by rw [hactions, List.append_nil, List.append_nil], hmore.symm⟩
    | cons first mid =>
      obtain ⟨rfl, -⟩ := List.cons.inj hmore
      exact .inl ⟨mid, hactions⟩

/-- The request of a turn is permitted, and those before it are. -/
theorem Advancing.hop_permitted (h : Advancing platform isIP cfg past s)
    {before after : List PreflightAction} {url : Url}
    (hsplit : past ++ hopActions platform isIP cfg s input = before ++ .requested url :: after) :
    Permitted platform isIP cfg before url := by
  have hsilent {rest : List PreflightAction} (hrest : requests rest = []) :
      .requested url ∉ rest := by
    rw [← mem_requests, hrest]
    exact List.not_mem_nil
  rcases split_append hsplit with ⟨rest, hpast⟩ | ⟨mid, rfl, hmid⟩
  · exact h.permitted before url rest hpast
  · rcases @hopActions_cases platform isIP cfg s input with hnone | ⟨hurl, rest, hactions, hrest⟩
    · refine absurd ?_ (hsilent hnone)
      rw [hmid]
      exact List.mem_append_right _ List.mem_cons_self
    · rw [hactions] at hmid
      obtain ⟨rfl, rfl⟩ : mid = [.arrived s.current] ∧ url = s.current := by
        cases mid with
        | nil => cases hmid
        | cons first mid =>
          obtain ⟨hfirst, htail⟩ := List.cons.inj hmid
          cases mid with
          | nil =>
            obtain ⟨hrequested, -⟩ := List.cons.inj htail
            exact ⟨hfirst ▸ rfl, (PreflightAction.requested.inj hrequested).symm⟩
          | cons second mid =>
            refine absurd ?_ (hsilent hrest)
            rw [(List.cons.inj htail).2]
            exact List.mem_append_right _ List.mem_cons_self
      obtain ⟨pre, raw, hpast, haccepted⟩ := h.reached
      refine ⟨⟨pre, raw, ?_, haccepted⟩, ?_, ?_, ?_⟩
      · rw [hpast, List.append_assoc]
        rfl
      · intro hinside
        obtain ⟨seed, hseed, horigin⟩ := h.seed
        exact ⟨seed, hseed, (h.origin hinside).trans horigin⟩
      · intro reached hreached
        rcases List.mem_append.mp hreached with hold | hnew
        · exact h.urls reached hold
        · obtain rfl := PreflightAction.arrived.inj (List.mem_singleton.mp hnew)
          exact hurl
      · intro item hitem
        rcases List.mem_append.mp hitem with hold | hnew
        · exact h.answers item hold
        · cases List.mem_singleton.mp hnew

theorem Advancing.hop_bounded (h : Advancing platform isIP cfg past s) (input : HopInput) :
    (requests (past ++ hopActions platform isIP cfg s input)).length ≤ s.hop + 1 := by
  rw [requests_append, List.length_append, h.counted]
  rcases @hopActions_cases platform isIP cfg s input with hnone | ⟨-, rest, hactions, hrest⟩
  · rw [hnone]
    exact Nat.le_succ _
  · rw [hactions]
    exact Nat.add_le_add_left (Nat.le_of_eq (congrArg (· + 1) (congrArg List.length hrest))) _

/-- The text that a redirect is captured with. -/
theorem lands_of_resolved {response : HopResponse} {item : RawRequestRecord} {target : Url}
    {text : String} (hheaders : response.headers = item.headers)
    (hurl : item.url = s.current.href)
    (hresolved : resolveLocationPreservingQuery platform.toUrlParser (response.location.getD "")
      s.current = some (target, text)) : LandsAt platform item text := by
  unfold resolveLocationPreservingQuery at hresolved
  dsimp only at hresolved
  split at hresolved
  · cases hresolved
  · rename_i hempty
    split at hresolved
    · cases hresolved
    · rename_i requestUrl hparsed
      split at hresolved
      · cases hresolved
      · obtain ⟨rfl, rfl⟩ := Prod.mk.inj (Option.some.inj hresolved)
        cases hlocation : response.location with
        | none =>
          rw [hlocation] at hempty
          exact absurd (by decide +kernel) hempty
        | some location =>
          rw [hlocation, Option.getD_some] at hparsed
          refine ⟨response, location, hheaders, hlocation, ?_⟩
          rw [Option.getD_some]
          by_cases habsolute : isAbsoluteWeb (trim location) = true
          · rw [if_pos habsolute]
            exact .inl ⟨habsolute, rfl⟩
          · rw [if_neg habsolute, hurl]
            exact .inr ⟨Bool.eq_false_iff.mpr habsolute, requestUrl, hparsed, rfl⟩

/-- A turn that goes on leaves what the next one finds. -/
theorem Advancing.next (h : Advancing platform isIP cfg past s)
    (hnext : followHop platform isIP cfg s input = .next s') :
    Advancing platform isIP cfg (past ++ hopActions platform isIP cfg s input) s' := by
  obtain ⟨item, hactions, hurl, hitem⟩ := hopActions_next hnext
  obtain ⟨response, target, text, -, -, -, hhop, hresolved, hadmitted, hinside, rfl⟩ :=
    followHop_next hnext
  have hpermitted (before url after)
      (hsplit : past ++ hopActions platform isIP cfg s input = before ++ .requested url :: after) :
      Permitted platform isIP cfg before url := h.hop_permitted hsplit
  rw [hactions] at hpermitted ⊢
  refine ⟨⟨past ++ [.arrived s.current, .requested s.current, .answered item], target.href, ?_,
    .inr ⟨hadmitted.publicUrl, rfl⟩⟩, h.seed, ?_, ?_, ?_, ?_, ?_, ?_, hpermitted⟩
  · rw [List.append_assoc]
    rfl
  · intro hstay
    exact hinside.resolve_right (Bool.eq_false_iff.mp hstay)
  · intro reached hreached
    rcases List.mem_append.mp hreached with hold | hnew
    · exact h.urls reached hold
    · simp only [List.mem_cons, PreflightAction.arrived.injEq, reduceCtorEq, List.not_mem_nil,
        or_false] at hnew
      exact hnew ▸ hurl
  · intro answer hanswer
    rcases List.mem_append.mp hanswer with hold | hnew
    · exact h.answers answer hold
    · simp only [List.mem_cons, PreflightAction.answered.injEq, reduceCtorEq, List.not_mem_nil,
        or_false, false_or] at hnew
      exact hnew ▸ hitem
  · rw [requests_append, List.length_append, h.counted]
    rfl
  · exact hhop
  · intro redirect hredirect
    rcases List.mem_append.mp hredirect with hold | hnew
    · obtain ⟨item, hmem, hlands⟩ := h.lands redirect hold
      exact ⟨item, List.mem_append_left _ hmem, hlands⟩
    · obtain rfl := List.mem_singleton.mp hnew
      exact ⟨_, List.mem_append_right _ List.mem_cons_self, lands_of_resolved rfl rfl hresolved⟩

/-! ## The whole loop -/

theorem chain_permitted (h : Advancing platform isIP cfg past s)
    {before after : List PreflightAction} {url : Url}
    (hsplit : past ++ chainActions platform isIP cfg s inputs = before ++ .requested url :: after) :
    Permitted platform isIP cfg before url := by
  induction inputs generalizing s past with
  | nil =>
    rw [chainActions, List.append_nil] at hsplit
    exact h.permitted before url after hsplit
  | cons input inputs ih =>
    unfold chainActions at hsplit
    rw [← List.append_assoc] at hsplit
    split at hsplit
    · rename_i s' hnext
      exact ih (h.next hnext) hsplit
    · rw [List.append_nil] at hsplit
      exact h.hop_permitted hsplit

theorem chain_bounded (h : Advancing platform isIP cfg past s) :
    ((requests (past ++ chainActions platform isIP cfg s inputs)).length : Int) ≤
      cfg.maxHops + 1 := by
  induction inputs generalizing s past with
  | nil =>
    rw [chainActions, List.append_nil, h.counted]
    have hwithin := h.within
    omega
  | cons input inputs ih =>
    unfold chainActions
    rw [← List.append_assoc]
    split
    · rename_i s' hnext
      exact ih (h.next hnext)
    · rw [List.append_nil]
      have hwithin := h.within
      have hbounded := h.hop_bounded input
      omega

/-- A loop that is given enough turns ends. -/
theorem chain_ends (hwithin : (s.hop : Int) ≤ cfg.maxHops)
    (henough : cfg.maxHops < s.hop + inputs.length) :
    (followHops platform isIP cfg s inputs).isSome = true := by
  induction inputs generalizing s with
  | nil =>
    rw [List.length_nil] at henough
    omega
  | cons input inputs ih =>
    unfold followHops
    split
    · rename_i s' hnext
      obtain ⟨_, _, _, -, -, -, hhop, -, -, -, rfl⟩ := followHop_next hnext
      rw [List.length_cons] at henough
      refine ih ?_ ?_
      · dsimp only
        omega
      · dsimp only
        omega
    · rfl
    · rfl

theorem chain_lands (h : Advancing platform isIP cfg past s)
    (hreturned : followHops platform isIP cfg s inputs = some (.returned result))
    (hcaptured : result.outcome = .captured) :
    ∃ item ∈ result.events, ∃ finalUrl, result.finalUrl = some finalUrl ∧
      LandsAt platform item finalUrl := by
  induction inputs generalizing s past with
  | nil => cases hreturned
  | cons input inputs ih =>
    unfold followHops at hreturned
    split at hreturned
    · rename_i s' hnext
      exact ih (h.next hnext) hreturned
    · rename_i result' hdone
      obtain rfl := ChainEnd.returned.inj (Option.some.inj hreturned)
      obtain ⟨response, finalUrl, -, -, hevents, hfinal, -, hways⟩ :=
        followHop_captured hdone hcaptured
      rw [hevents]
      rcases hways with ⟨-, target, hresolved⟩ | ⟨-, redirect, hlast, rfl⟩
      · exact ⟨_, List.mem_append_right _ List.mem_cons_self, finalUrl, hfinal,
          lands_of_resolved rfl rfl hresolved⟩
      · obtain ⟨item, hitem, hlands⟩ := h.lands redirect (List.mem_of_getLast? hlast)
        exact ⟨item, List.mem_append_left _ hitem, redirect.target, hfinal, hlands⟩
    · cases hreturned

theorem maxHops_pos (cfg : PreflightConfig) : 1 ≤ cfg.maxHops := by
  unfold PreflightConfig.maxHops boundedInteger
  split
  · exact le_min (by decide) (le_max_left _ _)
  · decide

/-- The loop begins at the tracking URL. -/
theorem advancing_first {url : Url}
    (hseed : publicHttpUrl platform.toUrlParser isIP cfg.seedUrl = some url) :
    Advancing platform isIP cfg [.checkedUrl cfg.seedUrl, .checkedAddress url.hostname]
      { seedOrigin := url.origin, current := url } where
  reached := ⟨[], cfg.seedUrl, rfl, .inl ⟨hseed, rfl⟩⟩
  seed := ⟨url, hseed, rfl⟩
  origin := fun _ => rfl
  urls := fun reached hmem => by simp at hmem
  answers := fun item hmem => by simp at hmem
  counted := rfl
  within := Int.le_trans (Int.ofNat_le.mpr (Nat.zero_le 1)) (maxHops_pos cfg)
  lands := fun redirect hmem => by cases hmem
  permitted := fun before target after hsplit => by
    have hmem : PreflightAction.requested target ∈
        [.checkedUrl cfg.seedUrl, .checkedAddress url.hostname] := by
      rw [hsplit]
      exact List.mem_append_right _ List.mem_cons_self
    simp at hmem

/-- A tracking URL that is not public is not asked for. -/
theorem firstHop_none {publicSeed : Bool} (h : firstHop platform isIP cfg publicSeed = none)
    (inputs : List HopInput) :
    requests (preflightActions platform isIP cfg publicSeed inputs) = [] := by
  unfold firstHop at h
  unfold preflightActions
  split
  · rfl
  · rename_i url hseed
    rw [hseed] at h
    dsimp only at h
    split at h
    · cases h
    · rename_i hprivate
      rw [if_neg hprivate]
      rfl

theorem firstHop_some {publicSeed : Bool} (h : firstHop platform isIP cfg publicSeed = some s)
    (inputs : List HopInput) :
    ∃ url, publicHttpUrl platform.toUrlParser isIP cfg.seedUrl = some url ∧
      s = { seedOrigin := url.origin, current := url } ∧
      preflightActions platform isIP cfg publicSeed inputs =
        [.checkedUrl cfg.seedUrl, .checkedAddress url.hostname] ++
          chainActions platform isIP cfg s inputs := by
  unfold firstHop at h
  split at h
  · cases h
  · rename_i url hseed
    split at h
    · rename_i hpublic
      obtain rfl := Option.some.inj h
      refine ⟨url, hseed, rfl, ?_⟩
      unfold preflightActions
      rw [hseed, hpublic]
      rfl
    · cases h

end Turns

/-- **A preflight is confined**: it ends after `maxHops + 1` requests at most, each of a URL that
was checked just before and of the origin it may have, and none after it was to stop; and the landing
URL of a capture is the absolute redirect target of a recorded response without the white space
around it, or what a relative one resolves to. -/
theorem preflight_confined (platform : Platform) (isIP : String → Nat) (cfg : PreflightConfig)
    (publicSeed : Bool) (inputs : List HopInput) :
    Confined platform isIP cfg publicSeed inputs := by
  cases hstart : firstHop platform isIP cfg publicSeed with
  | none =>
    have hsilent := firstHop_none hstart inputs
    have hresult : resolveRedirectFirst platform isIP cfg publicSeed inputs = some (.returned {
        outcome := .browserRequired, reason := "invalid_seed_url", events := []
        redirects := [] }) := by
      unfold resolveRedirectFirst
      rw [hstart]
    refine ⟨?_, fun _ => by rw [hresult]; rfl, fun before url after hsplit => ?_,
      fun result hreturned hcaptured => ?_⟩
    · rw [hsilent]
      have hpos := maxHops_pos cfg
      show (0 : Int) ≤ _
      omega
    · have hmem : url ∈ requests (preflightActions platform isIP cfg publicSeed inputs) := by
        rw [mem_requests, hsplit]
        exact List.mem_append_right _ List.mem_cons_self
      rw [hsilent] at hmem
      cases hmem
    · rw [hresult] at hreturned
      cases hreturned
      cases hcaptured
  | some s =>
    obtain ⟨url, hseed, hzero, hactions⟩ := firstHop_some hstart inputs
    have hfirst : Advancing platform isIP cfg
        [.checkedUrl cfg.seedUrl, .checkedAddress url.hostname] s :=
      hzero ▸ advancing_first hseed
    have hresult : resolveRedirectFirst platform isIP cfg publicSeed inputs =
        followHops platform isIP cfg s inputs := by
      unfold resolveRedirectFirst
      rw [hstart]
    refine ⟨?_, fun henough => ?_, fun before target after hsplit => ?_,
      fun result hreturned hcaptured => ?_⟩
    · rw [hactions]
      exact chain_bounded hfirst
    · rw [hresult]
      exact chain_ends hfirst.within (by rw [hzero]; simpa using henough)
    · rw [hactions] at hsplit
      exact chain_permitted hfirst hsplit
    · rw [hresult] at hreturned
      exact chain_lands hfirst hreturned hcaptured

section Sample

/-- A `Location` with a no-break space behind the URL. -/
def spacedLocation : String := "https://shop.example/?irclickid=7\u00a0"

/-- The tracker redirects to the shop. -/
def spacedInput : HopInput where
  answer := .response {
    status := 302, headers := [("location", spacedLocation)]
    lower := fun header hheader => by
      rw [List.mem_singleton.mp hheader]
      decide +kernel }

/-- The landing URL of a capture need not be the `Location` of a response as it stands. -/
theorem location_trimmed :
    ¬∀ (platform : Platform) (isIP : String → Nat) (cfg : PreflightConfig) (publicSeed : Bool)
        (inputs : List HopInput) (result : RedirectFirstResult),
      resolveRedirectFirst platform isIP cfg publicSeed inputs = some (.returned result) →
      result.outcome = .captured →
      ∃ item ∈ result.events, ∃ (response : HopResponse) (location finalUrl : String),
        response.headers = item.headers ∧ response.location = some location ∧
          result.finalUrl = some finalUrl ∧ LandsOn platform location item.url finalUrl := by
  intro h
  have hresult : resolveRedirectFirst trackerPlatform (fun _ => 0)
      { seedUrl := "https://tracker.example/start" } true [spacedInput] = some (.returned {
        outcome := .captured
        reason := "external_redirect_query_captured"
        finalUrl := some "https://shop.example/?irclickid=7"
        events := [{
          url := "https://tracker.example/start", method := "GET", status := .finite 302
          timeMs := .finite 0, headers := [("location", spacedLocation)]
          taSignal := [("main_document", "true"), ("body_capture_state", "unavailable"),
            ("capture_path", "redirect-first"), ("redirect_hop", "0"),
            ("redirect_to", spacedLocation)] }]
        redirects := [⟨"https://tracker.example/start", "https://shop.example/?irclickid=7",
          302⟩] }) := by
    decide +kernel
  obtain ⟨item, hitem, response, location, finalUrl, hheaders, hlocation, hfinal, hlands⟩ :=
    h _ _ _ _ _ _ hresult rfl
  obtain rfl := List.mem_singleton.mp hitem
  have hread : response.location = some spacedLocation := by
    unfold HopResponse.location
    rw [hheaders]
    rfl
  obtain rfl : spacedLocation = location := Option.some.inj (hread.symm.trans hlocation)
  obtain rfl : "https://shop.example/?irclickid=7" = finalUrl := Option.some.inj hfinal
  rcases hlands with ⟨-, hsame⟩ | ⟨hrelative, -⟩
  · exact absurd hsame (by decide +kernel)
  · exact absurd hrelative (by decide +kernel)

end Sample

end LinkSuffix
