import LinkSuffix.Proxy.Credentials

/-!
# The route that is verified

`verificationUrl` (`control.mjs`), the route `setProxy` verifies, against the password
`buildProxyEndpoint` gives a run. Each side has its own table of states and its own way to write a
name: one turns every other character into a hyphen, the other deletes it.

* `routeToken`, `verificationPassword`, `verificationUrl`: the code.
* `token_eq_routeToken`, `state_eq`: where the two spellings are one.
* `stripRouting_routed`: routing already present is ignored.
* `route_used`: the two passwords.
-/

namespace LinkSuffix.Adapter

/-! ## `verificationUrl` -/

/-- `US_STATES` of `control.mjs`. -/
def usStateNames : List (String × String) :=
  [("AL", "alabama"), ("AK", "alaska"), ("AZ", "arizona"), ("AR", "arkansas"),
    ("CA", "california"), ("CO", "colorado"), ("CT", "connecticut"), ("DE", "delaware"),
    ("FL", "florida"), ("GA", "georgia"), ("HI", "hawaii"), ("ID", "idaho"), ("IL", "illinois"),
    ("IN", "indiana"), ("IA", "iowa"), ("KS", "kansas"), ("KY", "kentucky"), ("LA", "louisiana"),
    ("ME", "maine"), ("MD", "maryland"), ("MA", "massachusetts"), ("MI", "michigan"),
    ("MN", "minnesota"), ("MS", "mississippi"), ("MO", "missouri"), ("MT", "montana"),
    ("NE", "nebraska"), ("NV", "nevada"), ("NH", "newhampshire"), ("NJ", "newjersey"),
    ("NM", "newmexico"), ("NY", "newyork"), ("NC", "northcarolina"), ("ND", "northdakota"),
    ("OH", "ohio"), ("OK", "oklahoma"), ("OR", "oregon"), ("PA", "pennsylvania"),
    ("RI", "rhodeisland"), ("SC", "southcarolina"), ("SD", "southdakota"), ("TN", "tennessee"),
    ("TX", "texas"), ("UT", "utah"), ("VT", "vermont"), ("VA", "virginia"), ("WA", "washington"),
    ("WV", "westvirginia"), ("WI", "wisconsin"), ("WY", "wyoming"), ("DC", "districtofcolumbia")]

/-- `clean(value, max)`. -/
def clean (max : Nat) (value : String) : String := sliceTo max (trim value)

/-- `routeToken(value)`. -/
def routeToken (value : String) : String :=
  String.ofList ((toLowerCase (clean 120 value).toList).filter isRouteChar)

/-- `US_STATES[clean(state, 40).toUpperCase()] ?? routeToken(state)`. -/
def verifiedState (state : String) : String :=
  let code := String.ofList (toUpperCase (clean 40 state).toList)
  match usStateNames.find? fun entry => entry.1 = code with
  | some entry => entry.2
  | none => routeToken state

/-- The password of `verificationUrl`. -/
def verificationPassword (geo : GeoTarget) (pass : String) : String :=
  let country := String.ofList (toUpperCase (clean 2 geo.country).toList)
  let countryPart := if country = "" then "" else
    "_country-" ++ String.ofList (toLowerCase country.toList)
  let statePart := match given geo.state with
    | none => ""
    | some state => "_state-" ++ if country = "US" then verifiedState state else routeToken state
  let cityPart := match given geo.city with
    | none => ""
    | some city => "_city-" ++ routeToken city
  basePassword pass ++ (countryPart ++ statePart ++ cityPart)

/-- `verificationUrl(proxy, geo)`. -/
def verificationUrl (parse : GatewayParser) (host : String) (port : Nat) (creds : ProxyCredentials)
    (geo : GeoTarget) : Option ProxyUrl :=
  (parse ("http://" ++ host ++ ":" ++ toString port)).map fun gateway =>
    gateway.withCredentials creds.user (verificationPassword geo creds.pass)

/-- The credentials `setProxy` accepts: `/^[A-Za-z0-9._@-]{1,200}$/` and a password of at most 500
code units. -/
structure Stored (creds : ProxyCredentials) : Prop where
  user : (creds.user.toList.all fun c => c.isAlphanum || c ∈ ['.', '_', '@', '-']) = true
  userLength : 1 ≤ creds.user.length ∧ creds.user.length ≤ 200
  pass : creds.pass ≠ ""
  passLength : utf16Length creds.pass ≤ 500

/-- `/^[A-Z]{2}$/`, which `validate` asks of a country. -/
def isCountryCode (country : String) : Bool :=
  country.length = 2 && country.toList.all Char.isUpper

example : verificationPassword { country := "US", state := some "CA", city := some "Los Angeles" }
    "secret_country-de" = "secret_country-us_state-california_city-losangeles" := by decide +kernel

/-! ## Letters -/

/-- The lower case of one character. -/
def lowerChar (c : Char) : List Char :=
  if c = '\u0130' then ['i', '\u0307'] else if c = '\u212a' then ['k'] else [c.toLower]

/-- An ASCII letter or digit, or the Kelvin sign, which is the letter K in lower case. -/
def isNameChar (c : Char) : Bool := c.isAlphanum || c = '\u212a'

theorem lowerChar_other {c : Char} (h : isNameChar c = false) :
    ∃ d ∈ lowerChar c, isRouteChar d = false := by
  unfold isNameChar at h
  obtain ⟨halnum, hkelvin⟩ := Bool.or_eq_false_iff.mp h
  unfold lowerChar
  by_cases hdotted : c = '\u0130'
  · subst hdotted
    exact ⟨'\u0307', by simp, rfl⟩
  · rw [if_neg hdotted, if_neg (by simpa using hkelvin)]
    exact ⟨c.toLower, List.mem_singleton_self _, (isRouteChar_toLower c).trans halnum⟩

/-- The lower case of a name's character. -/
def lowered (c : Char) : Char := if c = '\u212a' then 'k' else c.toLower

theorem toLowerCase_name {cs : List Char} (h : ∀ c ∈ cs, isNameChar c = true) :
    toLowerCase cs = cs.map lowered := by
  induction cs with
  | nil => rfl
  | cons c cs ih =>
    have hone : lowerChar c = [lowered c] := by
      have hc := h c List.mem_cons_self
      have hdotted : c ≠ '\u0130' := by
        rintro rfl
        cases hc
      unfold lowerChar lowered
      rw [if_neg hdotted]
      split <;> rfl
    rw [show toLowerCase (c :: cs) = lowerChar c ++ toLowerCase cs from rfl, hone,
      ih fun d hd => h d (List.mem_cons_of_mem c hd)]
    rfl

theorem isRouteChar_lowered {c : Char} (h : isNameChar c = true) : isRouteChar (lowered c) = true := by
  unfold lowered
  split
  · rfl
  · rename_i hkelvin
    rw [isRouteChar_toLower]
    simpa [isNameChar, hkelvin] using h

/-! ## One name, two spellings -/

theorem collapseHyphens_plain {cs : List Char} (h : '-' ∉ cs) : collapseHyphens cs = cs := by
  induction cs using collapseHyphens.induct with
  | case1 cs ih => exact absurd List.mem_cons_self h
  | case2 c cs hnot ih =>
    rw [collapseHyphens.eq_2 _ _ hnot, ih fun hmem => h (List.mem_cons_of_mem c hmem)]
  | case3 => rfl

theorem hyphen_collapseHyphens {cs : List Char} (h : '-' ∈ cs) : '-' ∈ collapseHyphens cs := by
  induction cs using collapseHyphens.induct with
  | case1 cs ih =>
    rw [collapseHyphens]
    exact ih List.mem_cons_self
  | case2 c cs hnot ih =>
    rw [collapseHyphens.eq_2 _ _ hnot]
    rcases List.mem_cons.mp h with rfl | h
    · exact List.mem_cons_self
    · exact List.mem_cons_of_mem c (ih h)
  | case3 => exact h

theorem sliceChars_take {n : Nat} {cs : List Char} (h : ∀ c ∈ cs, c.toNat < 0x10000) :
    sliceChars n cs = cs.take n := by
  induction cs generalizing n with
  | nil => cases n with
    | zero => rfl
    | succ n => cases n <;> rfl
  | cons c cs ih =>
    have hc := h c List.mem_cons_self
    have hrest := ih (n := n - 1) fun d hd => h d (List.mem_cons_of_mem c hd)
    match n with
    | 0 => rfl
    | 1 =>
      rw [sliceChars, if_pos hc]
      rfl
    | n + 2 =>
      rw [sliceChars, if_pos hc, List.take_succ_cons]
      exact congrArg (c :: ·) hrest

theorem isNameChar_narrow {c : Char} (h : isNameChar c = true) : c.toNat < 0x10000 := by
  by_contra hwide
  obtain ⟨hupper, hlower, hdigit⟩ := wide_classes (c := c) (by omega)
  have hkelvin : c = '\u212a' := by
    have hletter : c.isAlphanum = ((c.isUpper || c.isLower) || c.isDigit) := rfl
    simpa [isNameChar, hletter, hupper, hlower, hdigit] using h
  subst hkelvin
  exact hwide (by decide)

/-- Letters and digits, at most 120 of them: a name both sides write alike. -/
def PlainName (value : String) : Prop :=
  (∀ c ∈ (trim value).toList, isNameChar c = true) ∧ (trim value).toList.length ≤ 120

theorem hyphen_free {cs : List Char} (h : ∀ c ∈ cs, isRouteChar c = true) : '-' ∉ cs := by
  intro hmem
  cases h '-' hmem

/-- A name of letters and digits is written in lower case. -/
theorem token_name {value : String} (h : ∀ c ∈ (trim value).toList, isNameChar c = true) :
    (token value).toList = (trim value).toList.map lowered := by
  have hroute : ∀ d ∈ (trim value).toList.map lowered, isRouteChar d = true := by
    intro d hd
    obtain ⟨c, hc, rfl⟩ := List.mem_map.mp hd
    exact isRouteChar_lowered (h c hc)
  have hkept : ((trim value).toList.map lowered).map (fun c => if isTokenChar c then c else '-') =
      (trim value).toList.map lowered := by
    refine (List.map_congr_left fun c hc => ?_).trans (List.map_id _)
    have htoken : isTokenChar c = true := by
      have hc := hroute c hc
      unfold isRouteChar at hc
      rw [isTokenChar, hc, Bool.true_or]
    rw [htoken]
    rfl
  unfold token
  rw [String.toList_ofList, toLowerCase_name h, hkept, collapseHyphens_plain (hyphen_free hroute)]

/-- Any other name is written with a hyphen. -/
theorem token_other {value : String} (h : ¬∀ c ∈ (trim value).toList, isNameChar c = true) :
    '-' ∈ (token value).toList := by
  obtain ⟨c, hc, hother⟩ : ∃ c ∈ (trim value).toList, isNameChar c = false := by
    simpa using h
  obtain ⟨d, hd, hroute⟩ := lowerChar_other hother
  have hlower : d ∈ toLowerCase (trim value).toList := List.mem_flatMap.mpr ⟨c, hc, hd⟩
  unfold token
  rw [String.toList_ofList]
  refine hyphen_collapseHyphens (List.mem_map.mpr ⟨d, hlower, ?_⟩)
  split
  · rename_i htoken
    unfold isRouteChar at hroute
    unfold isTokenChar at htoken
    rw [hroute, Bool.false_or] at htoken
    simpa using htoken
  · rfl

theorem routeToken_route (value : String) : ∀ c ∈ (routeToken value).toList, isRouteChar c = true := by
  intro c hc
  unfold routeToken at hc
  rw [String.toList_ofList] at hc
  exact (List.mem_filter.mp hc).2

theorem clean_name {value : String} (h : ∀ c ∈ (trim value).toList, isNameChar c = true)
    (max : Nat) : (clean max value).toList = (trim value).toList.take max := by
  unfold clean sliceTo
  rw [String.toList_ofList, sliceChars_take fun c hc => isNameChar_narrow (h c hc)]

theorem routeToken_name {value : String} (h : ∀ c ∈ (trim value).toList, isNameChar c = true) :
    (routeToken value).toList = ((trim value).toList.take 120).map lowered := by
  have htake : ∀ c ∈ (trim value).toList.take 120, isNameChar c = true := fun c hc =>
    h c (List.mem_of_mem_take hc)
  unfold routeToken
  rw [String.toList_ofList, clean_name h, toLowerCase_name htake, List.filter_eq_self]
  intro d hd
  obtain ⟨c, hc, rfl⟩ := List.mem_map.mp hd
  exact isRouteChar_lowered (htake c hc)

/-- **The two spellings of a name are one exactly where it has only letters and digits, at most
120.** -/
theorem token_eq_routeToken (value : String) : token value = routeToken value ↔ PlainName value := by
  constructor
  · intro heq
    have hname : ∀ c ∈ (trim value).toList, isNameChar c = true := by
      by_contra hother
      have hhyphen := token_other hother
      rw [heq] at hhyphen
      exact hyphen_free (routeToken_route value) hhyphen
    refine ⟨hname, ?_⟩
    have hlength : (token value).toList.length = (routeToken value).toList.length := by rw [heq]
    rw [token_name hname, routeToken_name hname, List.length_map, List.length_map,
      List.length_take] at hlength
    omega
  · rintro ⟨hname, hlength⟩
    rw [← String.toList_inj, token_name hname, routeToken_name hname,
      List.take_of_length_le hlength]

/-! ## States -/

def lowerName (value : String) : String := String.ofList (toLowerCase (trim value).toList)

/-- A state both sides write alike: a plain name, not the one property a table has besides its
codes, and no code with the Kelvin sign, which has no ASCII upper case. -/
def PlainState (state : String) : Prop :=
  PlainName state ∧ lowerName state ≠ "constructor" ∧
    (lowerName state ∈ usStates.map (·.1) → '\u212a' ∉ (trim state).toList)

theorem token_eq_lowerName {value : String} (h : ∀ c ∈ (trim value).toList, isNameChar c = true) :
    token value = lowerName value := by
  rw [← String.toList_inj, token_name h, lowerName, String.toList_ofList, toLowerCase_name h]

/-- The upper case of a letter or digit is that of its lower case. -/
theorem toUpperCase_alnum {cs : List Char} (h : ∀ c ∈ cs, c.isAlphanum = true) :
    toUpperCase cs = cs.map Char.toUpper := by
  have hwide : ∀ entry ∈ wideUpper, 128 ≤ entry.1.toNat := by decide
  induction cs with
  | nil => rfl
  | cons c cs ih =>
    have hc := h c List.mem_cons_self
    have hnone : wideUpper.find? (fun entry => entry.1 = c) = none := by
      refine List.find?_eq_none.mpr fun entry hentry heq => ?_
      obtain ⟨hupper, hlower, hdigit⟩ := wide_classes (hwide entry hentry)
      rw [of_decide_eq_true heq] at hupper hlower hdigit
      have hletter : c.isAlphanum = ((c.isUpper || c.isLower) || c.isDigit) := rfl
      rw [hletter, hupper, hlower, hdigit] at hc
      cases hc
    have hone : toUpperCase (c :: cs) = c.toUpper :: toUpperCase cs := by
      unfold toUpperCase
      rw [List.flatMap_cons, hnone]
      rfl
    rw [hone, ih fun d hd => h d (List.mem_cons_of_mem c hd), List.map_cons]

/-- The Kelvin sign stays in the upper case. -/
theorem kelvin_upper {cs : List Char} (h : '\u212a' ∈ cs) : '\u212a' ∈ toUpperCase cs :=
  List.mem_flatMap.mpr ⟨'\u212a', h, by decide⟩

theorem isNameChar_alnum {cs : List Char} (h : ∀ c ∈ cs, isNameChar c = true)
    (hkelvin : '\u212a' ∉ cs) : ∀ c ∈ cs, c.isAlphanum = true ∧ lowered c = c.toLower := by
  intro c hc
  have hne : c ≠ '\u212a' := fun heq => hkelvin (heq ▸ hc)
  exact ⟨by simpa [isNameChar, hne] using h c hc, if_neg hne⟩

/-- A code of one table is a code of the other, with the same name, which is no code. -/
theorem usStates_upper : ∀ entry ∈ usStates,
    usStateNames.find? (fun other => other.1 = String.ofList (entry.1.toList.map Char.toUpper)) =
      some (String.ofList (entry.1.toList.map Char.toUpper), entry.2) ∧ entry.2 ≠ entry.1 ∧
      '-' ∉ entry.1.toList ∧ entry.1.toList.length = 2 := by decide +kernel

theorem usStateNames_lower : ∀ entry ∈ usStateNames,
    String.ofList (entry.1.toList.map Char.toLower) ∈ usStates.map (·.1) ∧
      '\u212a' ∉ entry.1.toList ∧ '-' ∉ entry.2.toList ∧ entry.2.toList.length ≤ 120 ∧
      entry.1.toList.length = 2 := by decide +kernel

theorem verifiedState_free (state : String) : '-' ∉ (verifiedState state).toList := by
  unfold verifiedState
  dsimp only
  split
  · rename_i entry hentry
    exact (usStateNames_lower entry (List.mem_of_find?_eq_some hentry)).2.2.1
  · exact hyphen_free (routeToken_route state)

theorem stateName_code {state : String} (h : state ∈ usStates.map (·.1)) :
    ∃ entry ∈ usStates, entry.1 = state ∧ stateName state = entry.2 := by
  have hsome : (usStates.find? fun entry => entry.1 = state).isSome := by
    obtain ⟨entry, hentry, rfl⟩ := List.mem_map.mp h
    exact List.find?_isSome.mpr ⟨entry, hentry, decide_eq_true rfl⟩
  obtain ⟨entry, hentry⟩ := Option.isSome_iff_exists.mp hsome
  have hcode : entry.1 = state :=
    of_decide_eq_true (List.find?_some (p := fun entry : String × String => decide (entry.1 = state)) hentry)
  refine ⟨entry, List.mem_of_find?_eq_some hentry, hcode, ?_⟩
  unfold stateName
  rw [hentry]

theorem stateName_other {state : String} (h : state ∉ usStates.map (·.1))
    (hconstructor : state ≠ "constructor") : stateName state = state := by
  have hnone : (usStates.find? fun entry => entry.1 = state) = none :=
    List.find?_eq_none.mpr fun entry hentry heq =>
      h (List.mem_map.mpr ⟨entry, hentry, of_decide_eq_true heq⟩)
  unfold stateName
  rw [hnone]
  exact if_neg hconstructor

/-- The code a plain name is looked up under: an entry found makes its lower case a code. -/
theorem verifiedState_name {state : String} (h : ∀ c ∈ (trim state).toList, isNameChar c = true) :
    verifiedState state = routeToken state ∨
      ∃ entry ∈ usStateNames, verifiedState state = entry.2 ∧ '\u212a' ∉ (trim state).toList ∧
        lowerName state ∈ usStates.map (·.1) := by
  unfold verifiedState
  dsimp only
  split
  · rename_i entry hentry
    have hmem := List.mem_of_find?_eq_some hentry
    have hcode : entry.1 = String.ofList (toUpperCase (clean 40 state).toList) :=
      of_decide_eq_true (List.find?_some (p := fun entry : String × String =>
        decide (entry.1 = String.ofList (toUpperCase (clean 40 state).toList))) hentry)
    obtain ⟨hlower, hkelvin, -, -, hlength⟩ := usStateNames_lower entry hmem
    have htake : ∀ c ∈ (trim state).toList.take 40, isNameChar c = true := fun c hc =>
      h c (List.mem_of_mem_take hc)
    have hchars : entry.1.toList = toUpperCase ((trim state).toList.take 40) := by
      rw [hcode, String.toList_ofList, clean_name h]
    have hshort : '\u212a' ∉ (trim state).toList.take 40 := fun hmem =>
      hkelvin (hchars ▸ kelvin_upper hmem)
    have halnum := isNameChar_alnum htake hshort
    rw [toUpperCase_alnum fun c hc => (halnum c hc).1] at hchars
    have hwhole : (trim state).toList.take 40 = (trim state).toList := by
      have hcount := congrArg List.length hchars
      rw [hlength, List.length_map, List.length_take] at hcount
      exact List.take_of_length_le (by omega)
    rw [hwhole] at hchars hshort halnum
    refine Or.inr ⟨entry, hmem, rfl, hshort, ?_⟩
    have hsame : lowerName state = String.ofList (entry.1.toList.map Char.toLower) := by
      unfold lowerName
      rw [toLowerCase_name h, hchars, List.map_map]
      refine congrArg String.ofList (List.map_congr_left fun c hc => ?_)
      rw [(halnum c hc).2, Function.comp_apply, toLower_toUpper]
    rw [hsame]
    exact hlower
  · exact Or.inl rfl

/-- A code is looked up under its upper case. -/
theorem verifiedState_code {state : String} (h : PlainState state)
    {entry : String × String} (hentry : entry ∈ usStates) (hcode : entry.1 = lowerName state) :
    verifiedState state = entry.2 := by
  obtain ⟨⟨hname, -⟩, -, hkelvin⟩ := h
  have hshort := hkelvin (List.mem_map.mpr ⟨entry, hentry, hcode⟩)
  obtain ⟨hfind, -, -, hlength⟩ := usStates_upper entry hentry
  have halnum := isNameChar_alnum hname hshort
  have hchars : entry.1.toList = (trim state).toList.map lowered := by
    rw [hcode, lowerName, String.toList_ofList, toLowerCase_name hname]
  have hwhole : (clean 40 state).toList = (trim state).toList := by
    have hcount := congrArg List.length hchars
    rw [hlength, List.length_map] at hcount
    rw [clean_name hname, List.take_of_length_le (by omega)]
  have hupper : toUpperCase (clean 40 state).toList = entry.1.toList.map Char.toUpper := by
    rw [hwhole, toUpperCase_alnum fun c hc => (halnum c hc).1, hchars, List.map_map]
    refine List.map_congr_left fun c hc => ?_
    rw [Function.comp_apply, (halnum c hc).2, toUpper_toLower]
  unfold verifiedState
  rw [hupper]
  dsimp only
  rw [hfind]

/-- **The two names of a state are one exactly where it is plain.** -/
theorem state_eq (state : String) : stateName (token state) = verifiedState state ↔ PlainState state := by
  constructor
  · intro heq
    have hfree := verifiedState_free state
    have hname : ∀ c ∈ (trim state).toList, isNameChar c = true := by
      by_contra hother
      have hhyphen := token_other hother
      have hcode : token state ∉ usStates.map (·.1) := by
        intro hmem
        obtain ⟨entry, hentry, hentryEq⟩ := List.mem_map.mp hmem
        exact (usStates_upper entry hentry).2.2.1 (hentryEq ▸ hhyphen)
      have hconstructor : token state ≠ "constructor" := by
        intro hconstructor
        rw [hconstructor] at hhyphen
        exact absurd hhyphen (by decide)
      rw [stateName_other hcode hconstructor] at heq
      exact hfree (heq ▸ hhyphen)
    have hlower : (lowerName state).toList.length = (trim state).toList.length := by
      rw [lowerName, String.toList_ofList, toLowerCase_name hname, List.length_map]
    rw [token_eq_lowerName hname] at heq
    have hshort : (trim state).toList.length ≤ 120 := by
      by_contra hlong
      have hcode : lowerName state ∉ usStates.map (·.1) := by
        intro hmem
        obtain ⟨entry, hentry, hentryEq⟩ := List.mem_map.mp hmem
        have htwo := (usStates_upper entry hentry).2.2.2
        rw [hentryEq, hlower] at htwo
        omega
      have hconstructor : lowerName state ≠ "constructor" := by
        intro hconstructor
        rw [hconstructor] at hlower
        exact absurd hlower (by simp; omega)
      rw [stateName_other hcode hconstructor] at heq
      rcases verifiedState_name hname with hroute | ⟨entry, -, -, -, hmem⟩
      · have hcount : (lowerName state).toList.length = (routeToken state).toList.length := by
          rw [heq, hroute]
        rw [hlower, routeToken_name hname, List.length_map, List.length_take] at hcount
        omega
      · exact hcode hmem
    refine ⟨⟨hname, hshort⟩, ?_, ?_⟩
    · intro hconstructor
      have hfunction : stateName "constructor" = "function Object() { [native code] }" := by
        decide +kernel
      rw [hconstructor, hfunction] at heq
      rcases verifiedState_name hname with hroute | ⟨entry, -, -, -, hmem⟩
      · have hblank : ' ' ∈ (routeToken state).toList := by
          rw [← hroute, ← heq]
          decide
        cases routeToken_route state ' ' hblank
      · rw [hconstructor] at hmem
        exact absurd hmem (by decide +kernel)
    · intro hcode hkelvin
      obtain ⟨entry, hentry, hentryEq, hstate⟩ := stateName_code hcode
      rcases verifiedState_name hname with hroute | ⟨-, -, -, hfreeKelvin, -⟩
      · refine (usStates_upper entry hentry).2.1 ?_
        rw [hentryEq, ← hstate, heq, hroute, ← (token_eq_routeToken state).mpr ⟨hname, hshort⟩,
          token_eq_lowerName hname]
      · exact hfreeKelvin hkelvin
  · intro h
    obtain ⟨⟨hname, hlength⟩, hconstructor, hkelvin⟩ := id h
    rw [token_eq_lowerName hname]
    by_cases hcode : lowerName state ∈ usStates.map (·.1)
    · obtain ⟨entry, hentry, hentryEq, hstate⟩ := stateName_code hcode
      rw [hstate, verifiedState_code h hentry hentryEq]
    · rw [stateName_other hcode hconstructor]
      rcases verifiedState_name hname with hroute | ⟨entry, -, -, -, hmem⟩
      · rw [hroute, ← (token_eq_routeToken state).mpr ⟨hname, hlength⟩, token_eq_lowerName hname]
      · exact absurd hmem hcode

/-! ## Routing already present -/

theorem startsRouting_lines {cs : List Char} (h : startsRouting cs = true) :
    ∀ c ∈ cs, isLineTerminator c = false := by
  obtain ⟨word, hword, hmatch⟩ := List.any_eq_true.mp h
  obtain ⟨hopening, hrest⟩ := Bool.and_eq_true_iff.mp hmatch
  have hplain : ∀ word ∈ routingWords, ∀ c ∈ '_' :: word.toList ++ ['-'],
      isLineTerminator c = false := by decide
  have hlower : ∀ c, isLineTerminator c = true → c.toLower = c := by
    intro c hc
    have hcases : c = '\n' ∨ c = '\r' ∨ c = '\u2028' ∨ c = '\u2029' := by
      simpa [isLineTerminator] using hc
    rcases hcases with rfl | rfl | rfl | rfl <;> decide
  intro c hc
  rw [← List.take_append_drop ('_' :: word.toList ++ ['-']).length cs] at hc
  rcases List.mem_append.mp hc with hc | hc
  · by_contra hline
    rw [Bool.not_eq_false] at hline
    have hmem : c ∈ '_' :: word.toList ++ ['-'] := by
      rw [← of_decide_eq_true hopening]
      exact List.mem_map.mpr ⟨c, hc, hlower c hline⟩
    rw [hplain word hword c hmem] at hline
    cases hline
  · simpa using List.all_eq_true.mp hrest c hc

/-- What is stripped is one line. -/
theorem stripRouting_split (cs : List Char) :
    ∃ rest, cs = stripRouting cs ++ rest ∧ ∀ c ∈ rest, isLineTerminator c = false := by
  induction cs with
  | nil => exact ⟨[], rfl, fun _ h => (nomatch h)⟩
  | cons c cs ih =>
    rw [stripRouting]
    split
    · rename_i hstarts
      exact ⟨c :: cs, rfl, startsRouting_lines hstarts⟩
    · obtain ⟨rest, hsplit, hrest⟩ := ih
      exact ⟨rest, by rw [List.cons_append, ← hsplit], hrest⟩

/-- A route cannot start before an underscore and end after it. -/
theorem startsRouting_before {c : Char} {kept more rest : List Char}
    (hrest : ∀ d ∈ rest, isLineTerminator d = false)
    (h : startsRouting (c :: (kept ++ '_' :: more)) = true) :
    startsRouting (c :: (kept ++ rest)) = true := by
  obtain ⟨word, hword, hmatch⟩ := List.any_eq_true.mp h
  obtain ⟨hopening, hlines⟩ := Bool.and_eq_true_iff.mp hmatch
  have hopening := of_decide_eq_true hopening
  have hassoc (tail : List Char) : c :: (kept ++ tail) = (c :: kept) ++ tail := rfl
  have hplain : ∀ word ∈ routingWords, '_' ∉ word.toList ++ ['-'] := by decide
  refine List.any_eq_true.mpr ⟨word, hword, Bool.and_eq_true_iff.mpr ?_⟩
  by_cases hfits : ('_' :: word.toList ++ ['-']).length ≤ (c :: kept).length
  · rw [hassoc, List.take_append_of_le_length hfits] at hopening
    rw [hassoc, List.drop_append_of_le_length hfits, List.all_append,
      Bool.and_eq_true] at hlines
    rw [hassoc, List.take_append_of_le_length hfits, List.drop_append_of_le_length hfits,
      List.all_append, Bool.and_eq_true]
    refine ⟨decide_eq_true hopening, hlines.1, List.all_eq_true.mpr fun d hd => ?_⟩
    rw [hrest d hd]
    rfl
  · obtain ⟨extra, hextra⟩ : ∃ extra, ('_' :: word.toList ++ ['-']).length =
        (c :: kept).length + (extra + 1) :=
      ⟨('_' :: word.toList ++ ['-']).length - (c :: kept).length - 1, by omega⟩
    rw [hassoc, hextra, List.take_append, Nat.add_sub_cancel_left, List.take_succ_cons,
      List.map_append] at hopening
    rw [List.take_of_length_le (by omega), List.map_cons, List.map_cons] at hopening
    have htail : kept.map Char.toLower ++ '_'.toLower :: (more.take extra).map Char.toLower =
        word.toList ++ ['-'] := (List.cons.inj hopening).2
    refine absurd ?_ (hplain word hword)
    rw [← htail]
    exact List.mem_append_right _ List.mem_cons_self

/-- **Routing already present is ignored**: what is appended to a stripped password is stripped. -/
theorem stripRouting_append {suffix : List Char} (hunderscore : suffix.head? = some '_')
    (hsuffix : startsRouting suffix = true) (cs : List Char) :
    stripRouting (stripRouting cs ++ suffix) = stripRouting cs := by
  obtain ⟨more, rfl⟩ : ∃ more, suffix = '_' :: more := by
    cases suffix with
    | nil => cases hunderscore
    | cons c more =>
      cases hunderscore
      exact ⟨more, rfl⟩
  have hempty : stripRouting ('_' :: more) = [] := if_pos hsuffix
  induction cs with
  | nil => exact hempty
  | cons c cs ih =>
    by_cases hstarts : startsRouting (c :: cs) = true
    · have hnil : stripRouting (c :: cs) = [] := if_pos hstarts
      rw [hnil]
      exact hempty
    · obtain ⟨rest, hsplit, hrest⟩ := stripRouting_split cs
      have hkept : stripRouting (c :: cs) = c :: stripRouting cs := if_neg hstarts
      have hnone : ¬startsRouting (c :: (stripRouting cs ++ '_' :: more)) = true := by
        intro h
        have hbefore := startsRouting_before hrest h
        rw [← hsplit] at hbefore
        exact hstarts hbefore
      rw [hkept, List.cons_append, stripRouting, if_neg hnone, ih]

/-! ## The passwords -/

theorem upper_char {c : Char} (h : c.isUpper = true) :
    isNameChar c = true ∧ isJsSpace c = false ∧ c.isAlphanum = true ∧ c.toUpper = c ∧
      (c.toLower = 'u' ↔ c = 'U') ∧ (c.toLower = 's' ↔ c = 'S') := by
  revert h
  refine ascii_cases (P := fun c => c.isUpper = true → isNameChar c = true ∧ isJsSpace c = false ∧
    c.isAlphanum = true ∧ c.toUpper = c ∧ (c.toLower = 'u' ↔ c = 'U') ∧
      (c.toLower = 's' ↔ c = 'S')) (by decide +kernel) ?_ c
  intro c hc hupper
  rw [(wide_classes hc).1] at hupper
  cases hupper

/-- A country code is written as it is by one side, and in lower case by both. -/
theorem country_eq {country : String} (h : isCountryCode country = true) :
    String.ofList (toUpperCase (clean 2 country).toList) = country ∧
      String.ofList (toLowerCase country.toList) = token country ∧
      (asciiLower country = "us" ↔ country = "US") ∧ country ≠ "" := by
  unfold isCountryCode at h
  obtain ⟨hlength, hupper⟩ := Bool.and_eq_true_iff.mp h
  have hupper := List.all_eq_true.mp hupper
  obtain ⟨a, b, hab⟩ : ∃ a b, country.toList = [a, b] := by
    have htwo : country.toList.length = 2 := by
      rw [String.length_toList]
      exact of_decide_eq_true hlength
    match country.toList, htwo with
    | [a, b], _ => exact ⟨a, b, rfl⟩
  obtain ⟨haName, haSpace, haAlnum, haUpper, hau, -⟩ := upper_char (hupper a (by simp [hab]))
  obtain ⟨hbName, hbSpace, hbAlnum, hbUpper, -, hbs⟩ := upper_char (hupper b (by simp [hab]))
  have htrim : (trim country).toList = [a, b] := by
    unfold trim
    rw [String.toList_ofList, hab]
    simp [haSpace, hbSpace]
  have hname : ∀ c ∈ (trim country).toList, isNameChar c = true := by
    rw [htrim]
    simp [haName, hbName]
  have hcountry : String.ofList [a, b] = country := by rw [← hab, String.ofList_toList]
  refine ⟨?_, ?_, ?_, ?_⟩
  · rw [clean_name hname, htrim, List.take_of_length_le (by simp),
      toUpperCase_alnum (by simp [haAlnum, hbAlnum])]
    simp [haUpper, hbUpper, hcountry]
  · rw [token_eq_lowerName hname, lowerName, htrim, hab]
  · unfold asciiLower
    rw [hab, ← String.toList_inj, String.toList_ofList, ← String.toList_inj, hab]
    simp [hau, hbs]
  · rintro rfl
    cases hab

/-- The texts a route is written with have neither an underscore nor a line terminator. -/
def IsRouteText (text : String) : Prop :=
  ∀ c ∈ text.toList, c ≠ '_' ∧ isLineTerminator c = false

theorem routeText_of {text : String} (h : ∀ c ∈ text.toList, isTokenChar c = true) :
    IsRouteText text := by
  intro c hc
  have htoken := h c hc
  constructor
  · rintro rfl
    cases htoken
  · by_contra hline
    rw [Bool.not_eq_false] at hline
    have hcases : c = '\n' ∨ c = '\r' ∨ c = '\u2028' ∨ c = '\u2029' := by
      simpa [isLineTerminator] using hline
    rcases hcases with rfl | rfl | rfl | rfl <;> cases htoken

theorem routeText_token (value : String) : IsRouteText (token value) := by
  refine routeText_of fun c hc => ?_
  unfold token at hc
  rw [String.toList_ofList] at hc
  obtain ⟨d, -, rfl⟩ := List.mem_map.mp (mem_collapseHyphens hc)
  split
  · assumption
  · rfl

theorem routeText_stateName {state : String} (h : IsRouteText state) :
    IsRouteText (stateName state) := by
  unfold stateName
  split
  · rename_i entry hentry
    have hall : ∀ entry ∈ usStates, ∀ c ∈ entry.2.toList, c ≠ '_' ∧ isLineTerminator c = false := by
      decide +kernel
    exact hall entry (List.mem_of_find?_eq_some hentry)
  · split
    · unfold IsRouteText
      decide +kernel
    · exact h

theorem routeText_routeToken (value : String) : IsRouteText (routeToken value) := by
  refine routeText_of fun c hc => ?_
  have hroute := routeToken_route value c hc
  unfold isRouteChar at hroute
  rw [isTokenChar, hroute, Bool.true_or]

theorem routeText_verifiedState (state : String) : IsRouteText (verifiedState state) := by
  unfold verifiedState
  dsimp only
  split
  · rename_i entry hentry
    have hall : ∀ entry ∈ usStateNames, ∀ c ∈ entry.2.toList,
        c ≠ '_' ∧ isLineTerminator c = false := by decide +kernel
    exact hall entry (List.mem_of_find?_eq_some hentry)
  · exact routeText_routeToken state

/-- A country at the front starts a route, when a single line follows. -/
theorem startsRouting_country {text : String} (h : ∀ c ∈ text.toList, isLineTerminator c = false) :
    startsRouting ("_country-" ++ text).toList = true := by
  have hlist : ("_country-" ++ text).toList = "_country-".toList ++ text.toList :=
    String.toList_append
  refine List.any_eq_true.mpr ⟨"country", by decide, ?_⟩
  rw [hlist]
  refine Bool.and_eq_true_iff.mpr ⟨?_, ?_⟩
  · have htake : ("_country-".toList ++ text.toList).take ('_' :: "country".toList ++ ['-']).length =
        "_country-".toList := List.take_left' (by decide)
    rw [htake]
    decide
  · have hdrop : ("_country-".toList ++ text.toList).drop ('_' :: "country".toList ++ ['-']).length =
        text.toList := List.drop_left' (by decide)
    rw [hdrop, List.all_eq_true]
    intro c hc
    rw [h c hc]
    rfl

theorem basePassword_append {text : String} (h : ∀ c ∈ text.toList, isLineTerminator c = false)
    (pass : String) : basePassword (basePassword pass ++ ("_country-" ++ text)) = basePassword pass := by
  have hhead : ("_country-" ++ text).toList.head? = some '_' := by
    rw [String.toList_append]
    rfl
  have hstrip := stripRouting_append hhead (startsRouting_country h) pass.toList
  unfold basePassword
  rw [String.toList_append, String.toList_ofList, hstrip]

/-- A state and a city, as they are appended. -/
def placeParts (state city : Option String) : String :=
  (match state with
    | none => ""
    | some state => "_state-" ++ state) ++
  match city with
    | none => ""
    | some city => "_city-" ++ city

/-- The state of `buildProxyEndpoint`. -/
def usedState (geo : GeoTarget) (state : String) : String :=
  if geo.country = "US" then stateName (token state) else token state

/-- The state of `verificationUrl`. -/
def checkedState (geo : GeoTarget) (state : String) : String :=
  if geo.country = "US" then verifiedState state else routeToken state

theorem geoSuffix_eq {geo : GeoTarget} (h : isCountryCode geo.country = true) :
    geoSuffix geo = "_country-" ++ (token geo.country ++
      placeParts ((given geo.state).map (usedState geo)) ((given geo.city).map token)) := by
  obtain ⟨-, -, hus, hne⟩ := country_eq h
  unfold geoSuffix placeParts usedState
  rw [if_neg hne]
  simp only [hus]
  cases given geo.state <;> cases given geo.city <;> simp [String.append_assoc]

theorem verificationPassword_eq {geo : GeoTarget} (h : isCountryCode geo.country = true)
    (pass : String) : verificationPassword geo pass = basePassword pass ++ ("_country-" ++
      (token geo.country ++
        placeParts ((given geo.state).map (checkedState geo)) ((given geo.city).map routeToken))) := by
  obtain ⟨hupper, hlower, -, hne⟩ := country_eq h
  unfold verificationPassword placeParts checkedState
  dsimp only
  rw [hupper, if_neg hne, hlower]
  cases given geo.state <;> cases given geo.city <;> simp [String.append_assoc]

theorem placeParts_line {state city : Option String} (hstate : ∀ text ∈ state, IsRouteText text)
    (hcity : ∀ text ∈ city, IsRouteText text) :
    ∀ c ∈ (placeParts state city).toList, isLineTerminator c = false := by
  have hpart (name : String) (hname : ∀ c ∈ name.toList, isLineTerminator c = false)
      {text : Option String} (htext : ∀ value ∈ text, IsRouteText value) :
      ∀ c ∈ (match text with
        | none => ""
        | some value => name ++ value).toList, isLineTerminator c = false := by
    intro c hc
    cases text with
    | none => cases hc
    | some value =>
      rw [String.toList_append] at hc
      exact (List.mem_append.mp hc).elim (hname c) fun hc => (htext value rfl c hc).2
  intro c hc
  unfold placeParts at hc
  rw [String.toList_append] at hc
  rcases List.mem_append.mp hc with hc | hc
  · exact hpart "_state-" (by decide) hstate c hc
  · exact hpart "_city-" (by decide) hcity c hc

/-- Texts without an underscore before texts that start with one, if with anything. -/
theorem append_underscore {front front' back back' : List Char} (hfront : '_' ∉ front)
    (hfront' : '_' ∉ front') (hback : back = [] ∨ back.head? = some '_')
    (hback' : back' = [] ∨ back'.head? = some '_') (h : front ++ back = front' ++ back') :
    front = front' ∧ back = back' := by
  have htake {front back : List Char} (hfront : '_' ∉ front)
      (hback : back = [] ∨ back.head? = some '_') :
      (front ++ back).takeWhile (· ≠ '_') = front := by
    refine (takeWhile_digits (p := (· ≠ '_')) (fun c hc => ?_) fun c hc => ?_).1
    · exact decide_eq_true fun heq => hfront (heq ▸ hc)
    · rcases hback with rfl | hback
      · cases hc
      · rw [hback] at hc
        cases hc
        rfl
  have hsame : front = front' := by rw [← htake hfront hback, h, htake hfront' hback']
  subst hsame
  exact ⟨rfl, List.append_cancel_left h⟩

/-- Two ways to write the same places give the same parts exactly where they write them alike. -/
theorem placeParts_inj {state city : Option String} {write write' writeCity writeCity' : String → String}
    (hwrite : ∀ text, IsRouteText (write text)) (hwrite' : ∀ text, IsRouteText (write' text)) :
    placeParts (state.map write) (city.map writeCity) =
        placeParts (state.map write') (city.map writeCity') ↔
      (∀ text ∈ state, write text = write' text) ∧ ∀ text ∈ city, writeCity text = writeCity' text := by
  have hcityHead (text : Option String) : (match text with
      | none => ""
      | some city => "_city-" ++ city).toList = [] ∨ (match text with
      | none => ""
      | some city => "_city-" ++ city).toList.head? = some '_' := by
    cases text with
    | none => exact Or.inl rfl
    | some text =>
      refine Or.inr ?_
      rw [String.toList_append]
      rfl
  constructor
  · intro h
    have hlist := congrArg String.toList h
    unfold placeParts at hlist
    rw [String.toList_append, String.toList_append] at hlist
    have hsplit : (∀ text ∈ state, write text = write' text) ∧ (match city.map writeCity with
        | none => ""
        | some city => "_city-" ++ city).toList = (match city.map writeCity' with
        | none => ""
        | some city => "_city-" ++ city).toList := by
      cases state with
      | none => exact ⟨fun _ h => (nomatch h), hlist⟩
      | some state =>
        rw [Option.map_some, Option.map_some] at hlist
        dsimp only at hlist
        rw [String.toList_append, String.toList_append, List.append_assoc, List.append_assoc] at hlist
        obtain ⟨hstate, hcity⟩ := append_underscore (fun h => (hwrite state '_' h).1 rfl)
          (fun h => (hwrite' state '_' h).1 rfl) (hcityHead _) (hcityHead _)
          (List.append_cancel_left hlist)
        refine ⟨fun text htext => ?_, hcity⟩
        cases htext
        exact String.toList_injective hstate
    refine ⟨hsplit.1, fun text htext => ?_⟩
    have hcity := hsplit.2
    cases htext
    rw [Option.map_some, Option.map_some] at hcity
    dsimp only at hcity
    rw [String.toList_append, String.toList_append] at hcity
    exact String.toList_injective (List.append_cancel_left hcity)
  · rintro ⟨hstate, hcity⟩
    have hsame : ∀ {write write' : String → String} {text : Option String},
        (∀ value ∈ text, write value = write' value) → text.map write = text.map write' := by
      intro write write' text h
      cases text with
      | none => rfl
      | some text => exact congrArg some (h text rfl)
    rw [hsame hstate, hsame hcity]

/-! ## The route of a run -/

/-- The places of a target are ones both sides write alike. -/
structure PlainPlaces (geo : GeoTarget) : Prop where
  state : ∀ state ∈ given geo.state, if geo.country = "US" then PlainState state else PlainName state
  city : ∀ city ∈ given geo.city, PlainName city

theorem geoSuffix_verified {geo : GeoTarget} (h : isCountryCode geo.country = true) (pass : String) :
    basePassword pass ++ geoSuffix geo = verificationPassword geo pass ↔ PlainPlaces geo := by
  rw [geoSuffix_eq h, verificationPassword_eq h, ← String.toList_inj]
  simp only [String.toList_append, List.append_cancel_left_eq]
  rw [String.toList_inj, placeParts_inj
    (fun text => by
      unfold usedState
      split
      · exact routeText_stateName (routeText_token text)
      · exact routeText_token text)
    (fun text => by
      unfold checkedState
      split
      · exact routeText_verifiedState text
      · exact routeText_routeToken text)]
  have hstate (state : String) : usedState geo state = checkedState geo state ↔
      if geo.country = "US" then PlainState state else PlainName state := by
    unfold usedState checkedState
    split
    · exact state_eq state
    · exact token_eq_routeToken state
  constructor
  · rintro ⟨hstates, hcities⟩
    exact ⟨fun state hmem => (hstate state).mp (hstates state hmem), fun city hmem =>
      (token_eq_routeToken city).mp (hcities city hmem)⟩
  · rintro ⟨hstates, hcities⟩
    exact ⟨fun state hmem => (hstate state).mpr (hstates state hmem), fun city hmem =>
      (token_eq_routeToken city).mpr (hcities city hmem)⟩

/-- The part of a routed password after the base password. -/
theorem routedPassword_form {geo : GeoTarget} (h : isCountryCode geo.country = true) {mode : ProxyMode}
    {pass password : String} {sessionId : Option String}
    (hpassword : routedPassword geo mode pass sessionId = .ok password) :
    ∃ text, (∀ c ∈ text.toList, isLineTerminator c = false) ∧
      password = basePassword pass ++ ("_country-" ++ text) := by
  have hplaces := @placeParts_line ((given geo.state).map (usedState geo))
    ((given geo.city).map token)
    (fun text htext => by
      obtain ⟨state, -, rfl⟩ := Option.map_eq_some_iff.mp htext
      unfold usedState
      split
      · exact routeText_stateName (routeText_token state)
      · exact routeText_token state)
    (fun text htext => by
      obtain ⟨city, -, rfl⟩ := Option.map_eq_some_iff.mp htext
      exact routeText_token city)
  have hgeo : ∀ c ∈ (token geo.country ++ placeParts ((given geo.state).map (usedState geo))
      ((given geo.city).map token)).toList, isLineTerminator c = false := by
    intro c hc
    rw [String.toList_append] at hc
    exact (List.mem_append.mp hc).elim (fun hc => (routeText_token geo.country c hc).2) (hplaces c)
  unfold routedPassword at hpassword
  rw [geoSuffix_eq h] at hpassword
  cases mode with
  | rotatingResidential => exact ⟨_, hgeo, (Except.ok.inj hpassword).symm⟩
  | stickyResidential =>
    dsimp only at hpassword
    split at hpassword
    · refine ⟨token geo.country ++ placeParts ((given geo.state).map (usedState geo))
        ((given geo.city).map token) ++ "_session-" ++ token (sessionId.getD "") ++ "_lifetime-1h",
        ?_, ?_⟩
      · intro c hc
        simp only [String.toList_append, List.mem_append] at hc
        rcases hc with (((hc | hc) | hc) | hc) | hc
        · exact (routeText_token geo.country c hc).2
        · exact hplaces c hc
        · exact (by decide : ∀ c ∈ "_session-".toList, isLineTerminator c = false) c hc
        · exact (routeText_token _ c hc).2
        · exact (by decide : ∀ c ∈ "_lifetime-1h".toList, isLineTerminator c = false) c hc
      · rw [← Except.ok.inj hpassword]
        simp [String.append_assoc]
    · cases hpassword

/-- What was routed before is routed as the password without it. -/
theorem routedPassword_again {geo geo' : GeoTarget} (h : isCountryCode geo.country = true)
    {mode mode' : ProxyMode} {pass password : String} {sessionId sessionId' : Option String}
    (hpassword : routedPassword geo mode pass sessionId = .ok password) :
    routedPassword geo' mode' password sessionId' = routedPassword geo' mode' pass sessionId' := by
  obtain ⟨text, htext, rfl⟩ := routedPassword_form h hpassword
  unfold routedPassword
  rw [basePassword_append htext]

theorem verificationPassword_again {geo : GeoTarget} (h : isCountryCode geo.country = true)
    (geo' : GeoTarget) (pass : String) :
    verificationPassword geo' (verificationPassword geo pass) = verificationPassword geo' pass := by
  have hplaces := @placeParts_line ((given geo.state).map (checkedState geo))
    ((given geo.city).map routeToken)
    (fun text htext => by
      obtain ⟨state, -, rfl⟩ := Option.map_eq_some_iff.mp htext
      unfold checkedState
      split
      · exact routeText_verifiedState state
      · exact routeText_routeToken state)
    (fun text htext => by
      obtain ⟨city, -, rfl⟩ := Option.map_eq_some_iff.mp htext
      exact routeText_routeToken city)
  have hbase : basePassword (verificationPassword geo pass) = basePassword pass := by
    rw [verificationPassword_eq h]
    refine basePassword_append (fun c hc => ?_) pass
    rw [String.toList_append] at hc
    exact (List.mem_append.mp hc).elim (fun hc => (routeText_token geo.country c hc).2) (hplaces c)
  unfold verificationPassword
  unfold verificationPassword at hbase
  rw [hbase]

/-- The route of a run is the one that was verified: the orchestrator takes the account, and routes
the password the same way, whatever route the stored password already has. -/
structure SameRoute (creds : ProxyCredentials) (geo : GeoTarget) : Prop where
  accepted : isIproyalUsername creds.user = true
  rotating : ∀ sessionId, routedPassword geo .rotatingResidential creds.pass sessionId =
    .ok (verificationPassword geo creds.pass)
  sticky : ∀ sessionId password,
    routedPassword geo .stickyResidential creds.pass sessionId = .ok password →
      ∃ session, password = verificationPassword geo creds.pass ++ "_session-" ++ session ++
        "_lifetime-1h"
  routedAgain : ∀ mode sessionId password,
    routedPassword geo mode creds.pass sessionId = .ok password →
      routedPassword geo mode password sessionId = .ok password
  verifiedAgain : verificationPassword geo (verificationPassword geo creds.pass) =
    verificationPassword geo creds.pass

theorem stored_account {creds : ProxyCredentials} (h : Stored creds) :
    isIproyalUsername creds.user = true ↔ '@' ∉ creds.user.toList := by
  have hne : creds.user ≠ "" := by
    intro hempty
    have hlength := h.userLength.1
    rw [hempty] at hlength
    cases hlength
  have hall := List.all_eq_true.mp h.user
  unfold isIproyalUsername
  rw [Bool.and_eq_true, List.all_eq_true]
  constructor
  · rintro ⟨-, hchars⟩ hmem
    cases hchars '@' hmem
  · intro hfree
    refine ⟨decide_eq_true hne, fun c hc => ?_⟩
    have hchar := hall c hc
    have hat : c ≠ '@' := fun heq => hfree (heq ▸ hc)
    simp only [Bool.or_eq_true, decide_eq_true_eq, List.mem_cons, List.not_mem_nil, or_false] at hchar ⊢
    tauto

/-- **The verified route is the route used exactly for accounts without an at sign and places that
both sides write alike.** -/
theorem route_used (creds : ProxyCredentials) (geo : GeoTarget) (hstored : Stored creds)
    (hcountry : isCountryCode geo.country = true) :
    SameRoute creds geo ↔ '@' ∉ creds.user.toList ∧ PlainPlaces geo := by
  rw [← stored_account hstored, ← geoSuffix_verified hcountry creds.pass]
  constructor
  · intro h
    exact ⟨h.accepted, Except.ok.inj (h.rotating none)⟩
  · rintro ⟨haccepted, hsame⟩
    refine ⟨haccepted, fun _ => congrArg Except.ok hsame, fun sessionId password hpassword => ?_,
      fun mode sessionId password hpassword => ?_, verificationPassword_again hcountry geo creds.pass⟩
    · unfold routedPassword at hpassword
      dsimp only at hpassword
      split at hpassword
      · exact ⟨token (sessionId.getD ""), by rw [← Except.ok.inj hpassword, hsame]⟩
      · cases hpassword
    · rw [routedPassword_again hcountry hpassword, hpassword]

section Sample

def sampleAccount : ProxyCredentials where
  user := "iproyal1365"
  pass := "secret_country-de"

theorem route_used_california :
    SameRoute sampleAccount { country := "US", state := some "CA", city := some "Oakland" } ↔
      '@' ∉ sampleAccount.user.toList ∧
        PlainPlaces { country := "US", state := some "CA", city := some "Oakland" } :=
  route_used sampleAccount _ ⟨by decide, by decide, by decide, by decide⟩ (by decide)

/-- **A state of two words is verified under one name and used under another.** -/
theorem route_changed :
    routedPassword { country := "US", state := some "New York" } .rotatingResidential
        sampleAccount.pass none = .ok "secret_country-us_state-new-york" ∧
      verificationPassword { country := "US", state := some "New York" } sampleAccount.pass =
        "secret_country-us_state-newyork" ∧
      ¬SameRoute sampleAccount { country := "US", state := some "New York" } := by
  have hused : routedPassword { country := "US", state := some "New York" } .rotatingResidential
      sampleAccount.pass none = .ok "secret_country-us_state-new-york" := by decide +kernel
  have hverified : verificationPassword { country := "US", state := some "New York" }
      sampleAccount.pass = "secret_country-us_state-newyork" := by decide +kernel
  refine ⟨hused, hverified, fun h => ?_⟩
  have hsame := h.rotating none
  rw [hused, hverified] at hsame
  exact absurd (Except.ok.inj hsame) (by decide)

end Sample

end LinkSuffix.Adapter
