import LinkSuffix.Orchestrator.CapturePayload
import LinkSuffix.Worker.RedirectFirst

/-!
# Captures of the redirect preflight

A capture of `resolveRedirectFirst` is reported as one before the validator has seen it
(`runOneRepeat`): the runner builds an event of it, adds the verdict and asks the validator. The
preflight follows any redirect with a `Location` or a `Refresh` to any query; the validator asks for
one of five redirects with a `Location`, and for addresses without an issue.

* `lightweightEvent`: the event, as the validator is given it.
* `HopState.Sound`: what every hop of the chain finds. `sound_next`, `sound_last`: the induction.
* `Keepable`: the last hop leaves nothing for the validator to refuse.
* **`captures_kept_iff`**: a capture is kept exactly then.
* `refresh_discarded`: a `Refresh` redirect is captured and discarded.
-/

namespace LinkSuffix

open JsValue

/-! ## The event -/

/-- What the verdict of a journey notes on its last main document. -/
structure VerdictNotes where
  final : String
  vendors : Option String := none
  vendorEvidence : Option String := none
  reason : String
  strategies : String

/-- What the runner knows of a journey besides its result. -/
structure JourneyNotes where
  verdict : VerdictNotes
  repeatIndex : JsNumber := .finite 0
  proxyMode : String
  sessionId : Option String := none
  geoResolved : JsValue := .undefined
  egressTimezone : Option String := none

/-- The notes on a document. -/
def VerdictNotes.note (notes : VerdictNotes) (item : RawRequestRecord) : RawRequestRecord :=
  noteSignal "verdict_strategies" (some notes.strategies) <|
    noteSignal "verdict_reason" (some notes.reason) <|
    noteSignal "challenge_vendor_evidence" notes.vendorEvidence <|
    noteSignal "challenge_vendors" notes.vendors item

/-- `lightweightEvent`, with the verdict. -/
def lightweightEvent (notes : JourneyNotes) (resolved : RedirectFirstResult) : RequestEvent where
  repeatIndex := notes.repeatIndex
  proxyMode := notes.proxyMode
  sessionId := notes.sessionId
  geoResolved := notes.geoResolved
  finalLandingUrl := resolved.finalUrl
  events := noteLast (noteSignal "egress_timezone" notes.egressTimezone)
    (noteLastMain notes.verdict.note resolved.events)
  finalVerdict := if resolved.events = [] then "unsure" else notes.verdict.final

/-! ## What the notes leave -/

theorem note_reply (notes : VerdictNotes) (item : RawRequestRecord) :
    SameReply item (notes.note item) :=
  (((noteSignal_reply (by decide) (by decide) notes.vendors item).trans
    (noteSignal_reply (by decide) (by decide) notes.vendorEvidence _)).trans
    (noteSignal_reply (by decide) (by decide) (some notes.reason) _)).trans
    (noteSignal_reply (by decide) (by decide) (some notes.strategies) _)

/-- The events of the lightweight event: only the last main document is noted on. -/
theorem lightweight_events (notes : JourneyNotes) {resolved : RedirectFirstResult}
    {init : List RawRequestRecord} {last : RawRequestRecord}
    (hevents : resolved.events = init ++ [last]) (hmain : last.isMainDocument = true) :
    ∃ last', (lightweightEvent notes resolved).events = init ++ [last'] ∧ SameReply last last' := by
  refine ⟨noteSignal "egress_timezone" notes.egressTimezone (notes.verdict.note last), ?_,
    (note_reply notes.verdict last).trans
      (noteSignal_reply (by decide) (by decide) notes.egressTimezone _)⟩
  simp only [lightweightEvent, hevents, noteLastMain_concat hmain, noteLast_concat]

/-! ## The decision on an event without a policy -/

variable {platform : Platform}

/-- An event without a policy, an error or a challenge, after documents that all passed, is accepted
by its landing URL and its last document. -/
theorem chain_accepted_iff {event : RequestEvent} {init : List RawRequestRecord}
    {last : RawRequestRecord} {finalUrl : String} (hpolicy : event.redirectCapture = none)
    (hchallenge : event.challenge = none) (herror : event.error = none)
    (hverdict : jsLower event.finalVerdict ∉ refusedVerdicts)
    (hfinal : event.finalLandingUrl = some finalUrl) (hevents : event.events = init ++ [last])
    (hmain : ∀ item ∈ event.events, item.isMainDocument = true)
    (hpassed : ∀ item ∈ event.events,
      edgeStopForResponse platform (.object item.fields) = none)
    (hpath : textField last.taSignal "capture_path" = some "redirect-first") :
    (∃ suffix shown, evaluateCaptureResult platform event.toValue none =
      .accepted finalUrl suffix shown) ↔
      captureUrlIssue platform (.string finalUrl) = none ∧
        (∃ suffix, suffixOf finalUrl = some suffix ∧ suffix ≠ "") ∧
        ∃ shown, confirmed platform (.object last.fields) finalUrl = .ok shown := by
  have hdocs : documents event.toValue = event.events.map fun item => .object item.fields := by
    rw [documents_event, List.filter_eq_self.mpr hmain]
  have hlast : (documents event.toValue).getLast? = some (.object last.fields) := by
    rw [hdocs, List.getLast?_map, hevents, List.getLast?_concat]
    rfl
  have hstop : (documents event.toValue).findSome? (edgeStopForResponse platform) = none := by
    rw [hdocs, List.findSome?_eq_none_iff]
    intro doc hdoc
    obtain ⟨item, hitem, rfl⟩ := List.mem_map.mp hdoc
    exact hpassed item hitem
  have hurl : event.toValue.get "final_landing_url" = .string finalUrl := by
    have hvalue : event.toValue.get "final_landing_url" = ofOption event.finalLandingUrl := rfl
    rw [hvalue, hfinal]
    rfl
  have hsigned : signal (.object last.fields) "capture_path" = .string "redirect-first" := by
    have hvalue : signal (.object last.fields) "capture_path" =
        ofOption (textField last.taSignal "capture_path") :=
      get_ofStrings last.taSignal "capture_path"
    rw [hvalue, hpath]
    rfl
  have hnopolicy : event.toValue.get "redirect_capture" = .undefined := by
    have hvalue : event.toValue.get "redirect_capture" = event.policyValue := rfl
    rw [hvalue, RequestEvent.policyValue, hpolicy]
  have hrefusal : refusal platform event.toValue (some (.object last.fields)) = none ↔
      captureUrlIssue platform (.string finalUrl) = none := by
    have hnoerror : event.toValue.get "error" = .undefined := by
      have hvalue : event.toValue.get "error" = ofOption event.error := rfl
      rw [hvalue, herror]
      rfl
    have hnochallenge : event.toValue.get "challenge" = .undefined := by
      have hvalue : event.toValue.get "challenge" = event.challengeValue := rfl
      rw [hvalue, RequestEvent.challengeValue, hchallenge]
    have hdecided : event.toValue.get "final_verdict" = .string event.finalVerdict := rfl
    have hunmitigated := (unrefused_of_passed (hpassed last (by simp [hevents]))).unmitigated
    rw [refusal_eq_none, hurl, hnoerror, hnochallenge, hdecided, Option.any_some]
    constructor
    · exact fun h => h.2.1
    · exact fun h => ⟨rfl, h, decide_eq_false hunmitigated, (fun hopen => nomatch hopen.1),
        hverdict⟩
  simp only [accepted_iff, hstop, hlast, hrefusal, hurl, true_and]
  have hevidence {suffix : String} {shown : Evidence} :
      evidence platform event.toValue none finalUrl = .ok (suffix, shown) ↔
        (suffixOf finalUrl = some suffix ∧ suffix ≠ "") ∧
          confirmed platform (.object last.fields) finalUrl = .ok shown := by
    unfold evidence
    cases hsuffix : suffixOf finalUrl with
    | none => simp
    | some text =>
      by_cases hempty : text = ""
      · simp only [hempty, if_true, reduceCtorEq, Option.some.injEq, false_iff, not_and]
        rintro ⟨rfl, hne⟩
        exact absurd rfl hne
      · simp only [hempty, if_false, hlast, hsigned, hnopolicy, Option.any_none, Lib.map_eq_ok,
          isText, isNullish, Prod.mk.injEq, Option.some.injEq, Option.getD_none]
        constructor
        · rintro ⟨shown', hshown, rfl, rfl⟩
          exact ⟨⟨rfl, hempty⟩, by simpa using hshown⟩
        · rintro ⟨⟨rfl, -⟩, hshown⟩
          exact ⟨shown, by simpa using hshown, rfl, rfl⟩
  constructor
  · rintro ⟨suffix, shown, hissue, h⟩
    obtain ⟨hsuffix, hshown⟩ := hevidence.mp h
    exact ⟨hissue, ⟨suffix, hsuffix⟩, shown, hshown⟩
  · rintro ⟨hissue, ⟨suffix, hsuffix⟩, shown, hshown⟩
    exact ⟨suffix, shown, hissue, hevidence.mpr ⟨hsuffix, hshown⟩⟩

/-! ## The chain -/

/-- Reading a web URL again gives it again, and an absolute web address needs no base. -/
structure UrlParser.Rereads (P : UrlParser) : Prop where
  parsed : ∀ raw url, P.parse raw = some url → url.isWeb = true → P.parse url.href = some url
  resolved : ∀ raw base url, P.parseFrom raw base = some url → url.isWeb = true →
    P.parse url.href = some url
  absolute : ∀ raw base url, isAbsoluteWeb raw = true → P.parseFrom raw base = some url →
    P.parse raw = some url

/-- Where a redirect leads: the text to capture stands for the URL to ask. -/
theorem resolveLocation_spec {P : UrlParser} (hP : P.Rereads) {location text : String}
    {current target : Url}
    (h : resolveLocationPreservingQuery P location current = some (target, text)) :
    trim location ≠ "" ∧ P.parseFrom (trim location) current.href = some target ∧
      target.isWeb = true ∧ P.parse target.href = some target ∧ P.parse text = some target := by
  unfold resolveLocationPreservingQuery at h
  dsimp only at h
  split at h
  · cases h
  · rename_i hempty
    split at h
    · cases h
    · rename_i requestUrl hresolved
      split at h
      · cases h
      · rename_i hweb
        obtain ⟨rfl, rfl⟩ := Prod.mk.inj (Option.some.inj h)
        have hweb : requestUrl.isWeb = true := not_not.mp hweb
        have hreads := hP.resolved _ _ _ hresolved hweb
        refine ⟨hempty, hresolved, hweb, hreads, ?_⟩
        by_cases habsolute : isAbsoluteWeb (trim location) = true
        · rw [if_pos habsolute]
          exact hP.absolute _ _ _ habsolute hresolved
        · rw [if_neg habsolute]
          exact hreads

/-- What every hop of a chain finds. -/
structure HopState.Sound (platform : Platform) (s : HopState) : Prop where
  reads : platform.parse s.current.href = some s.current
  main : ∀ item ∈ s.events, item.isMainDocument = true
  passed : ∀ item ∈ s.events, edgeStopForResponse platform (.object item.fields) = none
  landed : ∀ redirect, s.redirects.getLast? = some redirect →
    platform.parse redirect.target = some s.current

variable {isIP : String → Nat} {cfg : PreflightConfig} {s s' : HopState} {input : HopInput}
  {result : RedirectFirstResult}

/-- What a hop keeps. -/
theorem sound_next (hplatform : platform.Rereads) (hs : s.Sound platform)
    (h : followHop platform isIP cfg s input = .next s') : s'.Sound platform := by
  obtain ⟨response, target, text, -, hstop, -, -, hresolved, -, -, rfl⟩ := followHop_next h
  obtain ⟨-, -, -, hreads, htext⟩ := resolveLocation_spec hplatform hresolved
  constructor
  · exact hreads
  · intro item hitem
    rcases List.mem_append.mp hitem with hitem | hitem
    · exact hs.main item hitem
    · obtain rfl := List.mem_singleton.mp hitem
      rfl
  · intro item hitem
    rcases List.mem_append.mp hitem with hitem | hitem
    · exact hs.passed item hitem
    · obtain rfl := List.mem_singleton.mp hitem
      exact hstop
  · intro redirect hredirect
    rw [List.getLast?_concat] at hredirect
    obtain rfl := Option.some.inj hredirect
    exact htext

/-- The hop that ends a chain finds what the first found. -/
theorem sound_last (hplatform : platform.Rereads) {inputs : List HopInput} (hs : s.Sound platform)
    (h : followHops platform isIP cfg s inputs = some (.returned result)) :
    ∃ last input, lastHop platform isIP cfg s inputs = some (last, input) ∧ last.Sound platform ∧
      followHop platform isIP cfg last input = .done result := by
  induction inputs generalizing s with
  | nil => cases h
  | cons input inputs ih =>
    unfold followHops at h
    unfold lastHop
    cases hstep : followHop platform isIP cfg s input with
    | next s' =>
      rw [hstep] at h
      exact ih (sound_next hplatform hs hstep) h
    | done result' =>
      rw [hstep] at h
      cases h
      exact ⟨s, input, rfl, hs, hstep⟩
    | thrown =>
      rw [hstep] at h
      cases h

/-! ## The last hop -/

/-- The last hop leaves nothing to refuse: its address has no issue, and a redirect is one of the
five with a `Location`, whose target has no issue. -/
structure Keepable (platform : Platform) (current : Url) (response : HopResponse) : Prop where
  address : captureUrlIssue platform (.string current.href) = none
  redirect : 300 ≤ response.status → response.status < 400 →
    response.status ∈ [301, 302, 303, 307, 308] ∧
      ∃ location, textField response.headers "location" = some location ∧
        ∀ target, platform.parseFrom (trim location) current.href = some target →
          captureUrlIssue platform (.string target.href) = none

/-- A query that the preflight finds is a suffix. -/
theorem suffixOf_of_query {raw : String} (h : hasExactQuery raw = true) :
    ∃ suffix, suffixOf raw = some suffix ∧ suffix ≠ "" := by
  unfold hasExactQuery at h
  dsimp only at h
  split at h
  · cases h
  · rename_i question hquestion
    rw [decide_eq_true_eq] at h
    unfold suffixOf
    dsimp only
    rw [hquestion]
    dsimp only
    have hbound : (raw.toList.findIdx? (· = '#')).getD raw.toList.length ≤ raw.toList.length := by
      cases hfragment : raw.toList.findIdx? (· = '#') with
      | none => exact Nat.le_refl _
      | some fragment =>
        exact Nat.le_of_lt (List.findIdx?_eq_some_iff_getElem.mp hfragment).1
    have hlate : ¬(raw.toList.findIdx? (· = '#')).any (· < question) = true := by
      cases hfragment : raw.toList.findIdx? (· = '#') with
      | none => simp
      | some fragment =>
        rw [hfragment, Option.getD_some] at h
        simp only [Option.any_some, decide_eq_true_eq]
        omega
    rw [if_neg hlate]
    refine ⟨_, rfl, ?_⟩
    intro hempty
    have hlength := congrArg (List.length ∘ String.toList) hempty
    simp only [Function.comp_apply, String.toList_ofList, List.length_drop, List.length_take,
      String.toList_empty, List.length_nil] at hlength
    omega

/-- Under lower-case names the first `location` is the only one. -/
theorem header_location (response : HopResponse) :
    header (ofStrings response.headers) "location" =
      ((textField response.headers "location").map trim).getD "" := by
  have hfound : response.headers.find? (fun header => decide (jsLower header.1 = "location")) =
      response.headers.find? fun header => decide (header.1 = "location") :=
    List.find?_congr fun header hheader => by rw [response.lower header hheader]
  rw [header_eq, headerValue_ofStrings, hfound]
  unfold textField
  cases response.headers.find? fun header => decide (header.1 = "location") <;> rfl

theorem status_integer (n : Nat) : (JsNumber.finite (n : Rat)).integer = some (n : Int) := by
  simp [JsNumber.integer]

theorem status_redirect (n : Nat) :
    isRedirectStatus (.finite (n : Rat)) = true ↔ n ∈ [301, 302, 303, 307, 308] := by
  simp only [isRedirectStatus, List.map_cons, List.map_nil, List.mem_cons, List.not_mem_nil,
    or_false, JsNumber.finite.injEq, decide_eq_true_eq]
  norm_cast

theorem captureUrlIssue_congr {raw raw' : String} (h : platform.parse raw = platform.parse raw') :
    captureUrlIssue platform (.string raw) = captureUrlIssue platform (.string raw') := by
  unfold captureUrlIssue
  dsimp only
  rw [h]

/-- The last hop and what is noted of it, for the validator. -/
structure Noted (s : HopState) (response : HopResponse) (last : RawRequestRecord) : Prop where
  url : last.url = s.current.href
  status : last.status = .finite response.status
  headers : last.headers = response.headers
  capturePath : textField last.taSignal "capture_path" = some "redirect-first"

section Noted

variable {response : HopResponse} {last : RawRequestRecord} {finalUrl : String}

/-- A last hop that is no redirect confirms its own address. -/
theorem confirmed_landed (hnoted : Noted s response last)
    (hstatus : 200 ≤ response.status ∧ response.status < 300)
    (hreads : platform.parse s.current.href = some s.current)
    (hfinal : platform.parse finalUrl = some s.current) :
    confirmed platform (.object last.fields) finalUrl = .ok .documentResponse := by
  have hvalue : (JsValue.object last.fields).get "status" = .number last.status := rfl
  have hurl : (JsValue.object last.fields).get "url" = .string last.url := rfl
  have hsame : documentUrl platform (.string last.url) = documentUrl platform (.string finalUrl) := by
    simp only [documentUrl, hnoted.url, hreads, hfinal]
  unfold confirmed
  dsimp only
  rw [if_pos]
  refine ⟨?_, ?_⟩
  · rw [hvalue, hnoted.status, toNumber, status_integer, Option.any_some, decide_eq_true_eq]
    omega
  · rw [hurl, hsame]

/-- A redirect confirms its target when it is one of the five, with a `Location`, at an address
without an issue. -/
theorem confirmed_redirect_iff (hnoted : Noted s response last)
    (hstatus : 300 ≤ response.status ∧ response.status < 400) {target : Url}
    (hfinal : platform.parse finalUrl = some target)
    (hreads : platform.parse target.href = some target)
    (hlocation : ∀ location, textField response.headers "location" = some location →
      trim location ≠ "" ∧ platform.parseFrom (trim location) s.current.href = some target) :
    (∃ shown, confirmed platform (.object last.fields) finalUrl = .ok shown) ↔
      response.status ∈ [301, 302, 303, 307, 308] ∧
        (∃ location, textField response.headers "location" = some location) ∧
        captureUrlIssue platform (.string s.current.href) = none := by
  have hvalue : (JsValue.object last.fields).get "status" = .number last.status := rfl
  have hurl : (JsValue.object last.fields).get "url" = .string last.url := rfl
  have hheaders : (JsValue.object last.fields).get "headers" = ofStrings last.headers := rfl
  have hsigned : (signal (.object last.fields) "capture_path").isText "redirect-first" = true := by
    have hread : signal (.object last.fields) "capture_path" =
        ofOption (textField last.taSignal "capture_path") :=
      get_ofStrings last.taSignal "capture_path"
    rw [hread, hnoted.capturePath]
    rfl
  have hnotLanded : ¬((JsNumber.finite (response.status : Rat)).integer.any
      fun status => 200 ≤ status ∧ status < 300) = true := by
    rw [status_integer, Option.any_some, decide_eq_true_eq]
    omega
  unfold confirmed
  dsimp only
  rw [hvalue, hurl, hheaders, hnoted.status, hnoted.url, hnoted.headers, header_location, toNumber,
    if_neg fun h => hnotLanded h.1, hsigned, ← status_redirect]
  cases hfield : textField response.headers "location" with
  | none => simp
  | some location =>
    obtain ⟨hne, hresolved⟩ := hlocation location hfield
    have hresolve : platform.resolve (trim location) (.string s.current.href) = some target :=
      hresolved
    have hsame : documentUrl platform (.string target.href) =
        documentUrl platform (.string finalUrl) := by
      simp only [documentUrl, hreads, hfinal]
    simp only [Option.map_some, Option.getD_some, hresolve, Option.any_some, hsame, decide_true,
      and_true, true_and, ne_eq, hne, not_false_eq_true, Option.some.injEq, exists_eq']
    split_ifs with hall
    · simp [hall]
    · simp [hall]

end Noted

/-! ## The theorem -/

/-- The chain begins at the tracking URL. -/
theorem sound_first (hplatform : platform.Rereads) {publicSeed : Bool}
    (h : firstHop platform isIP cfg publicSeed = some s) : s.Sound platform := by
  unfold firstHop at h
  split at h
  · cases h
  · rename_i url hurl
    split at h
    · obtain rfl := Option.some.inj h
      unfold publicHttpUrl at hurl
      split at hurl
      · cases hurl
      · rename_i url' hparsed
        dsimp only at hurl
        split at hurl
        · cases hurl
        · rename_i hbad
          obtain rfl := Option.some.inj hurl
          have hweb : url'.isWeb = true := not_not.mp fun hno => hbad (Or.inl hno)
          exact ⟨hplatform.parsed _ _ hparsed hweb, by simp, by simp, by simp⟩
    · cases h

/-- **Captures of the preflight, kept or discarded**: when the verdict is none that refuses, the
validator accepts the event of a capture, with its landing URL, exactly when the last hop leaves
nothing to refuse. -/
theorem captures_kept_iff (platform : Platform) (hplatform : platform.Rereads)
    (isIP : String → Nat) (cfg : PreflightConfig) (publicSeed : Bool) (inputs : List HopInput)
    (notes : JourneyNotes) (hverdict : jsLower notes.verdict.final ∉ refusedVerdicts)
    (result : RedirectFirstResult)
    (h : resolveRedirectFirst platform isIP cfg publicSeed inputs = some (.returned result))
    (hcaptured : result.outcome = .captured) :
    (∃ finalUrl suffix shown, result.finalUrl = some finalUrl ∧
      evaluateCaptureResult platform (lightweightEvent notes result).toValue none =
        .accepted finalUrl suffix shown) ↔
      ∃ start s input response, firstHop platform isIP cfg publicSeed = some start ∧
        lastHop platform isIP cfg start inputs = some (s, input) ∧
        input.answer = .response response ∧ Keepable platform s.current response := by
  unfold resolveRedirectFirst at h
  split at h
  · cases h
    cases hcaptured
  rename_i start hstart
  obtain ⟨s, input, hlast, hs, hstep⟩ := sound_last hplatform (sound_first hplatform hstart) h
  obtain ⟨response, finalUrl, hanswer, hstop, hevents, hfinal, hquery, hways⟩ :=
    followHop_captured hstep hcaptured
  obtain ⟨last, hnotedEvents, hreply⟩ := lightweight_events notes hevents rfl
  have hnoted : Noted s response last :=
    ⟨hreply.url, hreply.status, hreply.headers, hreply.capturePath⟩
  have hmain : ∀ item ∈ (lightweightEvent notes result).events, item.isMainDocument = true := by
    rw [hnotedEvents]
    intro item hitem
    rcases List.mem_append.mp hitem with hitem | hitem
    · exact hs.main item hitem
    · obtain rfl := List.mem_singleton.mp hitem
      unfold RawRequestRecord.isMainDocument
      rw [hreply.mainDocument]
      rfl
  have hpassed : ∀ item ∈ (lightweightEvent notes result).events,
      edgeStopForResponse platform (.object item.fields) = none := by
    rw [hnotedEvents]
    intro item hitem
    rcases List.mem_append.mp hitem with hitem | hitem
    · exact hs.passed item hitem
    · obtain rfl := List.mem_singleton.mp hitem
      rw [edgeStop_reply hreply]
      exact hstop
  have hfinalVerdict : jsLower (lightweightEvent notes result).finalVerdict ∉ refusedVerdicts := by
    have hne : result.events ≠ [] := by simp [hevents]
    simpa only [lightweightEvent, if_neg hne] using hverdict
  have haccepted := chain_accepted_iff rfl rfl rfl hfinalVerdict hfinal hnotedEvents hmain hpassed
    hnoted.capturePath
  have hkept : (∃ suffix shown, evaluateCaptureResult platform
        (lightweightEvent notes result).toValue none = .accepted finalUrl suffix shown) ↔
      Keepable platform s.current response := by
    rw [haccepted]
    rcases hways with ⟨hstatus, target, hresolved⟩ | ⟨hstatus, redirect, hredirect, rfl⟩
    · obtain ⟨-, hparsed, -, hreads, htext⟩ := resolveLocation_spec hplatform hresolved
      have hissue := captureUrlIssue_congr (htext.trans hreads.symm)
      have hlocation : ∀ location, textField response.headers "location" = some location →
          trim location ≠ "" ∧ platform.parseFrom (trim location) s.current.href = some target := by
        intro location hfield
        have hvalue : response.location = some location := by
          unfold HopResponse.location
          rw [hfield]
        rw [hvalue, Option.getD_some] at hresolved
        obtain ⟨hne, hparsed, -⟩ := resolveLocation_spec hplatform hresolved
        exact ⟨hne, hparsed⟩
      rw [confirmed_redirect_iff hnoted hstatus htext hreads hlocation, hissue]
      constructor
      · rintro ⟨htarget, -, hcode, ⟨location, hfield⟩, haddress⟩
        refine ⟨haddress, fun _ _ => ⟨hcode, location, hfield, fun target' htarget' => ?_⟩⟩
        rw [(hlocation location hfield).2] at htarget'
        obtain rfl := Option.some.inj htarget'
        exact htarget
      · rintro ⟨haddress, hredirect⟩
        obtain ⟨hcode, location, hfield, htarget⟩ := hredirect hstatus.1 hstatus.2
        exact ⟨htarget target (hlocation location hfield).2, suffixOf_of_query hquery, hcode,
          ⟨location, hfield⟩, haddress⟩
    · have htext := hs.landed redirect hredirect
      have hissue := captureUrlIssue_congr (htext.trans hs.reads.symm)
      rw [hissue]
      constructor
      · rintro ⟨haddress, -⟩
        exact ⟨haddress, fun hlow => absurd hstatus.2 (by omega)⟩
      · rintro ⟨haddress, -⟩
        exact ⟨haddress, suffixOf_of_query hquery, _,
          confirmed_landed hnoted hstatus hs.reads htext⟩
  constructor
  · rintro ⟨finalUrl', suffix, shown, hfinal', h⟩
    obtain rfl : finalUrl = finalUrl' := Option.some.inj (hfinal.symm.trans hfinal')
    exact ⟨start, s, input, response, hstart, hlast, hanswer, hkept.mp ⟨suffix, shown, h⟩⟩
  · rintro ⟨start', s', input', response', hstart', hlast', hanswer', hkeep⟩
    obtain rfl : start = start' := Option.some.inj (hstart.symm.trans hstart')
    obtain ⟨rfl, rfl⟩ := Prod.mk.inj (Option.some.inj (hlast.symm.trans hlast'))
    obtain rfl : response = response' := HopAnswer.response.inj (hanswer.symm.trans hanswer')
    obtain ⟨suffix, shown, h⟩ := hkept.mpr hkeep
    exact ⟨finalUrl, suffix, shown, hfinal, h⟩

section Sample

theorem trackerPlatform_rereads : trackerPlatform.Rereads := by
  have hread (raw : String) (url : Url) (h : trackerPlatform.read raw = some url) :
      trackerPlatform.read url.href = some url := by
    unfold trackerPlatform.read at h
    split at h
    · obtain rfl := Option.some.inj h
      decide +kernel
    · split at h
      · obtain rfl := Option.some.inj h
        decide +kernel
      · cases h
  exact ⟨fun raw url h _ => hread raw url h, fun raw _ url h _ => hread raw url h,
    fun _ _ _ _ h => h⟩

/-- A preflight of the tracker. -/
def trackerPreflight : PreflightConfig := { seedUrl := "https://tracker.example/start" }

/-- A journey that no strategy suspects. -/
def quietNotes : JourneyNotes where
  verdict := { final := "unsure", reason := "fixture", strategies := "[]" }
  proxyMode := "sticky-residential"

/-- The tracker redirects to the shop by a header. -/
def redirectBy (name value : String) (h : jsLower name = name) : HopInput where
  answer := .response {
    status := 302, headers := [(name, value)]
    lower := fun header hheader => by rwa [List.mem_singleton.mp hheader] }

/-- What the preflight makes of the redirect. -/
def redirectResult (name value : String) : RedirectFirstResult where
  outcome := .captured
  reason := "external_redirect_query_captured"
  finalUrl := some "https://shop.example/?irclickid=7"
  events := [{
    url := "https://tracker.example/start", method := "GET", status := .finite 302
    timeMs := .finite 0, headers := [(name, value)]
    taSignal := [("main_document", "true"), ("body_capture_state", "unavailable"),
      ("capture_path", "redirect-first"), ("redirect_hop", "0"),
      ("redirect_to", "https://shop.example/?irclickid=7")] }]
  redirects := [⟨"https://tracker.example/start", "https://shop.example/?irclickid=7", 302⟩]

theorem captures_kept_iff_location :
    (∃ finalUrl suffix shown,
      (redirectResult "location" "https://shop.example/?irclickid=7").finalUrl = some finalUrl ∧
        evaluateCaptureResult trackerPlatform
          (lightweightEvent quietNotes
            (redirectResult "location" "https://shop.example/?irclickid=7")).toValue none =
            .accepted finalUrl suffix shown) ↔
      ∃ start s input response,
        firstHop trackerPlatform (fun _ => 0) trackerPreflight true = some start ∧
        lastHop trackerPlatform (fun _ => 0) trackerPreflight start
            [redirectBy "location" "https://shop.example/?irclickid=7" (by decide +kernel)] =
          some (s, input) ∧
        input.answer = .response response ∧ Keepable trackerPlatform s.current response :=
  captures_kept_iff trackerPlatform trackerPlatform_rereads (fun _ => 0) trackerPreflight true _
    quietNotes (by decide +kernel) _ (by decide +kernel) rfl

/-- **A `Refresh` redirect is captured, and the validator then discards the capture.** -/
theorem refresh_discarded :
    resolveRedirectFirst trackerPlatform (fun _ => 0) trackerPreflight true
        [redirectBy "refresh" "0; url=https://shop.example/?irclickid=7" (by decide +kernel)] =
      some (.returned
        (redirectResult "refresh" "0; url=https://shop.example/?irclickid=7")) ∧
    evaluateCaptureResult trackerPlatform
        (lightweightEvent quietNotes
          (redirectResult "refresh" "0; url=https://shop.example/?irclickid=7")).toValue none =
      .rejected {
        code := "unverified_destination"
        message := "A successful destination response or verified redirect is required before " ++
          "capture"
        diagnostics := { hostname := some "tracker.example", httpStatus := some 302 } } := by
  constructor
  · decide +kernel
  · decide +kernel

end Sample

end LinkSuffix
