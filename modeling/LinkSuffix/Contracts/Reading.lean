import LinkSuffix.Contracts.Acceptance

/-!
# What the validator reads

`evaluateCaptureResult` reads a few fields of a result and of its main documents. A result that
carries those fields of an accepted one is accepted too, whatever else was dropped on the way.

* `SameReading`: two main documents that the validator cannot tell apart, but for signals.
* `Conveys`: a result that conveys what the validator read of another.
* **`Conveys.accepted`**: it is accepted with the same landing URL, suffix and evidence.
* `accepted_at`: at any time. `rejected_message`: a rejection says why.
-/

namespace LinkSuffix

open Lib

/-! ## Documents -/

/-- The first header of a name up to case, as it was sent. -/
def headerValue (headers : JsValue) (name : String) : Option JsValue :=
  (headers.record.find? fun entry => jsLower entry.1 = name).map (·.2)

/-- A status after a JSON round trip, as a number: what is no number has become `null`. -/
def carriedStatus (status : JsNumber) : JsNumber := if status.isFinite then status else .finite 0

/-- The document reads as the other does. -/
structure SameReading (doc doc' : JsValue) : Prop where
  url : doc'.get "url" = doc.get "url"
  status : (doc'.get "status").toNumber = carriedStatus (doc.get "status").toNumber
  location : headerValue (doc'.get "headers") "location" =
    headerValue (doc.get "headers") "location"
  mitigated : headerValue (doc'.get "headers") "cf-mitigated" =
    headerValue (doc.get "headers") "cf-mitigated"
  capturePath : ∀ path, path ≠ "" →
    (signal doc' "capture_path").isText path = (signal doc "capture_path").isText path

theorem header_eq (headers : JsValue) (name : String) : header headers name =
    match headerValue headers name with
    | none => ""
    | some value => trim value.toText := by
  unfold header headerValue
  cases headers.record.find? fun entry => jsLower entry.1 = name <;> rfl

theorem header_congr {headers headers' : JsValue} {name : String}
    (h : headerValue headers' name = headerValue headers name) :
    header headers' name = header headers name := by
  rw [header_eq, header_eq, h]

theorem carriedStatus_code {status : JsNumber} {code : Rat} (hcode : code ≠ 0) :
    carriedStatus status = .finite code ↔ status = .finite code := by
  unfold carriedStatus
  cases status with
  | nan => simp [JsNumber.isFinite, Ne.symm hcode]
  | infinity negative => simp [JsNumber.isFinite, Ne.symm hcode]
  | finite value => rfl

theorem carriedStatus_redirect (status : JsNumber) :
    isRedirectStatus (carriedStatus status) = isRedirectStatus status := by
  cases status with
  | nan => decide +kernel
  | infinity negative => cases negative <;> decide +kernel
  | finite value => rfl

theorem carriedStatus_success (status : JsNumber) :
    ((carriedStatus status).integer.any fun status => 200 ≤ status ∧ status < 300) =
      status.integer.any fun status => 200 ≤ status ∧ status < 300 := by
  cases status with
  | nan => decide +kernel
  | infinity negative => cases negative <;> decide +kernel
  | finite value => rfl

section Reading

variable {platform : Platform} {now : Int} {doc doc' : JsValue}

/-- The platform at another time. -/
def Platform.at (platform : Platform) (now : Int) : Platform := { platform with now := now }

/-- No check of a URL asks the clock. -/
@[simp] theorem captureUrlIssue_at (raw : JsValue) :
    captureUrlIssue (platform.at now) raw = captureUrlIssue platform raw := rfl

namespace SameReading

theorem isCloudflare (h : SameReading doc doc') :
    isCloudflare (platform.at now) doc' = LinkSuffix.isCloudflare platform doc := by
  unfold LinkSuffix.isCloudflare redirectsToChallenge
  rw [h.url, header_congr h.location, header_congr h.mitigated]
  rfl

theorem passes (h : SameReading doc doc') (hdoc : edgeStopForResponse platform doc = none) :
    edgeStopForResponse (platform.at now) doc' = none := by
  unfold edgeStopForResponse at hdoc ⊢
  dsimp only at hdoc ⊢
  rw [h.isCloudflare, h.status]
  simp only [ne_eq, carriedStatus_code (show (403 : Rat) ≠ 0 by decide),
    carriedStatus_code (show (429 : Rat) ≠ 0 by decide)] at hdoc ⊢
  split at hdoc
  · rename_i hpassed
    rw [if_pos hpassed]
  · cases hdoc

theorem confirmed (h : SameReading doc doc') (finalUrl : String) :
    confirmed (platform.at now) doc' finalUrl = LinkSuffix.confirmed platform doc finalUrl := by
  unfold LinkSuffix.confirmed
  dsimp only
  rw [h.status, carriedStatus_success, carriedStatus_redirect, h.url, header_congr h.location,
    h.capturePath _ (by decide)]
  rfl

theorem redirectLocation (h : SameReading doc doc') (P : UrlParser)
    (policy : RedirectCapturePolicy) :
    redirectLocationForPolicy P policy (doc'.get "url") (doc'.get "status").toNumber
        (doc'.get "headers").record =
      redirectLocationForPolicy P policy (doc.get "url") (doc.get "status").toNumber
        (doc.get "headers").record := by
  have hlocation := h.location
  unfold headerValue at hlocation
  unfold redirectLocationForPolicy
  rw [h.url, h.status, carriedStatus_redirect]
  cases hfound : (doc.get "headers").record.find? fun entry => jsLower entry.1 = "location" with
  | none =>
    rw [hfound, Option.map_none, Option.map_eq_none_iff] at hlocation
    rw [hlocation]
  | some entry =>
    obtain ⟨name, value⟩ := entry
    rw [hfound, Option.map_some, Option.map_eq_some_iff] at hlocation
    obtain ⟨⟨name', value'⟩, hfound', rfl⟩ := hlocation
    rw [hfound']
    cases P.parseValue (doc.get "url") with
    | none => rfl
    | some source => rfl

end SameReading

/-! ## Results -/

/-- What an acceptance is. -/
theorem accepted_iff {result : JsValue} {options : Option JsValue} {finalUrl suffix : String}
    {shown : Evidence} :
    evaluateCaptureResult platform result options = .accepted finalUrl suffix shown ↔
      (documents result).findSome? (edgeStopForResponse platform) = none ∧
        refusal platform result (documents result).getLast? = none ∧
        result.get "final_landing_url" = .string finalUrl ∧
        evidence platform result options finalUrl = .ok (suffix, shown) := by
  constructor
  · exact accepted_spec
  · rintro ⟨hpassed, hrefusal, hfinal, hevidence⟩
    unfold evaluateCaptureResult
    rw [hpassed, hfinal]
    simp only [hrefusal, JsValue.text?]
    rw [hevidence]

/-- A result that is refused by none of the checks up to the suffix. -/
theorem refusal_eq_none {result : JsValue} {main : Option JsValue} :
    refusal platform result main = none ↔ (result.get "error").truthy = false ∧
      captureUrlIssue platform (result.get "final_landing_url") = none ∧
      (main.any fun main =>
        jsLower (header (main.get "headers") "cf-mitigated") = "challenge") = false ∧
      ¬(((result.get "challenge").get "status").truthy = true ∧
        ¬((result.get "challenge").get "status").isText "resolved" = true) ∧
      jsLower (result.get "final_verdict").toText ∉ refusedVerdicts := by
  unfold refusal
  dsimp only
  cases hissue : captureUrlIssue platform (result.get "final_landing_url") with
  | some issue =>
    simp only [reduceCtorEq, false_and, and_false, iff_false]
    split <;> simp
  | none =>
    cases hfailed : (result.get "error").truthy with
    | true => simp
    | false =>
      simp only [Option.any_none, Bool.false_eq_true, false_and, if_false, true_and]
      split_ifs with hmitigated hchallenge hverdict
      · simp [hmitigated]
      · simp [hchallenge]
      · simp [hverdict]
      · simp only [Bool.eq_false_of_not_eq_true hmitigated, hchallenge, hverdict,
          not_false_eq_true, and_self]

/-- The result conveys what the validator reads of the other. -/
structure Conveys (result result' : JsValue) : Prop where
  finalUrl : result'.get "final_landing_url" = result.get "final_landing_url"
  error : (result.get "error").truthy = false → (result'.get "error").truthy = false
  verdict : (result'.get "final_verdict").toText = (result.get "final_verdict").toText
  challenge : (result'.get "challenge").get "status" = (result.get "challenge").get "status"
  policy : (result'.get "redirect_capture").isNullish = (result.get "redirect_capture").isNullish
  documents : ∀ doc' ∈ documents result', ∃ doc ∈ documents result, SameReading doc doc'
  main : ∀ main, (LinkSuffix.documents result).getLast? = some main →
    ∃ main', (LinkSuffix.documents result').getLast? = some main' ∧ SameReading main main' ∧
      ((result.get "redirect_capture").isNullish = false →
        ∀ name ∈ ["destination_visited", "egress_guard"], ∀ text, text ≠ "" →
          (signal main' name).isText text = (signal main name).isText text)

namespace Conveys

variable {result result' main main' : JsValue} {finalUrl suffix : String} {shown : Evidence}

theorem unrefused (h : Conveys result result') (hmain : SameReading main main')
    (hrefusal : refusal platform result (some main) = none) :
    refusal (platform.at now) result' (some main') = none := by
  rw [refusal_eq_none] at hrefusal ⊢
  obtain ⟨herror, hissue, hmitigated, hchallenge, hverdict⟩ := hrefusal
  rw [h.finalUrl, h.verdict, h.challenge, captureUrlIssue_at]
  refine ⟨h.error herror, hissue, ?_, hchallenge, hverdict⟩
  rwa [Option.any_some, header_congr hmain.mitigated]

/-- The loop over the documents finds none outside the policy. -/
theorem approved {policy : RedirectCapturePolicy} {docs docs' : List JsValue}
    (hdocs : ∀ doc' ∈ docs', ∃ doc ∈ docs, SameReading doc doc')
    (h : unapproved platform policy docs = .ok false) :
    unapproved (platform.at now) policy docs' = .ok false := by
  have hall : ∀ doc ∈ docs, ∃ url, platform.parseValue (doc.get "url") = some url ∧
      url.origin ∈ policy.navigationOrigins ∧
      captureUrlIssue platform (doc.get "url") = none := by
    clear hdocs
    induction docs with
    | nil => simp
    | cons doc docs ih =>
      unfold unapproved at h
      cases hurl : platform.parseValue (doc.get "url") with
      | none =>
        rw [hurl] at h
        cases h
      | some url =>
        rw [hurl] at h
        dsimp only at h
        split at h
        · cases h
        · rename_i hbad
          obtain ⟨hlisted, hissue⟩ := not_or.mp hbad
          intro other hother
          rcases List.mem_cons.mp hother with rfl | hother
          · exact ⟨url, hurl, not_not.mp hlisted, Option.not_isSome_iff_eq_none.mp hissue⟩
          · exact ih h other hother
  induction docs' with
  | nil => rfl
  | cons doc' docs' ih =>
    obtain ⟨doc, hdoc, hsame⟩ := hdocs doc' List.mem_cons_self
    obtain ⟨url, hurl, hlisted, hissue⟩ := hall doc hdoc
    have hurl' : (platform.at now).parseValue (doc'.get "url") = some url := by
      rw [hsame.url]
      exact hurl
    have hissue' : captureUrlIssue (platform.at now) (doc'.get "url") = none := by
      rw [hsame.url]
      exact hissue
    unfold unapproved
    rw [hurl']
    simp only [hlisted, hissue', not_true_eq_false, Option.isSome_none, Bool.false_eq_true,
      or_self, if_false]
    exact ih fun other hother => hdocs other (List.mem_cons_of_mem _ hother)

/-- The evidence under a policy, with the same approvals. -/
theorem redirectOnly {policy : JsValue} {docs docs' : List JsValue}
    (hdocs : ∀ doc' ∈ docs', ∃ doc ∈ docs, SameReading doc doc') (hmain : SameReading main main')
    (hsignals : ∀ name ∈ ["destination_visited", "egress_guard"], ∀ text, text ≠ "" →
      (signal main' name).isText text = (signal main name).isText text)
    (h : redirectOnly platform policy docs main finalUrl = .ok shown) :
    redirectOnly (platform.at now) policy docs' main' finalUrl = .ok shown := by
  unfold LinkSuffix.redirectOnly at h
  split at h
  · rename_i evaluation hevaluation
    subst h
    have hevaluation' : redirectEvidence (platform.at now) policy docs' main' finalUrl =
        .ok (.ok shown) := by
      unfold redirectEvidence at hevaluation ⊢
      obtain ⟨parsed, hparsed, h⟩ := bind_eq_ok.mp hevaluation
      refine bind_eq_ok.mpr ⟨parsed, hparsed, ?_⟩
      cases parsed with
      | none => cases h
      | some policy =>
        dsimp only at h ⊢
        rw [hmain.capturePath _ (by decide), hsignals "destination_visited" (by simp) _ (by decide),
          hsignals "egress_guard" (by simp) _ (by decide)]
        split at h
        · cases h
        · rename_i hsigned
          rw [if_neg hsigned]
          obtain ⟨outside, houtside, h⟩ := bind_eq_ok.mp h
          cases outside with
          | true => cases h
          | false =>
            refine bind_eq_ok.mpr ⟨false, approved hdocs houtside, ?_⟩
            rw [hmain.redirectLocation]
            exact h
    unfold LinkSuffix.redirectOnly
    rw [hevaluation']
  · cases h

/-- No policy approves nothing. -/
theorem redirectOnly_nullish {policy : JsValue} {docs : List JsValue}
    (h : policy.isNullish = true) :
    LinkSuffix.redirectOnly platform policy docs main finalUrl ≠ .ok shown := by
  cases policy with
  | undefined => exact fun h => nomatch h
  | null => exact fun h => nomatch h
  | bool value => cases h
  | number value => cases h
  | string value => cases h
  | array items => cases h
  | object fields => cases h

/-- The evidence without options, and under the same policy as an option. -/
theorem evidenced (h : Conveys result result')
    (hevidence : evidence platform result none finalUrl = .ok (suffix, shown)) :
    evidence (platform.at now) result' (some (result.get "redirect_capture")) finalUrl =
      .ok (suffix, shown) := by
  unfold evidence at hevidence ⊢
  split at hevidence
  · cases hevidence
  · rename_i text htext
    split at hevidence
    · cases hevidence
    · rename_i hne
      rw [if_neg hne]
      split at hevidence
      · cases hevidence
      · rename_i main hlast
        obtain ⟨main', hlast', hmain, hsignals⟩ := h.main main hlast
        rw [hlast']
        dsimp only at hevidence ⊢
        rw [Option.getD_some, Option.any_some, h.policy, hmain.capturePath _ (by decide)]
        rw [Option.getD_none, Option.any_none] at hevidence
        obtain ⟨shown', hshown, heq⟩ := map_eq_ok.mp hevidence
        refine map_eq_ok.mpr ⟨shown', ?_, heq⟩
        cases hpolicy : (result.get "redirect_capture").isNullish with
        | false =>
          simp only [hpolicy, Bool.false_eq_true, not_false_eq_true, decide_true, true_or, or_true,
            if_true] at hshown ⊢
          exact redirectOnly h.documents hmain (hsignals hpolicy) hshown
        | true =>
          simp only [hpolicy, not_true_eq_false, decide_false, Bool.false_eq_true, or_false]
            at hshown ⊢
          split at hshown
          · exact absurd hshown (redirectOnly_nullish hpolicy)
          · rename_i hpath
            rw [if_neg hpath, hmain.confirmed]
            exact hshown

/-- **A result that conveys what the validator read of an accepted one is accepted alike.** -/
theorem accepted (h : Conveys result result')
    (haccepted : evaluateCaptureResult platform result none = .accepted finalUrl suffix shown) :
    evaluateCaptureResult (platform.at now) result' (some (result.get "redirect_capture")) =
      .accepted finalUrl suffix shown := by
  obtain ⟨hpassed, hrefusal, hfinal, hevidence⟩ := accepted_spec haccepted
  obtain ⟨main, hlast⟩ : ∃ main, (LinkSuffix.documents result).getLast? = some main := by
    cases hlast : (LinkSuffix.documents result).getLast? with
    | some main => exact ⟨main, rfl⟩
    | none =>
      unfold evidence at hevidence
      rw [hlast] at hevidence
      split at hevidence
      · cases hevidence
      · split at hevidence <;> cases hevidence
  obtain ⟨main', hlast', hmain, -⟩ := h.main main hlast
  have hpassed' : (LinkSuffix.documents result').findSome?
      (edgeStopForResponse (platform.at now)) = none := by
    rw [List.findSome?_eq_none_iff] at hpassed ⊢
    intro doc' hdoc'
    obtain ⟨doc, hdoc, hsame⟩ := h.documents doc' hdoc'
    exact hsame.passes (hpassed doc hdoc)
  rw [hlast] at hrefusal
  unfold evaluateCaptureResult
  rw [hpassed', hlast', h.finalUrl, hfinal]
  have hevidence' : evidence (platform.at now) result' (some (result.get "redirect_capture"))
      finalUrl = .ok (suffix, shown) := h.evidenced hevidence
  simp only [h.unrefused hmain hrefusal, JsValue.text?]
  rw [hevidence']

end Conveys

/-! ## The clock -/

theorem edgeStop_at (doc : JsValue) :
    edgeStopForResponse (platform.at now) doc = none ↔ edgeStopForResponse platform doc = none := by
  unfold edgeStopForResponse
  dsimp only
  rw [show isCloudflare (platform.at now) doc = isCloudflare platform doc from rfl]
  split <;> simp

theorem unapproved_at (policy : RedirectCapturePolicy) (docs : List JsValue) :
    unapproved (platform.at now) policy docs = unapproved platform policy docs := by
  induction docs with
  | nil => rfl
  | cons doc docs ih =>
    unfold unapproved
    rw [ih]
    rfl

theorem evidence_at (result : JsValue) (options : Option JsValue) (finalUrl : String) :
    evidence (platform.at now) result options finalUrl =
      evidence platform result options finalUrl := by
  have hredirect (policy : JsValue) (docs : List JsValue) (main : JsValue) :
      redirectOnly (platform.at now) policy docs main finalUrl =
        redirectOnly platform policy docs main finalUrl := by
    unfold redirectOnly redirectEvidence
    simp only [unapproved_at]
    rfl
  unfold evidence
  simp only [hredirect]
  rfl

/-- The clock has no part in an acceptance. -/
theorem accepted_at {result : JsValue} {options : Option JsValue} {finalUrl suffix : String}
    {shown : Evidence} :
    evaluateCaptureResult (platform.at now) result options = .accepted finalUrl suffix shown ↔
      evaluateCaptureResult platform result options = .accepted finalUrl suffix shown := by
  rw [accepted_iff, accepted_iff, evidence_at]
  have hpassed : (documents result).findSome? (edgeStopForResponse (platform.at now)) = none ↔
      (documents result).findSome? (edgeStopForResponse platform) = none := by
    simp only [List.findSome?_eq_none_iff, edgeStop_at]
  rw [hpassed]
  rfl

/-- The validator reads six fields of a result. -/
theorem evaluateCaptureResult_congr {result result' : JsValue} (options : Option JsValue)
    (h : ∀ name ∈ ["final_landing_url", "events", "error", "challenge", "final_verdict",
      "redirect_capture"], result'.get name = result.get name) :
    evaluateCaptureResult platform result' options =
      evaluateCaptureResult platform result options := by
  have hfinal := h "final_landing_url" (by simp)
  have hdocuments : documents result' = documents result := by
    unfold documents
    rw [h "events" (by simp)]
  have hrefusal (main : Option JsValue) :
      refusal platform result' main = refusal platform result main := by
    unfold refusal
    rw [hfinal, h "error" (by simp), h "challenge" (by simp), h "final_verdict" (by simp)]
  have hevidence (finalUrl : String) : evidence platform result' options finalUrl =
      evidence platform result options finalUrl := by
    unfold evidence
    rw [hdocuments, h "redirect_capture" (by simp)]
  unfold evaluateCaptureResult
  simp only [hdocuments, hrefusal, hfinal, hevidence]

/-! ## Rejections -/

theorem append_ne_empty {front rest : String} (h : front ≠ "") : front ++ rest ≠ "" := by
  intro hempty
  have hlength := congrArg String.length hempty
  rw [String.length_append, String.length_empty, Nat.add_eq_zero_iff] at hlength
  exact h (String.length_eq_zero_iff.mp hlength.1)

theorem suffixIssueLoop_ne {incomplete : Option String} {fields : List (String × String)}
    {issue : String} (h : suffixIssueLoop incomplete fields = some issue) : issue ≠ "" := by
  induction fields generalizing incomplete with
  | nil =>
    obtain ⟨key, -, rfl⟩ := Option.map_eq_some_iff.mp h
    exact append_ne_empty (append_ne_empty (by decide))
  | cons field fields ih =>
    obtain ⟨key, value⟩ := field
    unfold suffixIssueLoop at h
    split at h
    · obtain rfl := Option.some.inj h
      decide
    · exact ih h

theorem captureUrlIssue_ne {raw : JsValue} {issue : String}
    (h : captureUrlIssue platform raw = some issue) : issue ≠ "" := by
  unfold captureUrlIssue at h
  split at h
  · split at h
    · obtain rfl := Option.some.inj h
      decide
    · split at h
      · obtain rfl := Option.some.inj h
        decide
      · split at h
        · obtain rfl := Option.some.inj h
          decide
        · exact suffixIssueLoop_ne h
  · obtain rfl := Option.some.inj h
    decide

theorem edgeStop_message {doc : JsValue} {stop : CaptureRejection}
    (h : edgeStopForResponse platform doc = some stop) : stop.message ≠ "" := by
  unfold edgeStopForResponse at h
  dsimp only at h
  split at h
  · cases h
  · obtain rfl := Option.some.inj h
    dsimp only
    split
    · decide
    · split <;> decide

theorem refusal_message {result : JsValue} {main : Option JsValue} {reason : String × String}
    (h : refusal platform result main = some reason) : reason.2 ≠ "" := by
  unfold refusal at h
  dsimp only at h
  split at h
  · obtain rfl := Option.some.inj h
    split <;> decide
  · split at h
    · rename_i issue hissue
      obtain rfl := Option.some.inj h
      exact captureUrlIssue_ne hissue
    · split_ifs at h with h1 h2 h3 h4
      all_goals
        obtain rfl := Option.some.inj h
        decide

theorem redirectOnly_message {policy main : JsValue} {docs : List JsValue} {finalUrl : String}
    {reason : String × String}
    (h : redirectOnly platform policy docs main finalUrl = .error reason) : reason.2 ≠ "" := by
  unfold redirectOnly at h
  split at h
  · rename_i evaluation hevaluation
    subst h
    unfold redirectEvidence at hevaluation
    obtain ⟨parsed, -, hevaluation⟩ := bind_eq_ok.mp hevaluation
    cases parsed with
    | none =>
      obtain rfl := Except.error.inj (pure_eq_ok.mp hevaluation)
      decide
    | some approved =>
      dsimp only at hevaluation
      split at hevaluation
      · obtain rfl := Except.error.inj (pure_eq_ok.mp hevaluation)
        decide
      · obtain ⟨outside, -, hevaluation⟩ := bind_eq_ok.mp hevaluation
        split at hevaluation
        · obtain rfl := Except.error.inj (pure_eq_ok.mp hevaluation)
          decide
        · split at hevaluation
          · obtain rfl := Except.error.inj (pure_eq_ok.mp hevaluation)
            decide
          · split at hevaluation
            · cases hevaluation
            · split at hevaluation
              · split at hevaluation
                · obtain rfl := Except.error.inj (pure_eq_ok.mp hevaluation)
                  decide
                · cases pure_eq_ok.mp hevaluation
              · obtain rfl := Except.error.inj (pure_eq_ok.mp hevaluation)
                decide
  · obtain rfl := Except.error.inj h
    decide

theorem confirmed_message {main : JsValue} {finalUrl : String} {reason : String × String}
    (h : confirmed platform main finalUrl = .error reason) : reason.2 ≠ "" := by
  unfold confirmed at h
  dsimp only at h
  split_ifs at h
  obtain rfl := Except.error.inj h
  decide

theorem evidence_message {result : JsValue} {options : Option JsValue} {finalUrl : String}
    {reason : String × String} (h : evidence platform result options finalUrl = .error reason) :
    reason.2 ≠ "" := by
  unfold evidence at h
  split at h
  · obtain rfl := Except.error.inj h
    decide
  · split at h
    · obtain rfl := Except.error.inj h
      decide
    · split at h
      · obtain rfl := Except.error.inj h
        decide
      · dsimp only at h
        split at h
        · cases hevaluation : redirectOnly platform (options.getD (result.get "redirect_capture"))
            (documents result) _ finalUrl with
          | error reason' =>
            rw [hevaluation] at h
            obtain rfl := Except.error.inj h
            exact redirectOnly_message hevaluation
          | ok found =>
            rw [hevaluation] at h
            cases h
        · cases hevaluation : confirmed platform _ finalUrl with
          | error reason' =>
            rw [hevaluation] at h
            obtain rfl := Except.error.inj h
            exact confirmed_message hevaluation
          | ok found =>
            rw [hevaluation] at h
            cases h

/-- A rejection says why. -/
theorem rejected_message {result : JsValue} {options : Option JsValue}
    {rejection : CaptureRejection}
    (h : evaluateCaptureResult platform result options = .rejected rejection) :
    rejection.message ≠ "" := by
  unfold evaluateCaptureResult at h
  split at h
  · rename_i stop hstop
    obtain rfl := CaptureOutcome.rejected.inj h
    obtain ⟨doc, -, hdoc⟩ := List.exists_of_findSome?_eq_some hstop
    exact edgeStop_message hdoc
  · dsimp only at h
    split at h
    · rename_i reason hreason
      obtain rfl := CaptureOutcome.rejected.inj h
      exact refusal_message hreason
    · obtain rfl := CaptureOutcome.rejected.inj h
      dsimp only
      decide
    · split at h
      · rename_i reason hreason
        obtain rfl := CaptureOutcome.rejected.inj h
        exact evidence_message hreason
      · cases h

end Reading

end LinkSuffix
