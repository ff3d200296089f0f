import LinkSuffix.Contracts.CaptureSafety

/-!
# What an accepted capture has shown

* `Unrefused`, `Undisturbed`, `Shown`: what every main document, the result as a whole and the last
  main document of an accepted result satisfy.
* **`accepted_sound`**: acceptance is sound, whatever the result and the policy option are.
-/

namespace LinkSuffix

open Lib

section Acceptance

variable (platform : Platform)

/-- A web URL of a challenge page, or with a challenge parameter. -/
def IsChallengeUrl (raw : JsValue) : Prop :=
  ∃ text url, raw = .string text ∧ platform.parse text = some url ∧ url.isWeb = true ∧
    (isChallengePath url.pathname = true ∨
      ∃ field ∈ searchParams (String.ofList (url.search.toList.drop 1)),
        isChallengeKey field.1 = true)

/-- A main document that neither refuses nor challenges the journey. -/
structure Unrefused (doc : JsValue) : Prop where
  allowed : (doc.get "status").toNumber ≠ .finite 403
  unlimited : (doc.get "status").toNumber ≠ .finite 429
  unmitigated : jsLower (header (doc.get "headers") "cf-mitigated") ≠ "challenge"
  page : ¬IsChallengeUrl platform (doc.get "url")
  target : ∀ target, header (doc.get "headers") "location" ≠ "" →
    platform.resolve (header (doc.get "headers") "location") (doc.get "url") = some target →
      ¬IsChallengeUrl platform (.string target.href)

/-- A result without an error, a refusing verdict or an open challenge. -/
structure Undisturbed (result : JsValue) : Prop where
  error : (result.get "error").truthy = false
  verdict : jsLower (result.get "final_verdict").toText ∉ refusedVerdicts
  challenge : ((result.get "challenge").get "status").truthy = false ∨
    ((result.get "challenge").get "status").isText "resolved" = true

/-- The two URLs are the same up to the fragment. -/
def SameDocument (raw raw' : JsValue) : Prop :=
  ∃ document, documentUrl platform raw = some document ∧ documentUrl platform raw' = some document

/-- The evidence that the last main document gives for the final URL. -/
inductive Shown (policy : JsValue) (docs : List JsValue) (main : JsValue) (finalUrl : String) :
    Evidence → Prop
  | document {status : Int} (hstatus : (main.get "status").toNumber.integer = some status)
      (hok : 200 ≤ status ∧ status < 300)
      (hsame : SameDocument platform (main.get "url") (.string finalUrl)) :
      Shown policy docs main finalUrl .documentResponse
  | redirect {target : Url} (hfirst : (signal main "capture_path").isText "redirect-first" = true)
      (hstatus : isRedirectStatus (main.get "status").toNumber = true)
      (hlocation : platform.resolve (header (main.get "headers") "location") (main.get "url") =
        some target)
      (hsame : SameDocument platform (.string target.href) (.string finalUrl)) :
      Shown policy docs main finalUrl .redirectLocation
  | approved {approved : RedirectCapturePolicy} {source target : Url} {name identifier : String}
      (hpolicy : parseRedirectCapturePolicy platform.toUrlParser policy none = .ok (some approved))
      (hvalid : ValidPolicy platform.toUrlParser approved)
      (hdocs : ∀ doc ∈ docs, ∃ text url, doc.get "url" = .string text ∧
        platform.parse text = some url ∧ url.origin ∈ approved.navigationOrigins)
      (hsource : platform.parseValue (main.get "url") = some source)
      (hissuer : source.origin = approved.issuerOrigin)
      (hstatus : isRedirectStatus (main.get "status").toNumber = true)
      (hlocation : (main.get "headers").record.find? (fun entry => jsLower entry.1 = "location") =
        some (name, .string finalUrl))
      (htarget : platform.parse finalUrl = some target)
      (hdestination : target.origin = approved.destinationOrigin)
      (hidentifier : (searchParams target.search).filter (fun field =>
        field.1 = approved.requiredParameter.toText) =
          [(approved.requiredParameter.toText, identifier)])
      (hnonblank : trim identifier ≠ "") :
      Shown policy docs main finalUrl .redirectOnly

variable {platform}

/-! ## Challenges -/

/-- The issue of a suffix names Cloudflare exactly when a field is a challenge parameter. -/
theorem namesCloudflare_suffixIssueLoop {incomplete : Option String}
    {fields : List (String × String)} (h : ∃ field ∈ fields, isChallengeKey field.1 = true) :
    namesCloudflare (suffixIssueLoop incomplete fields) = true := by
  induction fields generalizing incomplete with
  | nil => simp at h
  | cons field fields ih =>
    obtain ⟨key, value⟩ := field
    unfold suffixIssueLoop
    by_cases hkey : isChallengeKey key = true
    · rw [if_pos hkey]
      decide +kernel
    · rw [if_neg hkey]
      refine ih ?_
      obtain ⟨field, hfield, hchallenge⟩ := h
      rcases List.mem_cons.mp hfield with rfl | hfield
      · exact absurd hchallenge hkey
      · exact ⟨field, hfield, hchallenge⟩

theorem namesCloudflare_of_challenge {raw : JsValue} (h : IsChallengeUrl platform raw) :
    namesCloudflare (captureUrlIssue platform raw) = true := by
  obtain ⟨text, url, rfl, hurl, hweb, hchallenge⟩ := h
  unfold captureUrlIssue
  simp only [hurl, hweb, not_true_eq_false, if_false]
  split
  · decide +kernel
  · rename_i hpath
    rcases hchallenge with hpath' | hfield
    · exact absurd hpath' hpath
    · exact namesCloudflare_suffixIssueLoop hfield

/-- A response that does not stop the journey is unrefused. -/
theorem unrefused_of_passed {doc : JsValue} (h : edgeStopForResponse platform doc = none) :
    Unrefused platform doc := by
  unfold edgeStopForResponse at h
  simp only [ite_eq_left_iff, reduceCtorEq, imp_false, not_not] at h
  obtain ⟨hcloudflare, hforbidden, hlimited⟩ := h
  unfold isCloudflare at hcloudflare
  simp only [Bool.or_eq_true, decide_eq_true_eq, not_or] at hcloudflare
  obtain ⟨⟨hpage, hredirect⟩, hmitigated⟩ := hcloudflare
  refine ⟨hforbidden, hlimited, hmitigated, fun hchallenge =>
    hpage (namesCloudflare_of_challenge hchallenge), fun target hlocation htarget hchallenge => ?_⟩
  refine hredirect ?_
  unfold redirectsToChallenge
  simp only [hlocation, htarget, ne_eq, not_false_eq_true, decide_true, Bool.true_and,
    Option.any_some]
  exact namesCloudflare_of_challenge hchallenge

/-! ## The result -/

theorem undisturbed_of_unrefused {result : JsValue} {main : Option JsValue}
    (h : refusal platform result main = none) :
    Undisturbed result ∧ captureUrlIssue platform (result.get "final_landing_url") = none := by
  unfold refusal at h
  dsimp only at h
  cases hissue : captureUrlIssue platform (result.get "final_landing_url") with
  | some issue =>
    rw [hissue] at h
    dsimp only at h
    split at h <;> cases h
  | none =>
    rw [hissue] at h
    simp only [Option.any_none, Bool.false_eq_true, not_false_eq_true, and_true] at h
    split_ifs at h with hfailed hmitigated hchallenge hverdict
    refine ⟨⟨Bool.eq_false_of_not_eq_true hfailed, hverdict, ?_⟩, rfl⟩
    by_cases hstatus : ((result.get "challenge").get "status").truthy = true
    · exact Or.inr (not_not.mp fun hresolved => hchallenge ⟨hstatus, hresolved⟩)
    · exact Or.inl (Bool.eq_false_of_not_eq_true hstatus)

/-- A landing URL without an issue is the text of a web URL. -/
theorem landing_of_noIssue {raw : JsValue} (h : captureUrlIssue platform raw = none) :
    ∃ text url, raw = .string text ∧ platform.parse text = some url ∧ url.isWeb = true ∧
      isChallengePath url.pathname = false ∧
      deliverySuffixIssue (String.ofList (url.search.toList.drop 1)) = none := by
  unfold captureUrlIssue at h
  cases raw with
  | string text =>
    dsimp only at h
    cases hurl : platform.parse text with
    | none =>
      rw [hurl] at h
      cases h
    | some url =>
      rw [hurl] at h
      dsimp only at h
      split_ifs at h with hweb hpath
      exact ⟨text, url, rfl, hurl, hweb, Bool.eq_false_of_not_eq_true hpath, h⟩
  | undefined => cases h
  | null => cases h
  | bool value => cases h
  | number value => cases h
  | array items => cases h
  | object fields => cases h

/-! ## Evidence -/

theorem sameDocument_of_eq {raw : JsValue} {finalUrl : String} {url : Url}
    (hurl : platform.parse finalUrl = some url)
    (h : documentUrl platform raw = documentUrl platform (.string finalUrl)) :
    SameDocument platform raw (.string finalUrl) := by
  have hfinal : documentUrl platform (.string finalUrl) = some url.withoutHash := by
    simp [documentUrl, hurl]
  exact ⟨url.withoutHash, h.trans hfinal, hfinal⟩

/-- What `confirmed` has checked. -/
theorem shown_of_confirmed {policy main : JsValue} {docs : List JsValue} {finalUrl : String}
    {url : Url} {evidence : Evidence} (hurl : platform.parse finalUrl = some url)
    (h : confirmed platform main finalUrl = .ok evidence) :
    Shown platform policy docs main finalUrl evidence := by
  unfold confirmed at h
  dsimp only at h
  split_ifs at h with hdocument hredirect
  · obtain rfl := Except.ok.inj h
    obtain ⟨hstatus, hsame⟩ := hdocument
    cases hinteger : (main.get "status").toNumber.integer with
    | none =>
      rw [hinteger] at hstatus
      cases hstatus
    | some status =>
      rw [hinteger] at hstatus
      exact .document hinteger (by simpa using hstatus) (sameDocument_of_eq hurl hsame)
  · obtain rfl := Except.ok.inj h
    obtain ⟨hfirst, hstatus, -, -, htarget⟩ := hredirect
    cases hlocation : platform.resolve (header (main.get "headers") "location")
        (main.get "url") with
    | none =>
      rw [hlocation] at htarget
      cases htarget
    | some target =>
      rw [hlocation] at htarget
      exact .redirect hfirst hstatus hlocation (sameDocument_of_eq hurl (by simpa using htarget))

/-- The loop over the main documents finds none outside the policy. -/
theorem approved_of_unapproved {policy : RedirectCapturePolicy} {docs : List JsValue}
    (h : unapproved platform policy docs = .ok false) :
    ∀ doc ∈ docs, ∃ text url, doc.get "url" = .string text ∧ platform.parse text = some url ∧
      url.origin ∈ policy.navigationOrigins := by
  induction docs with
  | nil => simp
  | cons event events ih =>
    unfold unapproved at h
    cases hurl : platform.parseValue (event.get "url") with
    | none =>
      rw [hurl] at h
      cases h
    | some url =>
      rw [hurl] at h
      dsimp only at h
      split at h
      · cases h
      · rename_i hbad
        obtain ⟨hlisted, hissue⟩ := not_or.mp hbad
        obtain ⟨text, url', htext, hurl', -⟩ :=
          landing_of_noIssue (Option.not_isSome_iff_eq_none.mp hissue)
        intro doc hdoc
        rcases List.mem_cons.mp hdoc with rfl | hdoc
        · rw [htext] at hurl
          obtain rfl : url' = url := Option.some.inj (hurl'.symm.trans hurl)
          exact ⟨text, url', htext, hurl', not_not.mp hlisted⟩
        · exact ih h doc hdoc

theorem isText_iff {value : JsValue} {text : String} :
    value.isText text = true ↔ value = .string text := by
  cases value <;> simp [JsValue.isText]

/-- What the evidence under a policy has checked. -/
theorem shown_of_redirectEvidence {policy main : JsValue} {docs : List JsValue} {finalUrl : String}
    {evidence : Evidence}
    (h : redirectEvidence platform policy docs main finalUrl = .ok (.ok evidence)) :
    Shown platform policy docs main finalUrl evidence := by
  unfold redirectEvidence at h
  obtain ⟨parsed, hparsed, h⟩ := bind_eq_ok.mp h
  cases parsed with
  | none => cases h
  | some approved =>
    dsimp only at h
    split at h
    · cases h
    · obtain ⟨outside, houtside, h⟩ := bind_eq_ok.mp h
      split at h
      · cases h
      · rename_i hinside
        obtain rfl : outside = false := Bool.eq_false_of_not_eq_true hinside
        split at h
        · cases h
        · rename_i hlocation
          obtain ⟨location, hfound, htext⟩ := (Option.any_eq_true _ _).mp (not_not.mp hlocation)
          obtain rfl := isText_iff.mp htext
          obtain ⟨hstatus, ⟨source, hsource, hissuer⟩, ⟨name, hheader⟩, -, target, htarget,
            hdestination, -⟩ := redirectLocationForPolicy_spec hfound
          have htarget' : platform.parse finalUrl = some target := htarget
          rw [htarget'] at h
          dsimp only at h
          split at h
          · rename_i identifier hidentifier
            split at h
            · cases h
            · rename_i hblank
              obtain rfl := Except.ok.inj (Except.ok.inj h)
              obtain ⟨⟨key, value⟩, hfields, rfl⟩ := List.map_eq_singleton_iff.mp hidentifier
              have hmem : (key, value) ∈ [(key, value)] := List.mem_singleton.mpr rfl
              rw [← hfields] at hmem
              obtain rfl : key = approved.requiredParameter.toText := by
                simpa using (List.mem_filter.mp hmem).2
              exact .approved hparsed (parsed_policy hparsed) (approved_of_unapproved houtside)
                hsource hissuer hstatus hheader htarget' hdestination hfields hblank
          · cases h

/-! ## The theorem -/

theorem shown_of_evidence {result : JsValue} {options : Option JsValue} {finalUrl suffix : String}
    {url : Url} {shown : Evidence} (hurl : platform.parse finalUrl = some url)
    (h : evidence platform result options finalUrl = .ok (suffix, shown)) :
    ∃ main, (documents result).getLast? = some main ∧
      Shown platform (options.getD (result.get "redirect_capture")) (documents result) main finalUrl
        shown := by
  unfold evidence at h
  split at h
  · cases h
  · split at h
    · cases h
    · split at h
      · cases h
      · rename_i main hmain
        dsimp only at h
        refine ⟨main, hmain, ?_⟩
        split at h
        · unfold redirectOnly at h
          split at h
          · rename_i evaluation hevaluation
            cases evaluation with
            | error reason => cases h
            | ok found =>
              obtain rfl := (Prod.mk.inj (Except.ok.inj h)).2
              exact shown_of_redirectEvidence hevaluation
          · cases h
        · cases hconfirmed : confirmed platform main finalUrl with
          | error reason =>
            rw [hconfirmed] at h
            cases h
          | ok found =>
            rw [hconfirmed] at h
            obtain rfl := (Prod.mk.inj (Except.ok.inj h)).2
            exact shown_of_confirmed hurl hconfirmed

/-- What an acceptance has passed. -/
theorem accepted_spec {result : JsValue} {options : Option JsValue} {finalUrl suffix : String}
    {shown : Evidence}
    (h : evaluateCaptureResult platform result options = .accepted finalUrl suffix shown) :
    (documents result).findSome? (edgeStopForResponse platform) = none ∧
      refusal platform result (documents result).getLast? = none ∧
      result.get "final_landing_url" = .string finalUrl ∧
      evidence platform result options finalUrl = .ok (suffix, shown) := by
  unfold evaluateCaptureResult at h
  split at h
  · cases h
  · rename_i hpassed
    dsimp only at h
    split at h
    · cases h
    · cases h
    · rename_i finalUrl' hrefusal hfinal
      split at h
      · cases h
      · rename_i suffix' shown' hevidence
        cases h
        refine ⟨hpassed, hrefusal, ?_, hevidence⟩
        cases hvalue : result.get "final_landing_url" with
        | string text =>
          rw [hvalue] at hfinal
          rw [Option.some.inj hfinal]
        | undefined => rw [hvalue] at hfinal; cases hfinal
        | null => rw [hvalue] at hfinal; cases hfinal
        | bool value => rw [hvalue] at hfinal; cases hfinal
        | number value => rw [hvalue] at hfinal; cases hfinal
        | array items => rw [hvalue] at hfinal; cases hfinal
        | object fields => rw [hvalue] at hfinal; cases hfinal

/-- **Acceptance is sound**: no main document of an accepted result refused or challenged the
journey, the result has no error, no refusing verdict and no open challenge, and its last main
document shows the final URL. -/
theorem accepted_sound (platform : Platform) (result : JsValue) (options : Option JsValue)
    (finalUrl suffix : String) (shown : Evidence)
    (h : evaluateCaptureResult platform result options = .accepted finalUrl suffix shown) :
    (∀ doc ∈ documents result, Unrefused platform doc) ∧ Undisturbed result ∧
      ∃ main, (documents result).getLast? = some main ∧
        Shown platform (options.getD (result.get "redirect_capture")) (documents result) main finalUrl
          shown := by
  obtain ⟨hpassed, hrefusal, hfinal, hevidence⟩ := accepted_spec h
  obtain ⟨hundisturbed, hissue⟩ := undisturbed_of_unrefused hrefusal
  rw [hfinal] at hissue
  obtain ⟨text, url, htext, hurl, -⟩ := landing_of_noIssue hissue
  obtain rfl : finalUrl = text := JsValue.string.inj htext
  refine ⟨fun doc hdoc => ?_, hundisturbed, shown_of_evidence hurl hevidence⟩
  exact unrefused_of_passed (List.findSome?_eq_none_iff.mp hpassed doc hdoc)

section Sample

/-- The parser on the two URLs of a small journey. -/
def samplePlatform : Platform where
  parse raw :=
    if raw = "https://shop.example/item?irclickid=7#top" then
      some {
        href := raw, withoutHash := "https://shop.example/item?irclickid=7"
        origin := "https://shop.example", protocol := "https:", hostname := "shop.example"
        pathname := "/item", search := "?irclickid=7" }
    else none
  parseFrom _ _ := none
  now := 0
  dateParse _ := .nan

/-- A journey that ends on the page it captured. -/
def sampleResult : JsValue := .object [
  ("final_landing_url", .string "https://shop.example/item?irclickid=7#top"),
  ("final_verdict", .string "unsure"),
  ("events", .array [.object [
    ("url", .string "https://shop.example/item?irclickid=7#top"), ("status", .ofNat 200),
    ("headers", .object [("Content-Type", .string "text/html")]),
    ("ta_signal", .object [("main_document", .string "true")])]])]

theorem accepted_sound_sample :
    (∀ doc ∈ documents sampleResult, Unrefused samplePlatform doc) ∧ Undisturbed sampleResult ∧
      ∃ main, (documents sampleResult).getLast? = some main ∧
        Shown samplePlatform (.undefined) (documents sampleResult) main
          "https://shop.example/item?irclickid=7#top" .documentResponse :=
  accepted_sound samplePlatform sampleResult none _ "irclickid=7" _ (by decide +kernel)

end Sample

end Acceptance

end LinkSuffix
