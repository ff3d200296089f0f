import Mathlib.Data.List.Find
import LinkSuffix.Contracts.Notes
import LinkSuffix.Contracts.Reading

/-!
# The capture a worker sends to the control server

`buildCapturePayload` (`runner.ts`) compacts an accepted event for the channel to the control
server, which reads it from JSON and judges it again under the policy of the run
(`persistL4Capture`).

* `buildCapturePayload`: the payload, or the message thrown for an event that is not accepted.
* **`worker_control_agree`**: the control server accepts what the worker accepted, with the same
  landing URL, suffix and evidence.
-/

namespace LinkSuffix

open JsValue

/-! ## The payload -/

/-- The headers of a main document that a run under a policy keeps. -/
def policyHeaders : List String := ["cf-mitigated", "cf-ray", "retry-after", "location"]

/-- The headers that any other run keeps. -/
def mainHeaders : List String := ["cf-mitigated", "location"]

/-- A main document of a run under a policy. -/
def redirectRecord (item : RawRequestRecord) : JsValue :=
  .object (spread item.fields [
    ("body_snippet", .undefined),
    ("headers", ofStrings (item.headers.filter fun header => jsLower header.1 ∈ policyHeaders)),
    ("ta_signal", ofStrings [
      ("main_document", "true"),
      ("capture_path", (textField item.taSignal "capture_path").getD ""),
      ("destination_visited", (textField item.taSignal "destination_visited").getD ""),
      ("egress_guard", (textField item.taSignal "egress_guard").getD "")])])

/-- The headers of the last main document, under lower-case names. -/
def compactHeaders (headers : List (String × String)) : List (String × String) :=
  headers.foldl (fun kept header =>
    if jsLower header.1 ∈ mainHeaders then setText kept (jsLower header.1) header.2 else kept) []

/-- The last main document of a run without a policy. -/
def mainRecord (item : RawRequestRecord) : JsValue :=
  .object [
    ("url", .string item.url), ("method", .string item.method), ("status", .number item.status),
    ("time_ms", .number item.timeMs), ("headers", ofStrings (compactHeaders item.headers)),
    ("ta_signal", ofStrings [
      ("main_document", "true"),
      ("capture_path", (textField item.taSignal "capture_path").getD "")])]

/-- The events of a payload. -/
def payloadEvents (event : RequestEvent) : List JsValue :=
  match event.redirectCapture with
  | some _ => (event.events.filter (·.isMainDocument)).map redirectRecord
  | none =>
    match event.events.reverse.find? (·.isMainDocument) with
    | some main => [mainRecord main]
    | none => []

/-- The fields of a payload. -/
def payloadFields (event : RequestEvent) (finalUrl : String) : List (String × JsValue) :=
  [("final_landing_url", .string finalUrl), ("final_verdict", .string event.finalVerdict),
    ("challenge", event.challengeValue), ("error", ofOption event.error)] ++
  (match event.redirectCapture with
    | some policy => [("redirect_capture", .object policy)]
    | none => []) ++
  [("events", .array (payloadEvents event)), ("session_id", ofOption event.sessionId),
    ("repeat_index", .number event.repeatIndex), ("geo_resolved", event.geoResolved),
    ("proxy_mode", .string event.proxyMode)]

/-- `buildCapturePayload`. -/
def buildCapturePayload (platform : Platform) (event : RequestEvent) : Except String JsValue :=
  match evaluateCaptureResult platform event.toValue none with
  | .rejected rejection => .error rejection.message
  | .accepted finalUrl _ _ => .ok (.object (payloadFields event finalUrl))

/-! ## Headers -/

theorem headerValue_ofStrings (headers : List (String × String)) (name : String) :
    headerValue (ofStrings headers) name =
      (headers.find? fun header => jsLower header.1 = name).map fun header => .string header.2 := by
  unfold headerValue ofStrings record
  rw [List.find?_map, Option.map_map]
  rfl

/-- Headers that are kept read as before. -/
theorem headerValue_filter {names : List String} {name : String} (hname : name ∈ names)
    (headers : List (String × String)) :
    headerValue (ofStrings (headers.filter fun header => jsLower header.1 ∈ names)) name =
      headerValue (ofStrings headers) name := by
  rw [headerValue_ofStrings, headerValue_ofStrings, List.find?_filter]
  congr 2
  funext header
  by_cases h : jsLower header.1 = name
  · simp [h, hname]
  · simp [h]

theorem jsLower_of_main {name : String} (h : jsLower name ∈ mainHeaders) :
    jsLower (jsLower name) = jsLower name := by
  simp only [mainHeaders, List.mem_cons, List.not_mem_nil, or_false] at h
  rcases h with h | h
  · rw [h]
    decide +kernel
  · rw [h]
    decide +kernel

/-- Without names that differ in case only, no header takes the place of another. -/
theorem compactHeaders_eq {headers : List (String × String)}
    (h : (headers.map fun header => jsLower header.1).Nodup) :
    compactHeaders headers = (headers.filter fun header => jsLower header.1 ∈ mainHeaders).map
      fun header => (jsLower header.1, header.2) := by
  have hfold (kept : List (String × String))
      (hkept : ∀ header ∈ headers, jsLower header.1 ∉ kept.map (·.1)) :
      headers.foldl (fun kept header => if jsLower header.1 ∈ mainHeaders
        then setText kept (jsLower header.1) header.2 else kept) kept =
      kept ++ (headers.filter fun header => jsLower header.1 ∈ mainHeaders).map
        fun header => (jsLower header.1, header.2) := by
    induction headers generalizing kept with
    | nil => simp
    | cons header headers ih =>
      obtain ⟨hmem, hrest⟩ := List.nodup_cons.mp h
      rw [List.foldl_cons]
      by_cases hmain : jsLower header.1 ∈ mainHeaders
      · have hset : setText kept (jsLower header.1) header.2 =
            kept ++ [(jsLower header.1, header.2)] := by
          unfold setText
          rw [if_neg (hkept header List.mem_cons_self)]
        rw [if_pos hmain, hset, ih hrest, List.filter_cons_of_pos (by simpa using hmain),
          List.map_cons, List.append_assoc, List.singleton_append]
        intro other hother
        rw [List.map_append, List.mem_append, not_or]
        refine ⟨hkept other (List.mem_cons_of_mem _ hother), ?_⟩
        rw [List.map_singleton, List.mem_singleton]
        intro heq
        have hmem' : jsLower other.1 ∈ headers.map fun header => jsLower header.1 :=
          List.mem_map_of_mem hother
        rw [heq] at hmem'
        exact hmem hmem'
      · rw [if_neg hmain, ih hrest kept fun other hother =>
          hkept other (List.mem_cons_of_mem _ hother), List.filter_cons_of_neg (by simpa using hmain)]
  unfold compactHeaders
  rw [hfold [] (by simp), List.nil_append]

theorem headerValue_compact {headers : List (String × String)}
    (h : (headers.map fun header => jsLower header.1).Nodup) {name : String}
    (hname : name ∈ mainHeaders) : headerValue (ofStrings (compactHeaders headers)) name =
      headerValue (ofStrings headers) name := by
  have hpred : ((fun header : String × String => decide (jsLower header.1 = name)) ∘
      fun header : String × String => (jsLower header.1, header.2)) =
        fun header : String × String => decide (jsLower (jsLower header.1) = name) := by
    funext header
    rw [Function.comp_apply]
  have hfound : (headers.filter fun header => jsLower header.1 ∈ mainHeaders).find?
      (fun header => decide (jsLower (jsLower header.1) = name)) =
      (headers.filter fun header => jsLower header.1 ∈ mainHeaders).find?
        fun header => decide (jsLower header.1 = name) := by
    refine List.find?_congr fun header hheader => ?_
    have hmain : jsLower header.1 ∈ mainHeaders :=
      of_decide_eq_true (List.mem_filter.mp hheader).2
    rw [jsLower_of_main hmain]
  rw [compactHeaders_eq h, ← headerValue_filter hname headers, headerValue_ofStrings,
    headerValue_ofStrings, List.find?_map, Option.map_map, hpred, hfound]
  rfl

/-! ## Documents -/

/-- A text that is missing reads as an empty one, but against an empty one. -/
theorem isText_getD (value : Option String) {text : String} (h : text ≠ "") :
    (ofOption (some (value.getD ""))).isText text = (ofOption value).isText text := by
  rw [isText_ofOption, isText_ofOption]
  cases value with
  | none => simp [Ne.symm h]
  | some value => rfl

theorem toNumber_json (status : JsNumber) :
    (json (.number status)).toNumber = carriedStatus status := by
  unfold json carriedStatus
  by_cases h : status.isFinite = true
  · rw [if_pos h, if_pos h]
    rfl
  · rw [if_neg h, if_neg h]
    rfl

/-- A record that keeps the URL, the status, two headers and the path reads as the original. -/
theorem sameReading_json {item : RawRequestRecord} {fields : List (String × JsValue)}
    {headers signals : List (String × String)} (hnodup : (fields.map (·.1)).Nodup)
    (hurl : lookup fields "url" = .string item.url)
    (hstatus : lookup fields "status" = .number item.status)
    (hheaders : lookup fields "headers" = ofStrings headers)
    (hsignals : lookup fields "ta_signal" = ofStrings signals)
    (hkept : ∀ name ∈ mainHeaders,
      headerValue (ofStrings headers) name = headerValue (ofStrings item.headers) name)
    (hpath : textField signals "capture_path" =
      some ((textField item.taSignal "capture_path").getD "")) :
    SameReading (.object item.fields) (json (.object fields)) where
  url := by
    rw [get_json hnodup, hurl]
    rfl
  status := by
    rw [get_json hnodup, hstatus]
    exact toNumber_json item.status
  location := by
    rw [get_json hnodup, hheaders]
    exact (congrArg (headerValue · "location") (json_ofStrings headers)).trans
      (hkept "location" (by decide))
  mitigated := by
    rw [get_json hnodup, hheaders]
    exact (congrArg (headerValue · "cf-mitigated") (json_ofStrings headers)).trans
      (hkept "cf-mitigated" (by decide))
  capturePath path hne := by
    unfold signal
    rw [get_json hnodup, hsignals]
    have hread : (jsonField (ofStrings signals)).get "capture_path" =
        ofOption (some ((textField item.taSignal "capture_path").getD "")) := by
      rw [← hpath, ← get_ofStrings]
      exact congrArg (JsValue.get · "capture_path") (json_ofStrings signals)
    have hread' : ((JsValue.object item.fields).get "ta_signal").get "capture_path" =
        ofOption (textField item.taSignal "capture_path") :=
      get_ofStrings item.taSignal "capture_path"
    rw [hread, hread', isText_getD _ hne]

theorem mainRecord_reading {item : RawRequestRecord}
    (h : (item.headers.map fun header => jsLower header.1).Nodup) :
    SameReading (.object item.fields) (json (mainRecord item)) :=
  sameReading_json (by simp) rfl rfl rfl rfl (fun _ hname => headerValue_compact h hname) rfl

/-- The fields of a main document of a run under a policy. -/
def redirectFields (item : RawRequestRecord) : List (String × JsValue) :=
  [("url", .string item.url), ("method", .string item.method), ("status", .number item.status),
    ("time_ms", .number item.timeMs),
    ("headers", ofStrings (item.headers.filter fun header => jsLower header.1 ∈ policyHeaders)),
    ("ta_signal", ofStrings [
      ("main_document", "true"),
      ("capture_path", (textField item.taSignal "capture_path").getD ""),
      ("destination_visited", (textField item.taSignal "destination_visited").getD ""),
      ("egress_guard", (textField item.taSignal "egress_guard").getD "")]),
    ("body_snippet", .undefined)]

theorem redirectRecord_eq (item : RawRequestRecord) :
    redirectRecord item = .object (redirectFields item) := by
  simp [redirectRecord, redirectFields, spread, RawRequestRecord.fields]

theorem redirectRecord_reading (item : RawRequestRecord) :
    SameReading (.object item.fields) (json (redirectRecord item)) := by
  rw [redirectRecord_eq]
  refine sameReading_json (by simp [redirectFields]) rfl rfl rfl rfl (fun name hname => ?_) rfl
  refine headerValue_filter ?_ item.headers
  simp only [mainHeaders, List.mem_cons, List.not_mem_nil, or_false] at hname
  rcases hname with rfl | rfl <;> decide

/-- The approvals of a main document of a run under a policy. -/
theorem redirectRecord_approval (item : RawRequestRecord) {name : String}
    (hname : name ∈ ["destination_visited", "egress_guard"]) {text : String} (hne : text ≠ "") :
    (signal (json (redirectRecord item)) name).isText text =
      (signal (.object item.fields) name).isText text := by
  have hread' : signal (.object item.fields) name = ofOption (textField item.taSignal name) :=
    get_ofStrings item.taSignal name
  have hread : signal (json (redirectRecord item)) name =
      ofOption (some ((textField item.taSignal name).getD "")) := by
    unfold signal
    rw [redirectRecord_eq, get_json (by simp [redirectFields])]
    simp only [List.mem_cons, List.not_mem_nil, or_false] at hname
    rcases hname with rfl | rfl
    · exact (congrArg (JsValue.get · "destination_visited") (json_ofStrings _)).trans (get_ofStrings _ _)
    · exact (congrArg (JsValue.get · "egress_guard") (json_ofStrings _)).trans (get_ofStrings _ _)
  rw [hread, hread', isText_getD _ hne]

/-! ## The payload as the server reads it -/

theorem last_main (event : RequestEvent) :
    event.events.reverse.find? (·.isMainDocument) =
      (event.events.filter (·.isMainDocument)).getLast? := by
  rw [List.getLast?_eq_head?_reverse, ← List.filter_reverse, List.head?_filter]

variable {event : RequestEvent} {finalUrl : String}

theorem payloadFields_nodup (event : RequestEvent) (finalUrl : String) :
    ((payloadFields event finalUrl).map (·.1)).Nodup := by
  unfold payloadFields
  cases event.redirectCapture with
  | none => simp
  | some policy => simp

theorem payload_get (event : RequestEvent) (finalUrl name : String) :
    (json (.object (payloadFields event finalUrl))).get name =
      jsonField (lookup (payloadFields event finalUrl) name) :=
  get_json (payloadFields_nodup event finalUrl) name

/-- The records of a payload are all main documents. -/
theorem documents_payload (h : ∀ record ∈ payloadEvents event,
      ∃ fields signals, record = .object fields ∧ (fields.map (·.1)).Nodup ∧
        lookup fields "ta_signal" = ofStrings (("main_document", "true") :: signals)) :
    documents (json (.object (payloadFields event finalUrl))) =
      (payloadEvents event).map json := by
  have hevents : (json (.object (payloadFields event finalUrl))).get "events" =
      .array ((payloadEvents event).map json) := by
    have hlookup : lookup (payloadFields event finalUrl) "events" =
        .array (payloadEvents event) := by
      unfold payloadFields
      cases event.redirectCapture <;> simp [lookup]
    rw [payload_get, hlookup, ← jsonItems_eq_map]
    rfl
  unfold documents
  rw [hevents, items, List.map_map]
  have hmap : (payloadEvents event).map ((fun event => .object event.record) ∘ json) =
      (payloadEvents event).map json := by
    refine List.map_congr_left fun record hrecord => ?_
    obtain ⟨fields, -, rfl, -⟩ := h record hrecord
    rfl
  rw [hmap, List.filter_eq_self]
  intro doc hdoc
  obtain ⟨record, hrecord, rfl⟩ := List.mem_map.mp hdoc
  obtain ⟨fields, signals, rfl, hnodup, hsignals⟩ := h record hrecord
  rw [get_json hnodup, hsignals]
  have hread : (jsonField (ofStrings (("main_document", "true") :: signals))).get "main_document" =
      .string "true" :=
    (congrArg (JsValue.get · "main_document") (json_ofStrings _)).trans (get_ofStrings _ _)
  rw [hread]
  rfl

theorem mainRecord_main (item : RawRequestRecord) :
    ∃ fields signals, mainRecord item = .object fields ∧ (fields.map (·.1)).Nodup ∧
      lookup fields "ta_signal" = ofStrings (("main_document", "true") :: signals) :=
  ⟨_, _, rfl, by simp, rfl⟩

theorem redirectRecord_main (item : RawRequestRecord) :
    ∃ fields signals, redirectRecord item = .object fields ∧ (fields.map (·.1)).Nodup ∧
      lookup fields "ta_signal" = ofStrings (("main_document", "true") :: signals) :=
  ⟨_, _, redirectRecord_eq item, by simp [redirectFields], rfl⟩

/-! ## Agreement -/

/-- The records of a payload read as the main documents they stand for. -/
theorem payload_documents (h : event.DistinctHeaders) :
    (∀ doc' ∈ (payloadEvents event).map json, ∃ doc ∈ documents event.toValue,
      SameReading doc doc') ∧
    ∀ main, (documents event.toValue).getLast? = some main →
      ∃ main', ((payloadEvents event).map json).getLast? = some main' ∧ SameReading main main' ∧
        (event.policyValue.isNullish = false →
          ∀ name ∈ ["destination_visited", "egress_guard"], ∀ text, text ≠ "" →
            (signal main' name).isText text = (signal main name).isText text) := by
  rw [documents_event]
  unfold payloadEvents RequestEvent.policyValue
  cases hpolicy : event.redirectCapture with
  | some policy =>
    dsimp only
    rw [List.map_map]
    constructor
    · intro doc' hdoc'
      obtain ⟨item, hitem, rfl⟩ := List.mem_map.mp hdoc'
      exact ⟨_, List.mem_map_of_mem hitem, redirectRecord_reading item⟩
    · intro main hmain
      rw [List.getLast?_map, Option.map_eq_some_iff] at hmain
      obtain ⟨item, hitem, rfl⟩ := hmain
      refine ⟨json (redirectRecord item), ?_, redirectRecord_reading item, ?_⟩
      · rw [List.getLast?_map, hitem]
        rfl
      · exact fun _ name hname text hne => redirectRecord_approval item hname hne
  | none =>
    dsimp only
    rw [last_main]
    cases hlast : (event.events.filter (·.isMainDocument)).getLast? with
    | none =>
      rw [List.getLast?_map, hlast]
      constructor
      · simp
      · intro main hmain
        cases hmain
    | some item =>
      have hitem := List.mem_of_getLast? hlast
      have hreading := mainRecord_reading (h item (List.mem_filter.mp hitem).1)
      constructor
      · intro doc' hdoc'
        obtain rfl := List.mem_singleton.mp hdoc'
        exact ⟨_, List.mem_map_of_mem hitem, hreading⟩
      · intro main hmain
        rw [List.getLast?_map, hlast] at hmain
        obtain rfl := Option.some.inj hmain
        exact ⟨_, rfl, hreading, fun hnone => nomatch hnone⟩

/-- The payload conveys what the validator reads of the event. -/
theorem payload_conveys (h : event.DistinctHeaders) (hfinal : event.finalLandingUrl = some finalUrl) :
    Conveys event.toValue (json (.object (payloadFields event finalUrl))) := by
  have hdocs : documents (json (.object (payloadFields event finalUrl))) =
      (payloadEvents event).map json := by
    refine documents_payload fun record hrecord => ?_
    unfold payloadEvents at hrecord
    split at hrecord
    · obtain ⟨item, -, rfl⟩ := List.mem_map.mp hrecord
      exact redirectRecord_main item
    · split at hrecord
      · obtain rfl := List.mem_singleton.mp hrecord
        exact mainRecord_main _
      · cases hrecord
  obtain ⟨hdocuments, hmain⟩ := payload_documents h
  constructor
  · rw [payload_get]
    have hurl : event.toValue.get "final_landing_url" = ofOption event.finalLandingUrl := rfl
    rw [hurl, hfinal]
    rfl
  · intro herror
    have hvalue : event.toValue.get "error" = ofOption event.error := rfl
    have hlookup : lookup (payloadFields event finalUrl) "error" = ofOption event.error := rfl
    rw [hvalue] at herror
    rw [payload_get, hlookup]
    cases herr : event.error with
    | none => rfl
    | some error =>
      rw [herr] at herror
      exact herror
  · rw [payload_get]
    rfl
  · have hvalue : event.toValue.get "challenge" = event.challengeValue := rfl
    have hlookup : lookup (payloadFields event finalUrl) "challenge" = event.challengeValue := rfl
    rw [payload_get, hvalue, hlookup]
    unfold RequestEvent.challengeValue
    cases event.challenge with
    | none => rfl
    | some challenge =>
      dsimp only [jsonField]
      rw [get_json (by simp [EventChallenge.fields])]
      rfl
  · have hvalue : event.toValue.get "redirect_capture" = event.policyValue := rfl
    rw [payload_get, hvalue]
    unfold payloadFields RequestEvent.policyValue
    cases event.redirectCapture with
    | none => simp [lookup, jsonField, isNullish]
    | some policy => simp [lookup, jsonField, json, isNullish]
  · rw [hdocs]
    exact hdocuments
  · rw [hdocs]
    exact hmain

/-- **Worker and control server agree on captures**: what the validator of the worker accepts, a
validator under the same policy accepts in the JSON of the payload, at any later time, with the same
landing URL, suffix and evidence. -/
theorem worker_control_agree (platform : Platform) (now : Int) (event : RequestEvent)
    (hdistinct : event.DistinctHeaders) (finalUrl suffix : String) (shown : Evidence)
    (h : evaluateCaptureResult platform event.toValue none = .accepted finalUrl suffix shown) :
    ∃ payload, buildCapturePayload platform event = .ok payload ∧
      evaluateCaptureResult (platform.at now) payload.json (some event.policyValue) =
        .accepted finalUrl suffix shown := by
  refine ⟨.object (payloadFields event finalUrl), ?_, ?_⟩
  · unfold buildCapturePayload
    rw [h]
  · have hfinal : event.finalLandingUrl = some finalUrl := by
      have hvalue : ofOption event.finalLandingUrl = .string finalUrl := (accepted_spec h).2.2.1
      cases hurl : event.finalLandingUrl with
      | none =>
        rw [hurl] at hvalue
        cases hvalue
      | some url =>
        rw [hurl] at hvalue
        exact congrArg some (JsValue.string.inj hvalue)
    exact (payload_conveys hdistinct hfinal).accepted h

section Sample

/-- The parser on the addresses of an affiliate network and a merchant. -/
def affiliatePlatform : Platform where
  parse raw :=
    if raw ∈ ["https://affiliate.example", "https://affiliate.example/click"] then
      some {
        href := "https://affiliate.example/click", withoutHash := "https://affiliate.example/click"
        origin := "https://affiliate.example", protocol := "https:"
        hostname := "affiliate.example", pathname := "/click", search := "" }
    else if raw ∈ ["https://merchant.example", "https://merchant.example/?irclickid=7"] then
      some {
        href := "https://merchant.example/?irclickid=7"
        withoutHash := "https://merchant.example/?irclickid=7"
        origin := "https://merchant.example", protocol := "https:"
        hostname := "merchant.example", pathname := "/", search := "?irclickid=7" }
    else none
  parseFrom _ _ := none
  now := 0
  dateParse _ := .nan

/-- A journey under a policy that ends on the redirect of the network. -/
def affiliateEvent : RequestEvent where
  redirectCapture := some [
    ("mode", .string "redirect_only"), ("issuer_origin", .string "https://affiliate.example"),
    ("destination_origin", .string "https://merchant.example"),
    ("required_parameter", .string "irclickid"),
    ("navigation_origins", ofTexts ["https://affiliate.example"])]
  repeatIndex := .finite 0
  proxyMode := "sticky-residential"
  finalLandingUrl := some "https://merchant.example/?irclickid=7"
  finalVerdict := "unsure"
  events := [{
    url := "https://affiliate.example/click", method := "GET", status := .finite 301
    timeMs := .finite 10
    headers := [("Location", "https://merchant.example/?irclickid=7"), ("set-cookie", "private")]
    taSignal := [("main_document", "true"), ("capture_path", "browser-redirect-only"),
      ("destination_visited", "false"), ("egress_guard", "origin_allowlist")] }]

theorem worker_control_agree_affiliate :
    ∃ payload, buildCapturePayload affiliatePlatform affiliateEvent = .ok payload ∧
      evaluateCaptureResult (affiliatePlatform.at 60) payload.json
        (some affiliateEvent.policyValue) =
          .accepted "https://merchant.example/?irclickid=7" "irclickid=7" .redirectOnly :=
  worker_control_agree affiliatePlatform 60 affiliateEvent
    (by unfold RequestEvent.DistinctHeaders; decide +kernel) _ _ _ (by decide +kernel)

end Sample

end LinkSuffix
