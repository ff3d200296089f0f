import LinkSuffix.Lib.Run
import LinkSuffix.Web.AdsState

/-!
# What a push of the Google Ads route reports

Captures change the suffix, and `POST /api/ads` pushes it, except where the history has a recent
success. A push that is skipped answers with the suffix of now.

* `system`: captures, tracked journeys and POSTs, with the log of the updates made.
* `Identical`: a push that is skipped finds the suffix of now pushed last.
* `Truthful`: the history holds the latest entries of the log. `truthful_next`: it still does.
* **`push_answers`**: then what a push reports was pushed. **`stale_push_reported`**: and otherwise
  it was not.
-/

namespace LinkSuffix.AdsRoute

open Lib

/-! ## Pushes -/

/-- The update an entry of the history records. -/
def entryPush (entry : JsValue) : Option Push :=
  if (entry.get "result").isText "success" then do
    let customerId ← (entry.get "customerId").text?
    let campaignId ← (entry.get "campaignId").text?
    let suffix ← (entry.get "suffix").text?
    return ⟨customerId, campaignId, suffix⟩
  else none

/-- The updates a history records. -/
def recorded (history : List JsValue) : List Push := history.filterMap entryPush

/-- What the last of some updates of a campaign carried. -/
def lastSuffixOf (pushes : List Push) (customerId campaignId : String) : Option String :=
  (pushes.reverse.find? fun push =>
    noDashes push.customerId = noDashes customerId ∧ push.campaignId = campaignId).map (·.suffix)

/-! ## Captures and POSTs -/

/-- The files, and every update made through the route. -/
structure World where
  files : Files
  log : List Push

/-- A capture of the control server, a journey stored by `/api/track` or `/api/traffic`, a POST. -/
inductive Event where
  | captured (capture : File)
  | tracked (chain : JsValue) (capturedAt suffix : String)
  | posted (post : Post)

/-- The fields of a journey. -/
def trackedFields (chain : JsValue) (capturedAt suffix : String) : List (String × JsValue) :=
  [("capturedChain", chain), ("capturedAt", .string capturedAt)] ++
    if suffix = "" then [] else [("suffix", .string suffix), ("finalQuery", .string suffix)]

/-- The state file after `handlePost` of `/api/track`, or `persistCapture` of `/api/traffic`. -/
def trackedFile (file : File) (chain : JsValue) (capturedAt suffix : String) : File :=
  match file.parsed.getD (.object []) with
  | .object fields =>
    .json (.object (JsValue.spread fields (trackedFields chain capturedAt suffix)))
  | _ => file

/-- The files after a POST. -/
def filesAfter (files : Files) (answer : Answer) : Files :=
  match answer.written with
  | some written => { files with state := .json written.file }
  | none => files

/-- The route among the writers of its files, one at a time under the `ads-state` lock. -/
def system (config : Config) : EventSystem World Event (Option Response) where
  step world event :=
    match event with
    | .captured capture => ({ world with files := { world.files with capture } }, none)
    | .tracked chain capturedAt suffix =>
      ({ world with files :=
        { world.files with state := trackedFile world.files.state chain capturedAt suffix } }, none)
    | .posted post =>
      let answer := handlePost config world.files post
      ({ files := filesAfter world.files answer, log := world.log ++ answer.updated.toList },
        answer.response)

/-! ## What is reported -/

/-- The answer says ok, with a suffix. -/
def OkWith (response : Option Response) (suffix : String) : Prop :=
  ∃ answer, response = some answer ∧ answer.body.get "ok" = .bool true ∧
    answer.body.get "suffix" = .string suffix

/-- A push of the state's campaign. -/
structure Pushes (config : Config) (files : Files) (post : Post) (state : AdsSyncState) : Prop where
  action : post.body.get "action" = .string "push_to_ads"
  reads : readState config.storage files = .ok state

/-- A push that is answered with ok was pushed. -/
def Pushed (config : Config) (world : World) (event : Event) : Prop :=
  ∀ post state suffix, event = .posted post → Pushes config world.files post state →
    OkWith ((system config).reply world event) suffix →
    lastSuffixOf ((system config).next world event).log (state.customerId.getD "")
      (state.campaignId.getD "") = some suffix

/-- A push that is skipped. -/
structure Skips (config : Config) (files : Files) (post : Post) (state : AdsSyncState)
    (suffix : String) : Prop extends Pushes config files post state where
  captured : getLatestSuffix files = .ok suffix
  nonempty : suffix ≠ ""
  campaign : hasRequiredCampaign state = true
  credentials : hasRequiredCredentials state = true
  recent : ∃ recent, latestRecentSuccessPush config.dateParse post.now state.pushHistory
    (state.customerId.getD "") (state.campaignId.getD "") = .ok (some recent)

/-- A push that is skipped finds the suffix of now in the last success of the campaign. -/
def Identical (config : Config) (world : World) (event : Event) : Prop :=
  ∀ post state suffix, event = .posted post → Skips config world.files post state suffix →
    lastSuffixOf (recorded state.pushHistory) (state.customerId.getD "")
      (state.campaignId.getD "") = some suffix

/-- The entries of the history. -/
def history (storage : Storage) (files : Files) : List JsValue :=
  match readState storage files with
  | .ok state => state.pushHistory
  | .error _ => []

/-- The history holds the latest updates of the log. -/
structure Truthful (storage : Storage) (world : World) : Prop where
  records : recorded (history storage world.files) <:+ world.log
  isJson : ∀ entry ∈ history storage world.files, entry.json = entry

/-! ## Logs -/

theorem lastSuffixOf_suffix {pushes log : List Push} (h : pushes <:+ log)
    {customerId campaignId suffix : String}
    (hlast : lastSuffixOf pushes customerId campaignId = some suffix) :
    lastSuffixOf log customerId campaignId = some suffix := by
  obtain ⟨earlier, rfl⟩ := h
  unfold lastSuffixOf at hlast ⊢
  obtain ⟨push, hfind, hsuffix⟩ := Option.map_eq_some_iff.mp hlast
  rw [List.reverse_append, List.find?_append, hfind, Option.some_or, Option.map_some, hsuffix]

theorem lastSuffixOf_concat (log : List Push) (push : Push) :
    lastSuffixOf (log ++ [push]) push.customerId push.campaignId = some push.suffix := by
  unfold lastSuffixOf
  rw [List.reverse_append, List.reverse_singleton, List.singleton_append, List.find?_cons_of_pos]
  · rfl
  · exact decide_eq_true ⟨rfl, rfl⟩

theorem recorded_lastEntries (count : Nat) (history : List JsValue) :
    recorded (lastEntries count history) <:+ recorded history :=
  (List.drop_suffix _ history).filterMap entryPush

theorem recorded_concat (history : List JsValue) (entry : JsValue) :
    recorded (history ++ [entry]) = recorded history ++ (entryPush entry).toList := by
  unfold recorded
  rw [List.filterMap_append]
  cases h : entryPush entry <;> simp [h]

/-! ## What a POST does to the history -/

variable {config : Config} {files : Files} {post : Post} {state : AdsSyncState} {suffix : String}
  {world : World}

theorem get_pushEntry (state : AdsSyncState) (time suffix : String) (requestId : JsValue)
    (result : String) (error : JsValue) (name : String) :
    (pushEntry state time suffix requestId result error).json.get name =
      JsValue.jsonField ((pushEntry state time suffix requestId result error).get name) := by
  have hnames : ["at", "suffix", "customerId", "campaignId", "requestId", "result", "error"].Nodup := by
    decide
  unfold pushEntry
  refine JsValue.get_json ?_ name
  exact hnames

theorem entryPush_error (state : AdsSyncState) (time suffix : String) (requestId error : JsValue) :
    entryPush (pushEntry state time suffix requestId "error" error).json = none := by
  unfold entryPush
  rw [get_pushEntry]
  have hresult : ¬decide ("error" = "success") = true := by decide
  exact if_neg hresult

theorem entryPush_success {customerId campaignId : String} (time suffix : String)
    (requestId error : JsValue) (hcustomer : state.customerId = some customerId)
    (hcampaign : state.campaignId = some campaignId) :
    entryPush (pushEntry state time suffix requestId "success" error).json =
      some ⟨customerId, campaignId, suffix⟩ := by
  unfold entryPush
  rw [get_pushEntry, get_pushEntry, get_pushEntry, get_pushEntry]
  unfold pushEntry
  rw [hcustomer, hcampaign]
  have hresult : decide ("success" = "success") = true := by decide
  exact if_pos hresult

/-- What a POST may do to the history: nothing, or add the entry of what it did. -/
inductive Effect (config : Config) (files : Files) (history : List JsValue) (answer : Answer) : Prop
  | quiet (hwritten : answer.written = none) (hupdated : answer.updated = none)
  | wrote (state : AdsSyncState) (file : JsValue)
      (hfile : config.storage.wrap (.object (mergedFields files state)) = .ok file)
      (hwritten : answer.written = some ⟨.object (mergedFields files state), file⟩)
      (hhistory : state.pushHistory = history) (hupdated : answer.updated = none)
  | noted (state : AdsSyncState) (file entry : JsValue)
      (hfile : config.storage.wrap (.object (mergedFields files state)) = .ok file)
      (hwritten : answer.written = some ⟨.object (mergedFields files state), file⟩)
      (hhistory : state.pushHistory = lastEntries config.maxHistory (history ++ [entry]))
      (hupdated : entryPush entry.json = answer.updated)

theorem readState_track (h : readState config.storage files = .ok state) :
    readTrackState files ≠ .null := by
  have hne : files.state.parsed.getD (.object [("suffix", .string ""), ("history", .array [])]) ≠
      .null := by
    unfold readState at h
    cases hfile : files.state with
    | absent => exact nofun
    | malformed => exact nofun
    | json file =>
      rw [hfile] at h
      rintro (rfl : file = .null)
      have hread : config.storage.read .null = .ok .null ∨
          config.storage.read .null = .error
            "Legacy plaintext state is forbidden for google-ads-state" := by
        unfold Storage.read
        rw [if_neg (by decide)]
        split
        · exact .inr rfl
        · exact .inl rfl
      dsimp only at h
      rcases hread with hread | hread
      · rw [hread] at h
        cases h
      · rw [hread] at h
        cases h
  unfold readTrackState
  cases files.capture.parsed with
  | none => exact hne
  | some captureState => exact nofun

theorem answered_effect (hwrites : config.storage.Writes) (htrack : readTrackState files ≠ .null)
    (state : AdsSyncState) (status : Nat) (body : JsValue) :
    Effect config files state.pushHistory (answered config files state status body) := by
  obtain ⟨file, hfile, hanswer⟩ := answered_eq hwrites htrack state status body
  rw [hanswer]
  exact .wrote state file hfile rfl rfl rfl

/-- An answer whose state has one entry more. -/
theorem answered_noted (hwrites : config.storage.Writes) (htrack : readTrackState files ≠ .null)
    {state : AdsSyncState} {history : List JsValue} {entry : JsValue} (status : Nat) (body : JsValue)
    (hhistory : state.pushHistory = lastEntries config.maxHistory (history ++ [entry]))
    (hentry : entryPush entry.json = none) :
    Effect config files history (answered config files state status body) := by
  obtain ⟨file, hfile, hanswer⟩ := answered_eq hwrites htrack state status body
  rw [hanswer]
  exact .noted state file entry hfile rfl hhistory hentry

theorem pushCaught_effect (hwrites : config.storage.Writes) (htrack : readTrackState files ≠ .null)
    (state : AdsSyncState) (suffix : String) (error : Update) :
    Effect config files state.pushHistory (pushCaught config files post state suffix error) := by
  have hentry := entryPush_error state post.time suffix error.requestId (.string error.message)
  cases error with
  | updated result => exact answered_noted hwrites htrack 502 _ rfl hentry
  | apiError message requestId retryable => exact answered_noted hwrites htrack _ _ rfl hentry
  | tooSoon message retryAfterMs => exact answered_noted hwrites htrack _ _ rfl hentry
  | failed message => exact answered_noted hwrites htrack _ _ rfl hentry

/-- A text that is there. -/
theorem given_eq {text : Option String} (h : given text = true) : ∃ value, text = some value := by
  cases text with
  | none => cases h
  | some value => exact ⟨value, rfl⟩

theorem pushSuffix_effect (hwrites : config.storage.Writes) (htrack : readTrackState files ≠ .null)
    (hcampaign : hasRequiredCampaign state = true) (suffix : String) :
    Effect config files state.pushHistory (pushSuffix config files post state suffix) := by
  obtain ⟨hcustomerId, hcampaignId⟩ := Bool.and_eq_true_iff.mp hcampaign
  obtain ⟨customerId, hcustomerId⟩ := given_eq hcustomerId
  obtain ⟨campaignId, hcampaignId⟩ := given_eq hcampaignId
  unfold pushSuffix
  cases post.update with
  | updated result =>
    dsimp only
    obtain ⟨file, hfile⟩ := hwrites (.object (mergedFields files { state with
      lastSuffix := some suffix
      lastPushedAt := some post.time
      lastError := none
      pushHistory := lastEntries config.maxHistory (state.pushHistory ++
        [pushEntry state post.time suffix (result.get "requestId") "success" .undefined]) }))
    rw [writeState_eq htrack hfile]
    refine .noted _ file _ hfile rfl rfl ?_
    rw [entryPush_success _ _ _ _ hcustomerId hcampaignId, hcustomerId, hcampaignId]
    rfl
  | apiError message requestId retryable => exact pushCaught_effect hwrites htrack state suffix _
  | tooSoon message retryAfterMs => exact pushCaught_effect hwrites htrack state suffix _
  | failed message => exact pushCaught_effect hwrites htrack state suffix _

theorem pushToAds_effect (hwrites : config.storage.Writes) (htrack : readTrackState files ≠ .null)
    (state : AdsSyncState) :
    Effect config files state.pushHistory (pushToAds config files post state) := by
  unfold pushToAds
  cases getLatestSuffix files with
  | error message => exact .quiet rfl rfl
  | ok suffix =>
    dsimp only
    by_cases hsuffix : suffix = ""
    · rw [if_pos hsuffix]
      exact answered_effect hwrites htrack { state with lastError := some _ } 400 _
    rw [if_neg hsuffix]
    by_cases hcampaign : hasRequiredCampaign state = true
    · rw [if_neg (not_not_intro hcampaign)]
      by_cases hcredentials : hasRequiredCredentials state = true
      · rw [if_neg (not_not_intro hcredentials)]
        split
        · exact .quiet rfl rfl
        · exact answered_effect hwrites htrack
            { state with lastError := none, lastSuffix := some suffix } 200 _
        · exact pushSuffix_effect hwrites htrack hcampaign suffix
      · rw [if_pos hcredentials]
        exact answered_effect hwrites htrack { state with lastError := some _ } 400 _
    · rw [if_pos hcampaign]
      exact answered_effect hwrites htrack { state with lastError := some _ } 400 _

/-- **A POST adds to the history what it did**, or nothing. -/
theorem handlePost_effect (hwrites : config.storage.Writes) (files : Files) (post : Post) :
    Effect config files (history config.storage files) (handlePost config files post) := by
  unfold handlePost history
  cases validateAdsPost post.body with
  | error errors => exact .quiet rfl rfl
  | ok body =>
    cases hread : readState config.storage files with
    | error message => exact .quiet rfl rfl
    | ok state =>
      have htrack := readState_track hread
      dsimp only
      by_cases hconfigure : (body.get "action").isText "configure" = true
      · rw [if_pos hconfigure]
        unfold configure
        by_cases hpayload : hasConfigPayload body = true
        · rw [if_pos hpayload]
          exact answered_effect hwrites htrack (applyConfiguredState state body) 200 _
        · rw [if_neg hpayload]
          exact .quiet rfl rfl
      rw [if_neg hconfigure]
      by_cases hrefresh : (body.get "action").isText "refresh_suffix" = true
      · rw [if_pos hrefresh]
        unfold refreshSuffix
        cases getLatestSuffix files with
        | error message => exact .quiet rfl rfl
        | ok suffix =>
          exact answered_effect hwrites htrack
            { state with lastSuffix := some suffix, lastError := _ } 200 _
      rw [if_neg hrefresh]
      by_cases hpush : (body.get "action").isText "push_to_ads" = true
      · rw [if_pos hpush]
        exact pushToAds_effect hwrites htrack state
      · rw [if_neg hpush]
        exact .quiet rfl rfl

/-! ## The history stays truthful -/

/-- The history in what is read of the state file. -/
def historyOf : Except String JsValue → List JsValue
  | .ok raw => (raw.get "pushHistory").items
  | .error _ => []

theorem history_json (storage : Storage) (file : JsValue) (capture : File) :
    history storage ⟨.json file, capture⟩ = historyOf (storage.read file) := by
  unfold history readState
  dsimp only
  cases storage.read file with
  | error message => rfl
  | ok raw => cases raw <;> rfl

/-- The history of a state that was written. -/
theorem history_written (hreads : config.storage.Reads) {file : JsValue} (capture : File)
    (hfile : config.storage.wrap (.object (mergedFields files state)) = .ok file) :
    history config.storage ⟨.json file, capture⟩ = [] ∨
      history config.storage ⟨.json file, capture⟩ = JsValue.jsonItems state.pushHistory := by
  rw [history_json]
  cases hread : config.storage.read file with
  | error message => exact .inl rfl
  | ok read =>
    refine .inr ?_
    have hlookup (suffix : String) :
        JsValue.lookup (stateFields state suffix) "pushHistory" = .array state.pushHistory := rfl
    have hget := get_merged files state "pushHistory"
    rw [if_pos (by decide), hlookup] at hget
    rw [hreads _ _ _ hfile hread]
    unfold historyOf
    dsimp only
    rw [hget]
    rfl

/-- What a POST leaves of the history. -/
theorem Effect.truthful (hreads : config.storage.Reads) (hworld : Truthful config.storage world)
    {answer : Answer}
    (h : Effect config world.files (history config.storage world.files) answer) :
    Truthful config.storage
      { files := filesAfter world.files answer, log := world.log ++ answer.updated.toList } := by
  have hjson : JsValue.jsonItems (history config.storage world.files) =
      history config.storage world.files := by
    rw [JsValue.jsonItems_eq_map]
    exact (List.map_congr_left hworld.isJson).trans (List.map_id' _)
  have hwrote {state : AdsSyncState} {file : JsValue}
      (hfile : config.storage.wrap (.object (mergedFields world.files state)) = .ok file)
      (hwritten : answer.written = some ⟨.object (mergedFields world.files state), file⟩)
      (hrecords : recorded (JsValue.jsonItems state.pushHistory) <:+
        world.log ++ answer.updated.toList) :
      Truthful config.storage
        { files := filesAfter world.files answer, log := world.log ++ answer.updated.toList } := by
    unfold filesAfter
    rw [hwritten]
    rcases history_written hreads world.files.capture hfile with hhistory | hhistory
    · refine ⟨?_, ?_⟩ <;> rw [hhistory]
      · exact List.nil_suffix
      · exact nofun
    · refine ⟨?_, ?_⟩ <;> rw [hhistory]
      · exact hrecords
      · rw [JsValue.jsonItems_eq_map]
        intro entry hentry
        obtain ⟨old, -, rfl⟩ := List.mem_map.mp hentry
        exact JsValue.json_json old
  cases h with
  | quiet hwritten hupdated =>
    unfold filesAfter
    rw [hwritten, hupdated, Option.toList_none, List.append_nil]
    exact hworld
  | wrote state file hfile hwritten hhistory hupdated =>
    refine hwrote hfile hwritten ?_
    rw [hhistory, hjson, hupdated, Option.toList_none, List.append_nil]
    exact hworld.records
  | noted state file entry hfile hwritten hhistory hupdated =>
    refine hwrote hfile hwritten ?_
    have hentries : JsValue.jsonItems state.pushHistory = lastEntries config.maxHistory
        (history config.storage world.files ++ [entry.json]) := by
      rw [hhistory, JsValue.jsonItems_eq_map]
      unfold lastEntries
      rw [List.map_drop, List.map_append, ← JsValue.jsonItems_eq_map, hjson]
      simp
    rw [hentries, ← hupdated]
    refine (recorded_lastEntries _ _).trans ?_
    rw [recorded_concat]
    obtain ⟨earlier, hlog⟩ := hworld.records
    exact ⟨earlier, by rw [← List.append_assoc, hlog]⟩

theorem trackedFields_names (chain : JsValue) (capturedAt suffix : String) :
    ((trackedFields chain capturedAt suffix).map (·.1)).Nodup ∧
      SecureState.envelopeProperty ∉ (trackedFields chain capturedAt suffix).map (·.1) ∧
      "pushHistory" ∉ (trackedFields chain capturedAt suffix).map (·.1) := by
  unfold trackedFields
  split
  · exact ⟨(by decide : ["capturedChain", "capturedAt"].Nodup),
      (by decide : SecureState.envelopeProperty ∉ ["capturedChain", "capturedAt"]),
      (by decide : "pushHistory" ∉ ["capturedChain", "capturedAt"])⟩
  · exact ⟨(by decide : ["capturedChain", "capturedAt", "suffix", "finalQuery"].Nodup),
      (by decide : SecureState.envelopeProperty ∉
        ["capturedChain", "capturedAt", "suffix", "finalQuery"]),
      (by decide : "pushHistory" ∉ ["capturedChain", "capturedAt", "suffix", "finalQuery"])⟩

/-- A journey is stored beside the history. -/
theorem history_tracked (storage : Storage) (files : Files) (chain : JsValue)
    (capturedAt suffix : String) :
    history storage { files with state := trackedFile files.state chain capturedAt suffix } =
      history storage files := by
  obtain ⟨hnames, henvelope, hhistory⟩ := trackedFields_names chain capturedAt suffix
  have hget (fields : List (String × JsValue)) {name : String}
      (hname : name ∉ (trackedFields chain capturedAt suffix).map (·.1)) :
      (JsValue.object (JsValue.spread fields (trackedFields chain capturedAt suffix))).get name =
        (JsValue.object fields).get name := by
    unfold JsValue.get
    exact (JsValue.lookup_spread hnames fields name).trans (if_neg hname)
  have hobject (fields : List (String × JsValue)) :
      historyOf (storage.read (.object (JsValue.spread fields
          (trackedFields chain capturedAt suffix)))) = historyOf (storage.read (.object fields)) := by
    have hsealed : SecureState.isEnvelope
        (.object (JsValue.spread fields (trackedFields chain capturedAt suffix))) =
          SecureState.isEnvelope (.object fields) := by
      unfold SecureState.isEnvelope
      rw [hget fields henvelope]
    unfold Storage.read
    rw [hsealed, hget fields henvelope]
    split
    · rfl
    · split
      · rfl
      · exact congrArg JsValue.items (hget fields hhistory)
  have hempty : historyOf (storage.read (.object [])) = [] := by
    unfold Storage.read
    rw [if_neg (by decide)]
    split <;> rfl
  obtain ⟨file, capture⟩ := files
  cases file with
  | absent =>
    refine (history_json storage _ capture).trans ?_
    exact (hobject []).trans hempty
  | malformed =>
    refine (history_json storage _ capture).trans ?_
    exact (hobject []).trans hempty
  | json value =>
    cases value with
    | object fields =>
      rw [history_json]
      exact (history_json storage _ capture).trans (hobject fields)
    | _ => rfl

theorem truthful_next (hwrites : config.storage.Writes) (hreads : config.storage.Reads)
    (hworld : Truthful config.storage world) (event : Event) :
    Truthful config.storage ((system config).next world event) := by
  cases event with
  | captured capture => exact ⟨hworld.records, hworld.isJson⟩
  | tracked chain capturedAt suffix =>
    have hhistory := history_tracked config.storage world.files chain capturedAt suffix
    refine ⟨?_, ?_⟩
    · exact hhistory ▸ hworld.records
    · exact hhistory ▸ hworld.isJson
  | posted post =>
    exact (handlePost_effect hwrites world.files post).truthful hreads hworld

/-! ## What a push answers -/

theorem answered_ok {state : AdsSyncState} {status : Nat} {body : JsValue}
    (h : OkWith (answered config files state status body).response suffix) :
    body.get "ok" = .bool true ∧ body.get "suffix" = .string suffix := by
  unfold answered at h
  obtain ⟨answer, hanswer, hok, hsuffix⟩ := h
  cases hwrite : writeState config.storage files state with
  | error message =>
    rw [hwrite] at hanswer
    cases hanswer
  | ok written =>
    rw [hwrite] at hanswer
    obtain rfl := Option.some.inj hanswer
    exact ⟨hok, hsuffix⟩

theorem answered_updated (state : AdsSyncState) (status : Nat) (body : JsValue) :
    (answered config files state status body).updated = none := by
  unfold answered
  split <;> rfl

theorem pushRefused_not_ok {state : AdsSyncState} {error : String} :
    ¬OkWith (pushRefused config files state error).response suffix := by
  intro h
  cases (answered_ok h).1

theorem pushCaught_not_ok {state : AdsSyncState} {suffix' : String} {error : Update} :
    ¬OkWith (pushCaught config files post state suffix' error).response suffix := by
  intro h
  cases error with
  | updated result => cases (answered_ok h).1
  | apiError message requestId retryable => cases (answered_ok h).1
  | tooSoon message retryAfterMs => cases (answered_ok h).1
  | failed message => cases (answered_ok h).1

theorem pushSuffix_ok {state : AdsSyncState} {suffix' : String}
    (h : OkWith (pushSuffix config files post state suffix').response suffix) :
    (pushSuffix config files post state suffix').updated =
      some ⟨state.customerId.getD "", state.campaignId.getD "", suffix⟩ := by
  unfold pushSuffix at h ⊢
  cases hupdate : post.update with
  | updated result =>
    rw [hupdate] at h
    dsimp only at h ⊢
    split at h
    · obtain ⟨answer, hanswer, -, hsuffix⟩ := h
      obtain rfl := Option.some.inj hanswer
      obtain rfl : suffix' = suffix := JsValue.string.inj hsuffix
      rfl
    · exact absurd h pushCaught_not_ok
  | apiError message requestId retryable =>
    rw [hupdate] at h
    exact absurd h pushCaught_not_ok
  | tooSoon message retryAfterMs =>
    rw [hupdate] at h
    exact absurd h pushCaught_not_ok
  | failed message =>
    rw [hupdate] at h
    exact absurd h pushCaught_not_ok

/-- A push that answers with ok was skipped, or updated the campaign. -/
theorem pushToAds_ok (hpush : Pushes config files post state)
    (h : OkWith (pushToAds config files post state).response suffix) :
    (Skips config files post state suffix ∧ (pushToAds config files post state).updated = none) ∨
      (pushToAds config files post state).updated =
        some ⟨state.customerId.getD "", state.campaignId.getD "", suffix⟩ := by
  unfold pushToAds at h ⊢
  cases hlatest : getLatestSuffix files with
  | error message =>
    rw [hlatest] at h
    obtain ⟨answer, hanswer, -⟩ := h
    cases hanswer
  | ok latest =>
    rw [hlatest] at h
    dsimp only at h ⊢
    by_cases hsuffix : latest = ""
    · rw [if_pos hsuffix] at h
      exact absurd h pushRefused_not_ok
    by_cases hcampaign : hasRequiredCampaign state = true
    swap
    · rw [if_neg hsuffix, if_pos hcampaign] at h
      exact absurd h pushRefused_not_ok
    by_cases hcredentials : hasRequiredCredentials state = true
    swap
    · rw [if_neg hsuffix, if_neg (not_not_intro hcampaign), if_pos hcredentials] at h
      exact absurd h pushRefused_not_ok
    rw [if_neg hsuffix, if_neg (not_not_intro hcampaign), if_neg (not_not_intro hcredentials)] at h ⊢
    cases hrecent : latestRecentSuccessPush config.dateParse post.now state.pushHistory
      (state.customerId.getD "") (state.campaignId.getD "") with
    | error message =>
      rw [hrecent] at h
      obtain ⟨answer, hanswer, -⟩ := h
      cases hanswer
    | ok found =>
      rw [hrecent] at h
      cases found with
      | none => exact .inr (pushSuffix_ok h)
      | some recent =>
        obtain rfl : latest = suffix := JsValue.string.inj (answered_ok h).2
        exact .inl ⟨⟨hpush, hlatest, hsuffix, hcampaign, hcredentials, recent, hrecent⟩,
          answered_updated _ _ _⟩

theorem handlePost_push (h : Pushes config files post state) :
    handlePost config files post = pushToAds config files post state := by
  have haction := h.action
  have hvalidate : validateAdsPost post.body = .ok (.object [("action", .string "push_to_ads")]) := by
    cases hbody : post.body with
    | object fields =>
      rw [hbody] at haction
      unfold validateAdsPost
      dsimp only
      rw [haction]
      rfl
    | _ =>
      rw [hbody] at haction
      cases haction
  unfold handlePost
  rw [hvalidate]
  dsimp only
  rw [h.reads]
  rfl

/-- Where the history is truthful and skipped pushes are identical, what is reported was pushed. -/
theorem pushed_of_truthful (hworld : Truthful config.storage world) {event : Event}
    (hidentical : Identical config world event) : Pushed config world event := by
  rintro post state suffix rfl hpush hok
  have hreply : (system config).reply world (.posted post) =
      (pushToAds config world.files post state).response := by
    rw [← handlePost_push hpush]
    rfl
  have hlog : ((system config).next world (.posted post)).log =
      world.log ++ (pushToAds config world.files post state).updated.toList := by
    rw [← handlePost_push hpush]
    rfl
  rw [hreply] at hok
  rw [hlog]
  rcases pushToAds_ok hpush hok with ⟨hskips, hupdated⟩ | hupdated
  · have hrecords := hworld.records
    unfold history at hrecords
    rw [hpush.reads] at hrecords
    rw [hupdated, Option.toList_none, List.append_nil]
    exact lastSuffixOf_suffix hrecords (hidentical post state suffix rfl hskips)
  · rw [hupdated]
    exact lastSuffixOf_concat world.log _

/-- **What a push reports was pushed**, in every run whose skipped pushes find the suffix of now
pushed last. -/
theorem push_answers (config : Config) (hwrites : config.storage.Writes)
    (hreads : config.storage.Reads) (world : World) (hworld : Truthful config.storage world)
    (events : List Event) (h : (system config).Along (Identical config) world events) :
    (system config).Along (Pushed config) world events :=
  EventSystem.along_of_inv hworld (fun _ event hworld _ => truthful_next hwrites hreads hworld event)
    (fun _ _ hworld hidentical => pushed_of_truthful hworld hidentical) h

section Sample

/-- The history of a campaign is empty, its credentials are there. -/
def campaignState : JsValue :=
  .object [("campaignId", .string "7"), ("customerId", .string "1234567890"),
    ("clientId", .string "client"), ("clientSecret", .string "secret"),
    ("developerToken", .string "developer"), ("refreshToken", .string "refresh"),
    ("pushHistory", .array [])]

def captureFile (suffix : String) : File := .json (.object [("suffix", .string suffix)])

def campaignWorld : World where
  files := ⟨.json campaignState, captureFile "gclid=a"⟩
  log := []

def sampleConfig : Config where
  storage := plainStorage
  dateParse text := if text = "1970-01-01T00:00:00.000Z" then .finite 0 else .nan
  maxHistory := 100

/-- A push that the updater carries out. -/
def samplePush (now : Int) (time : String) : Event :=
  .posted {
    body := .object [("action", .string "push_to_ads")], now, time
    update := .updated (.object [("requestId", .string "r-1")]) }

/-- What holds of a result. -/
theorem of_result {α : Type} {result : Except String α} {value : α} {P : α → Bool}
    (h : result.toOption.all P = true) (hresult : result = .ok value) : P value = true := by
  rwa [hresult] at h

/-- The second of two pushes is skipped, with the suffix of the first. -/
theorem push_answers_twice :
    (system sampleConfig).Along (Pushed sampleConfig) campaignWorld
      [samplePush 0 "1970-01-01T00:00:00.000Z", samplePush 10000 "1970-01-01T00:00:10.000Z"] := by
  refine push_answers sampleConfig plainStorage_writes plainStorage_reads campaignWorld
    ⟨by decide +kernel, nofun⟩ _ ⟨?_, ?_, trivial⟩
  · rintro post state suffix hpost hskips
    cases hpost
    obtain ⟨recent, hrecent⟩ := hskips.recent
    have hnone := @of_result _ _ _ (fun state => (latestRecentSuccessPush sampleConfig.dateParse 0
      state.pushHistory (state.customerId.getD "") (state.campaignId.getD "")).toOption.all
        Option.isNone) (by decide +kernel) hskips.reads
    cases of_result hnone hrecent
  · rintro post state suffix hpost hskips
    cases hpost
    have hsuffix := @of_result _ _ _ (fun suffix => suffix = "gclid=a") (by decide +kernel)
      hskips.captured
    have hlast := @of_result _ _ _ (fun state => lastSuffixOf (recorded state.pushHistory)
      (state.customerId.getD "") (state.campaignId.getD "") = some "gclid=a") (by decide +kernel)
      hskips.reads
    rw [of_decide_eq_true hsuffix]
    exact of_decide_eq_true hlast

theorem text_eq {value : JsValue} {text : String} (h : value.text? = some text) :
    value = .string text := by
  cases value with
  | string value => exact congrArg JsValue.string (Option.some.inj h)
  | _ => cases h

theorem flag_eq {value : JsValue} {flag : Bool} (h : value.isBool flag = true) :
    value = .bool flag := by
  cases value with
  | bool value => exact congrArg JsValue.bool (of_decide_eq_true h)
  | _ => cases h

/-- The campaign after a push, with another suffix captured. -/
def recaptured : World :=
  (system sampleConfig).run campaignWorld
    [samplePush 0 "1970-01-01T00:00:00.000Z", .captured (captureFile "gclid=b")]

/-- **A suffix that was never pushed is reported as pushed**: it changed within 58 seconds. -/
theorem stale_push_reported :
    ¬(system sampleConfig).Along (Pushed sampleConfig) campaignWorld
      [samplePush 0 "1970-01-01T00:00:00.000Z", .captured (captureFile "gclid=b"),
        samplePush 10000 "1970-01-01T00:00:10.000Z"] := by
  rintro ⟨-, -, hthird, -⟩
  have hpushed : Pushed sampleConfig recaptured (samplePush 10000 "1970-01-01T00:00:10.000Z") :=
    hthird
  have hstate : ∃ state, readState plainStorage recaptured.files = .ok state := by
    have hsome : (readState plainStorage recaptured.files).toOption.isSome = true := by
      decide +kernel
    cases hread : readState plainStorage recaptured.files with
    | error message =>
      rw [hread] at hsome
      cases hsome
    | ok state => exact ⟨state, rfl⟩
  obtain ⟨state, hread⟩ := hstate
  have hok : OkWith ((system sampleConfig).reply recaptured
      (samplePush 10000 "1970-01-01T00:00:10.000Z")) "gclid=b" := by
    have hanswer : ((system sampleConfig).reply recaptured
        (samplePush 10000 "1970-01-01T00:00:10.000Z")).any (fun answer =>
          (answer.body.get "ok").isBool true && (answer.body.get "suffix").text? = some "gclid=b") =
            true := by
      decide +kernel
    obtain ⟨answer, hreply, hbody⟩ := (Option.any_eq_true _ _).mp hanswer
    obtain ⟨hflag, htext⟩ := Bool.and_eq_true_iff.mp hbody
    exact ⟨answer, hreply, flag_eq hflag, text_eq (of_decide_eq_true htext)⟩
  have hlast := hpushed _ state "gclid=b" rfl ⟨rfl, hread⟩ hok
  have hold := @of_result _ _ _ (fun state => lastSuffixOf ((system sampleConfig).next recaptured
    (samplePush 10000 "1970-01-01T00:00:10.000Z")).log (state.customerId.getD "")
      (state.campaignId.getD "") = some "gclid=a") (by decide +kernel) hread
  rw [of_decide_eq_true hold] at hlast
  exact absurd (Option.some.inj hlast) (by decide)

end Sample

end LinkSuffix.AdsRoute
