import LinkSuffix.Web.AdsState

/-!
# What a configuration of the Google Ads route changes

A POST with action `configure` names some of the seven configuration fields. The validator builds
all seven, so the fields that were not named are set as well.

* `Kept`: the POST changes only what it names.
* `Undisturbed`: the stored states and payloads where it does.
* **`configuration_kept_iff`**; **`configuration_wiped`**: a credential that was not sent is lost.
-/

namespace LinkSuffix.AdsRoute

/-! ## What is kept -/

/-- A value that says nothing: no value, an empty text, an empty list. -/
def Vacant (value : JsValue) : Prop :=
  value = .undefined ∨ value = .string "" ∨ value = .array []

/-- The value of a key is kept. -/
def Same (old new : JsValue) : Prop := old = new ∨ Vacant old ∧ Vacant new

/-- The keys a configuration leaves alone: fields that are not sent, and every other key. -/
def Unsent (payload : JsValue) (name : String) : Prop :=
  name ∈ configFields → hasOwn payload name = false

/-- A payload that configures some field. -/
structure Configures (payload : JsValue) : Prop where
  isObject : ∃ fields, payload = .object fields
  action : payload.get "action" = .string "configure"
  names : ∃ field ∈ configFields, hasOwn payload field = true

/-- The state in the state file. -/
structure Stored (storage : Storage) (files : Files) (raw : JsValue) : Prop where
  reads : ∃ file, files.state = .json file ∧ storage.read file = .ok raw
  isObject : ∃ fields, raw = .object fields
  isJson : raw.json = raw

/-- The POST writes a state that has the value of every key it leaves alone. -/
def Kept (config : Config) (files : Files) (post : Post) (raw : JsValue) : Prop :=
  ∃ written, (handlePost config files post).written = some written ∧
    ∀ name, Unsent post.body name → Same (raw.get name) (written.value.json.get name)

/-- The suffix the route infers, or else the track state's. -/
def settledSuffix (files : Files) (raw : JsValue) : String :=
  orText (normalizeSuffix (.string (inferCurrentSuffix raw)))
    (normalizeSuffix ((readTrackState files).get "suffix"))

/-- What the fields that are not sent and the other keys hold already. -/
structure Undisturbed (files : Files) (raw payload : JsValue) : Prop where
  unsent : ∀ field ∈ configFields, hasOwn payload field = false → Vacant (raw.get field)
  suffix : Same (raw.get "suffix") (.string (settledSuffix files raw))
  lastSuffix : Same (raw.get "lastSuffix") (.string (inferCurrentSuffix raw))
  texts : ∀ name ∈ ["lastPushedAt", "lastError"],
    Vacant (raw.get name) ∨ ∃ text, raw.get name = .string text
  history : Vacant (raw.get "pushHistory") ∨ ∃ entries, raw.get "pushHistory" = .array entries
  others : ∀ name, name ∉ configFields → name ∉ ownKeys → Same (raw.get name) (trackValue files name)

variable {config : Config} {files : Files} {post : Post} {raw payload : JsValue}

theorem same_undefined (value : JsValue) : Same value .undefined ↔ Vacant value := by
  constructor
  · rintro (rfl | ⟨h, -⟩)
    · exact .inl rfl
    · exact h
  · exact fun h => .inr ⟨h, .inl rfl⟩

theorem same_toStringIf (value : JsValue) :
    Same value (.string (toStringIf value)) ↔ Vacant value ∨ ∃ text, value = .string text := by
  constructor
  · rintro (h | ⟨h, -⟩)
    · exact .inr ⟨_, h⟩
    · exact .inl h
  · rintro (h | ⟨text, rfl⟩)
    · refine .inr ⟨h, ?_⟩
      rcases h with rfl | rfl | rfl <;> exact .inr (.inl rfl)
    · exact .inl rfl

theorem same_items (value : JsValue) :
    Same value (.array value.items) ↔ Vacant value ∨ ∃ entries, value = .array entries := by
  constructor
  · rintro (h | ⟨h, -⟩)
    · exact .inr ⟨_, h⟩
    · exact .inl h
  · rintro (h | ⟨text, rfl⟩)
    · refine .inr ⟨h, ?_⟩
      rcases h with rfl | rfl | rfl <;> exact .inr (.inr rfl)
    · exact .inl rfl

/-! ## The payload as the validator builds it -/

/-- What the validator makes of a payload that configures. -/
def validated (payload : JsValue) : JsValue :=
  .object [
    ("action", .string "configure"),
    ("campaignId", trimText (payload.get "campaignId") 120),
    ("customerId", trimText (payload.get "customerId") 30),
    ("loginCustomerId", trimText (payload.get "loginCustomerId") 30),
    ("clientId", trimText (payload.get "clientId") 200),
    ("clientSecret", trimText (payload.get "clientSecret") 200),
    ("developerToken", trimText (payload.get "developerToken") 200),
    ("refreshToken", trimText (payload.get "refreshToken") 500)]

theorem Configures.validate (h : Configures payload) :
    validateAdsPost payload = .ok (validated payload) := by
  obtain ⟨⟨fields, rfl⟩, haction, hnames⟩ := h
  have hconfig : configFields.any (hasOwn (.object fields)) = true := List.any_eq_true.mpr hnames
  unfold validateAdsPost
  dsimp only
  rw [haction]
  exact if_pos hconfig

/-- The fields of a state that was configured. -/
def configField (state : AdsSyncState) (name : String) : Option String :=
  match name with
  | "campaignId" => state.campaignId
  | "customerId" => state.customerId
  | "loginCustomerId" => state.loginCustomerId
  | "clientId" => state.clientId
  | "clientSecret" => state.clientSecret
  | "developerToken" => state.developerToken
  | "refreshToken" => state.refreshToken
  | _ => none

theorem get_of_unsent {name : String} (h : hasOwn payload name = false) :
    payload.get name = .undefined :=
  JsValue.lookup_of_not_mem (by simpa [hasOwn] using h)

theorem hasOwn_validated {name : String} (h : name ∈ configFields) :
    hasOwn (validated payload) name = true :=
  decide_eq_true (List.mem_cons_of_mem _ h)

/-- **A field that is not sent is emptied**: the validator's body names it. -/
theorem configField_unsent (state : AdsSyncState) {name : String} (hname : name ∈ configFields)
    (h : hasOwn payload name = false) :
    configField (applyConfiguredState state (validated payload)) name = none := by
  have hget := get_of_unsent h
  have hempty (old : Option String) (max : Nat) (hbody : (validated payload).get name = .string "") :
      configured (validated payload) name max old = none := by
    unfold configured
    rw [if_pos (hasOwn_validated hname), hbody]
    rfl
  simp only [configFields, List.mem_cons, List.not_mem_nil, or_false] at hname
  rcases hname with rfl | rfl | rfl | rfl | rfl | rfl | rfl
  all_goals
    dsimp only [configField, applyConfiguredState]
    exact hempty _ _ (congrArg (fun value => trimText value _) hget)

/-! ## What is written -/

theorem Stored.read (h : Stored config.storage files raw) :
    readState config.storage files = .ok (syncState raw) := by
  obtain ⟨file, hfile, hread⟩ := h.reads
  obtain ⟨fields, rfl⟩ := h.isObject
  unfold readState
  rw [hfile]
  dsimp only
  rw [hread]
  rfl

/-- A file that holds a state is read as plain JSON too. -/
theorem Stored.track_ne_null (h : Stored config.storage files raw) :
    readTrackState files ≠ .null := by
  obtain ⟨file, hfile, hread⟩ := h.reads
  obtain ⟨fields, rfl⟩ := h.isObject
  have hne : file ≠ .null := by
    rintro rfl
    unfold Storage.read at hread
    rw [if_neg (by decide)] at hread
    split at hread <;> cases hread
  unfold readTrackState
  rw [hfile]
  cases files.capture.parsed with
  | none => exact hne
  | some captureState => exact nofun

theorem lookup_configField (state : AdsSyncState) (suffix : String) {name : String}
    (h : name ∈ configFields) :
    JsValue.lookup (stateFields state suffix) name = .ofOption (configField state name) := by
  simp only [configFields, List.mem_cons, List.not_mem_nil, or_false] at h
  rcases h with rfl | rfl | rfl | rfl | rfl | rfl | rfl <;> rfl

/-! ## The frame -/

/-- The state that a configuration writes. -/
theorem handlePost_configures (hwrites : config.storage.Writes)
    (hstored : Stored config.storage files raw) (hpost : Configures post.body) :
    ∃ file, (handlePost config files post).written = some
      ⟨.object (mergedFields files (applyConfiguredState (syncState raw) (validated post.body))),
        file⟩ := by
  have hconfig : hasConfigPayload (validated post.body) = true :=
    List.any_eq_true.mpr ⟨"campaignId", by decide, hasOwn_validated (by decide)⟩
  obtain ⟨file, -, hanswer⟩ := answered_eq hwrites hstored.track_ne_null
    (applyConfiguredState (syncState raw) (validated post.body)) 200 (.object [
      ("ok", .bool true),
      ("campaignId", .ofOption (applyConfiguredState (syncState raw) (validated post.body)).campaignId),
      ("customerId", .ofOption (applyConfiguredState (syncState raw) (validated post.body)).customerId),
      ("hasCredentials", .bool (hasRequiredCredentials
        (applyConfiguredState (syncState raw) (validated post.body))))])
  refine ⟨file, ?_⟩
  unfold handlePost
  rw [hpost.validate]
  dsimp only
  rw [hstored.read]
  dsimp only
  rw [if_pos (by rfl)]
  unfold configure
  rw [if_pos hconfig]
  exact congrArg Answer.written hanswer

/-- The state written has a value of its own under the keys of the route. -/
theorem get_own (files : Files) (raw payload : JsValue) {name : String} (h : name ∈ ownKeys) :
    (JsValue.object (mergedFields files (applyConfiguredState (syncState raw) payload))).json.get
        name =
      JsValue.jsonField (JsValue.lookup (stateFields (syncState raw) (settledSuffix files raw)) name) := by
  rw [get_merged, if_pos (List.mem_append_right _ h)]
  simp only [ownKeys, List.mem_cons, List.not_mem_nil, or_false] at h
  rcases h with rfl | rfl | rfl | rfl | rfl <;> rfl

/-- A field that is not sent is not written. -/
theorem get_unsent (files : Files) (raw : JsValue) {name : String} (hname : name ∈ configFields)
    (h : hasOwn payload name = false) :
    (JsValue.object (mergedFields files
      (applyConfiguredState (syncState raw) (validated payload)))).json.get name = .undefined := by
  rw [get_merged, if_pos (List.mem_append_left _ hname), lookup_configField _ _ hname,
    configField_unsent _ hname h]
  rfl

/-- **The rest is kept** exactly where it holds already what the route makes of it. -/
theorem configuration_kept_iff (config : Config) (hwrites : config.storage.Writes) (files : Files)
    (post : Post) (raw : JsValue) (hstored : Stored config.storage files raw)
    (hpost : Configures post.body) :
    Kept config files post raw ↔ Undisturbed files raw post.body := by
  obtain ⟨file, hwritten⟩ := handlePost_configures hwrites hstored hpost
  have hkept : Kept config files post raw ↔ ∀ name, Unsent post.body name →
      Same (raw.get name) ((JsValue.object (mergedFields files
        (applyConfiguredState (syncState raw) (validated post.body)))).json.get name) := by
    constructor
    · rintro ⟨written, hwritten', h⟩
      obtain rfl := Option.some.inj (hwritten.symm.trans hwritten')
      exact h
    · exact fun h => ⟨_, hwritten, h⟩
  have hfree {name : String} (hname : name ∈ ownKeys) : Unsent post.body name := by
    intro hconfig
    simp only [ownKeys, List.mem_cons, List.not_mem_nil, or_false] at hname
    rcases hname with rfl | rfl | rfl | rfl | rfl <;> exact absurd hconfig (by decide)
  have hhistory := JsValue.items_json hstored.isJson "pushHistory"
  rw [hkept]
  constructor
  · intro h
    have hown {name : String} (hname : name ∈ ownKeys) : Same (raw.get name) (JsValue.jsonField
        (JsValue.lookup (stateFields (syncState raw) (settledSuffix files raw)) name)) := by
      rw [← get_own files raw (validated post.body) hname]
      exact h name (hfree hname)
    exact {
      unsent := fun field hfield hnot => by
        have hsame := h field fun _ => hnot
        rwa [get_unsent files raw hfield hnot, same_undefined] at hsame
      suffix := hown (by decide)
      lastSuffix := hown (by decide)
      texts := fun name hname => by
        simp only [List.mem_cons, List.not_mem_nil, or_false] at hname
        rcases hname with rfl | rfl
        · exact (same_toStringIf _).mp (hown (by decide))
        · exact (same_toStringIf _).mp (hown (by decide))
      history := by
        have hsame : Same (raw.get "pushHistory")
            (.array (JsValue.jsonItems (raw.get "pushHistory").items)) := hown (by decide)
        rw [hhistory] at hsame
        exact (same_items _).mp hsame
      others := fun name hconfig hnot => by
        have hsame := h name fun hname => absurd hname hconfig
        rwa [get_merged, if_neg (by simp [hconfig, hnot])] at hsame }
  · intro h name hname
    by_cases hconfig : name ∈ configFields
    · rw [get_unsent files raw hconfig (hname hconfig), same_undefined]
      exact h.unsent name hconfig (hname hconfig)
    · by_cases hown : name ∈ ownKeys
      · rw [get_own files raw _ hown]
        simp only [ownKeys, List.mem_cons, List.not_mem_nil, or_false] at hown
        rcases hown with rfl | rfl | rfl | rfl | rfl
        · exact h.suffix
        · exact h.lastSuffix
        · exact (same_toStringIf _).mpr (h.texts _ (by decide))
        · exact (same_toStringIf _).mpr (h.texts _ (by decide))
        · have hsame := (same_items _).mpr h.history
          rw [← hhistory] at hsame
          exact hsame
      · rw [get_merged, if_neg (by simp [hconfig, hown])]
        exact h.others name hconfig hown

section Sample

def plainConfig : Config where
  storage := plainStorage
  dateParse _ := .nan
  maxHistory := 100

/-- A state with an OAuth client. -/
def clientState : JsValue :=
  .object [("campaignId", .string "7"), ("clientId", .string "client"), ("pushHistory", .array [])]

def clientFiles : Files where
  state := .json clientState
  capture := .absent

/-- A new campaign. -/
def campaignPost : Post where
  body := .object [("action", .string "configure"), ("campaignId", .string "8")]
  now := 0
  time := "1970-01-01T00:00:00.000Z"
  update := .failed "not called"

theorem clientState_stored : Stored plainStorage clientFiles clientState where
  reads := ⟨clientState, rfl, rfl⟩
  isObject := ⟨_, rfl⟩
  isJson := by simp [clientState, JsValue.json, JsValue.jsonFields, JsValue.jsonItems]

theorem campaignPost_configures : Configures campaignPost.body where
  isObject := ⟨_, rfl⟩
  action := rfl
  names := ⟨"campaignId", by decide, by decide⟩

theorem configuration_kept_client :
    Kept plainConfig clientFiles campaignPost clientState ↔
      Undisturbed clientFiles clientState campaignPost.body :=
  configuration_kept_iff plainConfig plainStorage_writes clientFiles campaignPost clientState
    clientState_stored campaignPost_configures

/-- **A credential that was not sent is lost.** -/
theorem configuration_wiped : ¬Kept plainConfig clientFiles campaignPost clientState := by
  rintro ⟨written, hwritten, h⟩
  obtain ⟨file, hconfigures⟩ := @handlePost_configures plainConfig _ _ _ plainStorage_writes
    clientState_stored campaignPost_configures
  obtain rfl := Option.some.inj (hconfigures.symm.trans hwritten)
  have hclient := h "clientId" fun _ => by decide
  rw [get_unsent clientFiles clientState (by decide) (by decide), same_undefined] at hclient
  have hvalue : clientState.get "clientId" = .string "client" := rfl
  rw [hvalue] at hclient
  rcases hclient with hclient | hclient | hclient
  · cases hclient
  · exact absurd (JsValue.string.inj hclient) (by decide)
  · cases hclient

end Sample

end LinkSuffix.AdsRoute
