import LinkSuffix.Contracts.ExactSuffix
import LinkSuffix.Web.SecureState

/-!
# The Google Ads route

`POST /api/ads` (`route.ts`, `endpoint-schemas.ts`): its state file and what a POST answers and
writes. A file is the JSON in it; the cipher of `secure-state.ts` is a parameter.

* `Storage`, `Storage.Writes`, `Storage.Reads`: the state file's encryption, and what is relied on
  of it.
* `readState`, `writeState`, `readTrackState`, `getLatestSuffix`: the state as the route reads it.
* `validateAdsPost`, `applyConfiguredState`, `latestRecentSuccessPush`: the parts of a POST.
* `handlePost`: a POST, with the answer of the Google Ads updater.
-/

namespace LinkSuffix.AdsRoute

/-! ## Files -/

/-- A file, where it holds JSON as the value of it. -/
inductive File where
  | absent
  | malformed
  | json (value : JsValue)

/-- `existsSync` and `JSON.parse(readFileSync(…))`, with a thrown error caught. -/
def File.parsed : File → Option JsValue
  | .json value => some value
  | _ => none

/-- How the state file is written and an envelope in it is opened. -/
structure Storage where
  wrap : JsValue → Except String JsValue
  unwrap : JsValue → Except String JsValue
  refusesPlain : Bool

/-- `readEncryptedJsonSync` of a file with JSON in it. -/
def Storage.read (storage : Storage) (file : JsValue) : Except String JsValue :=
  if SecureState.isEnvelope file then storage.unwrap (file.get SecureState.envelopeProperty)
  else if storage.refusesPlain then
    .error "Legacy plaintext state is forbidden for google-ads-state"
  else .ok file

/-- The content of an envelope. -/
def openEnvelope (aead : SecureState.Aead) (env : SecureState.Environment) (envelope : JsValue) :
    Except String JsValue := do
  match ← SecureState.encryptionKey env with
  | none => throw "TAH_STATE_ENCRYPTION_KEY is required to decrypt google-ads-state"
  | some key =>
    match aead.decrypt key (SecureState.envelopeBytes envelope "iv")
      (SecureState.associatedData "google-ads-state")
      (SecureState.envelopeBytes envelope "ciphertext", SecureState.envelopeBytes envelope "tag") with
    | none => throw "Unsupported state or unable to authenticate data"
    | some plaintext =>
      if SecureState.maxStateBytes < plaintext.length then
        throw "Decrypted state exceeds the configured limit"
      match parseJson (utf8Decode .initial plaintext) with
      | none => throw "Unexpected token in JSON"
      | some value => return value

/-- The storage of `secure-state.ts`. -/
def secureStorage (aead : SecureState.Aead) (env : SecureState.Environment) (iv : List Nat) :
    Storage where
  wrap value := do
    let text ← SecureState.writeEncryptedJsonSync aead env iv value "google-ads-state"
    match parseJson text with
    | none => throw "Unexpected token in JSON"
    | some file => return file
  unwrap := openEnvelope aead env
  refusesPlain := env.requires

/-- A file in the limit is read as the JSON in it. -/
theorem secureStorage_read (aead : SecureState.Aead) (env : SecureState.Environment)
    (iv : List Nat) {text : List Char} {file : JsValue} (hparse : parseJson text = some file)
    (hsize : SecureState.fileSize text ≤ SecureState.maxStateBytes) (fallback : JsValue) :
    SecureState.readEncryptedJsonSync aead env (some text) fallback "google-ads-state" =
      (secureStorage aead env iv).read file := by
  unfold SecureState.readEncryptedJsonSync Storage.read
  dsimp only
  rw [if_neg (by omega), hparse]
  dsimp only [bind, Except.bind, pure, Except.pure]
  cases hsealed : SecureState.isEnvelope file with
  | false =>
    have hplain : ¬false = true := Bool.false_ne_true
    rw [if_pos rfl, if_neg hplain]
    by_cases hrequires : env.requires
    · rw [if_pos hrequires]
      exact (if_pos (decide_eq_true hrequires)).symm
    · rw [if_neg hrequires]
      exact (if_neg (by simpa [secureStorage] using hrequires)).symm
  | true =>
    rw [if_neg (by decide), if_pos rfl]
    rfl

/-- No write of the state fails. -/
def Storage.Writes (storage : Storage) : Prop := ∀ value, ∃ file, storage.wrap value = .ok file

/-- What is read of a written file is what was written. -/
def Storage.Reads (storage : Storage) : Prop :=
  ∀ value file read, storage.wrap value = .ok file → storage.read file = .ok read →
    read = value.json

/-- A storage without a key. -/
def plainStorage : Storage where
  wrap value := .ok value.json
  unwrap _ := .error "TAH_STATE_ENCRYPTION_KEY is required to decrypt google-ads-state"
  refusesPlain := false

theorem plainStorage_writes : plainStorage.Writes := fun value => ⟨value.json, rfl⟩

theorem plainStorage_reads : plainStorage.Reads := by
  intro value file read hfile hread
  obtain rfl := Except.ok.inj hfile
  unfold Storage.read at hread
  split at hread
  · cases hread
  · exact (Except.ok.inj hread).symm

/-- `STATE_FILE` and `CAPTURE_STATE_FILE`. -/
structure Files where
  state : File
  capture : File

/-! ## The state -/

/-- `AdsSyncState`. -/
structure AdsSyncState where
  campaignId : Option String := none
  customerId : Option String := none
  loginCustomerId : Option String := none
  clientId : Option String := none
  clientSecret : Option String := none
  developerToken : Option String := none
  refreshToken : Option String := none
  lastSuffix : Option String := none
  lastPushedAt : Option String := none
  lastError : Option String := none
  pushHistory : List JsValue := []

def toStringIf (value : JsValue) : String := value.text?.getD ""

/-- `normalizeSuffix`: without one leading `?`. -/
def normalizeSuffix (raw : JsValue) : String :=
  match (toStringIf raw).toList with
  | '?' :: cs => String.ofList cs
  | _ => toStringIf raw

def inferSuffixFromRedirectChain (chain : JsValue) : String :=
  match chain with
  | .array items => ExactSuffix.webSuffix (toStringIf ((items.getLast?.getD .undefined).get "url"))
  | _ => ""

/-- `text || other`. -/
def orText (text other : String) : String := if text = "" then other else text

def inferCurrentSuffix (state : JsValue) : String :=
  orText (normalizeSuffix (state.get "suffix")) <|
  orText (normalizeSuffix (state.get "lastSuffix")) <|
  orText (normalizeSuffix (state.get "finalQuery")) <|
  inferSuffixFromRedirectChain (state.get "capturedChain")

/-- The state in a value. -/
def syncState (raw : JsValue) : AdsSyncState where
  campaignId := some (toStringIf (raw.get "campaignId"))
  customerId := some (toStringIf (raw.get "customerId"))
  loginCustomerId := some (toStringIf (raw.get "loginCustomerId"))
  clientId := some (toStringIf (raw.get "clientId"))
  clientSecret := some (toStringIf (raw.get "clientSecret"))
  developerToken := some (toStringIf (raw.get "developerToken"))
  refreshToken := some (toStringIf (raw.get "refreshToken"))
  lastSuffix := some (inferCurrentSuffix raw)
  lastPushedAt := some (toStringIf (raw.get "lastPushedAt"))
  lastError := some (toStringIf (raw.get "lastError"))
  pushHistory := (raw.get "pushHistory").items

/-- Reading a property of `null` throws. -/
def nullError : String := "Cannot read properties of null"

def readState (storage : Storage) (files : Files) : Except String AdsSyncState :=
  match files.state with
  | .absent => .ok {}
  | .malformed => .error "Unexpected token in JSON"
  | .json file => do
    match ← storage.read file with
    | .null => throw nullError
    | raw => return syncState raw

/-- The own properties of a value, as `{ ...value }` copies them. -/
def ownFields : JsValue → List (String × JsValue)
  | .object fields => fields
  | .array items => items.zipIdx.map fun item => (toString item.2, item.1)
  | .string text => text.toList.zipIdx.map fun c => (toString c.2, .string (String.singleton c.1))
  | _ => []

def readTrackState (files : Files) : JsValue :=
  let state := files.state.parsed.getD (.object [("suffix", .string ""), ("history", .array [])])
  match files.capture.parsed with
  | some captureState =>
    .object (JsValue.spread (JsValue.spread [] (ownFields state)) (ownFields captureState))
  | none => state

def getLatestSuffix (files : Files) : Except String String :=
  match readTrackState files with
  | .null => .error nullError
  | state => .ok (inferCurrentSuffix state)

/-- The fields of a state that is written. -/
def stateFields (state : AdsSyncState) (mergedSuffix : String) : List (String × JsValue) := [
  ("campaignId", .ofOption state.campaignId),
  ("customerId", .ofOption state.customerId),
  ("loginCustomerId", .ofOption state.loginCustomerId),
  ("clientId", .ofOption state.clientId),
  ("clientSecret", .ofOption state.clientSecret),
  ("developerToken", .ofOption state.developerToken),
  ("refreshToken", .ofOption state.refreshToken),
  ("suffix", .string mergedSuffix),
  ("lastSuffix", .ofOption state.lastSuffix),
  ("lastPushedAt", .ofOption state.lastPushedAt),
  ("lastError", .ofOption state.lastError),
  ("pushHistory", .array state.pushHistory)]

/-- What `writeState` hands to `writeEncryptedJsonSync`. -/
def mergedState (files : Files) (state : AdsSyncState) : Except String JsValue :=
  match readTrackState files with
  | .null => .error nullError
  | trackState =>
    let trackSuffix := normalizeSuffix (trackState.get "suffix")
    let mergedSuffix := orText (normalizeSuffix (.ofOption state.lastSuffix)) trackSuffix
    .ok (.object (JsValue.spread (JsValue.spread [] (ownFields trackState))
      (stateFields state mergedSuffix)))

/-- A state that was written, and the file with it. -/
structure Written where
  value : JsValue
  file : JsValue

def writeState (storage : Storage) (files : Files) (state : AdsSyncState) :
    Except String Written := do
  let merged ← mergedState files state
  let file ← storage.wrap merged
  return ⟨merged, file⟩

/-! ## Configuration -/

def configFields : List String :=
  ["campaignId", "customerId", "loginCustomerId", "clientId", "clientSecret", "developerToken",
    "refreshToken"]

/-- `Object.prototype.hasOwnProperty.call(value, name)`. -/
def hasOwn (value : JsValue) (name : String) : Bool := name ∈ value.record.map (·.1)

/-- `trimText(value, max)`. -/
def trimText (value : JsValue) (max : Nat) : JsValue :=
  match value with
  | .string text => .string (sliceTo (Nat.max 1 (Nat.min max (utf16Length (trim text)))) (trim text))
  | _ => .string ""

/-- `toAction(raw, actions)`. -/
def toAction (raw : JsValue) (actions : List String) : String :=
  match raw with
  | .string action => if action ∈ actions then action else ""
  | _ => ""

def validateAdsPost (input : JsValue) : Except (List String) JsValue :=
  match input with
  | .object _ =>
    let action := toAction (input.get "action") ["configure", "refresh_suffix", "push_to_ads"]
    if action = "" then
      .error ["action must be one of: configure, refresh_suffix, push_to_ads"]
    else if action = "configure" then
      if configFields.any (hasOwn input) then
        .ok (.object [
          ("action", .string "configure"),
          ("campaignId", trimText (input.get "campaignId") 120),
          ("customerId", trimText (input.get "customerId") 30),
          ("loginCustomerId", trimText (input.get "loginCustomerId") 30),
          ("clientId", trimText (input.get "clientId") 200),
          ("clientSecret", trimText (input.get "clientSecret") 200),
          ("developerToken", trimText (input.get "developerToken") 200),
          ("refreshToken", trimText (input.get "refreshToken") 500)])
      else .error ["at least one configuration field is required"]
    else .ok (.object [("action", .string action)])
  | _ => .error ["payload must be an object"]

def maxText : Nat := 2048

/-- `toText(value, max)`. -/
def toText (value : JsValue) (max : Nat) : String :=
  match value with
  | .string text =>
    if trim text = "" then "" else sliceTo (Nat.max 1 (Nat.min max maxText)) (trim text)
  | _ => ""

/-- The value of a field after a configuration: unchanged where the body does not name it. -/
def configured (body : JsValue) (name : String) (max : Nat) (old : Option String) : Option String :=
  if hasOwn body name then
    let text := toText (body.get name) max
    if text = "" then none else some text
  else old

def applyConfiguredState (state : AdsSyncState) (body : JsValue) : AdsSyncState :=
  { state with
    campaignId := configured body "campaignId" 120 state.campaignId
    customerId := configured body "customerId" 30 state.customerId
    loginCustomerId := configured body "loginCustomerId" 30 state.loginCustomerId
    clientId := configured body "clientId" 200 state.clientId
    clientSecret := configured body "clientSecret" 200 state.clientSecret
    developerToken := configured body "developerToken" 200 state.developerToken
    refreshToken := configured body "refreshToken" 500 state.refreshToken }

def hasConfigPayload (body : JsValue) : Bool := configFields.any (hasOwn body)

/-- A text that is there and not empty. -/
def given (text : Option String) : Bool := text.any (· ≠ "")

def hasRequiredCredentials (state : AdsSyncState) : Bool :=
  given state.clientId && given state.clientSecret && given state.developerToken &&
    given state.refreshToken

def hasRequiredCampaign (state : AdsSyncState) : Bool :=
  given state.customerId && given state.campaignId

/-! ## Pushes -/

def noDashes (text : String) : String := String.ofList (text.toList.filter (· ≠ '-'))

/-- `latestRecentSuccessPush` returns this entry. -/
def isRecentSuccess (dateParse : String → JsNumber) (now : Int) (customerId campaignId : String)
    (entry : JsValue) : Except String Bool :=
  let customer := entry.get "customerId"
  let campaign := entry.get "campaignId"
  let recent : Bool :=
    if campaign.truthy ∧ ¬campaign.isText campaignId then false
    else
      match dateParse ((entry.get "at").orElse (.string "")).toText with
      | .finite ts => now - ts ≤ 58000
      | _ => false
  if ¬(entry.get "result").isText "success" then .ok false
  else if customer.truthy then
    match customer with
    | .string customer => .ok (noDashes customer = noDashes customerId && recent)
    | _ => .error "entry.customerId.replace is not a function"
  else .ok recent

/-- The first of some entries that `latestRecentSuccessPush` returns. -/
def firstRecentSuccess (dateParse : String → JsNumber) (now : Int) (customerId campaignId : String) :
    List JsValue → Except String (Option JsValue)
  | [] => .ok none
  | entry :: entries => do
    if ← isRecentSuccess dateParse now customerId campaignId entry then return some entry
    firstRecentSuccess dateParse now customerId campaignId entries

def latestRecentSuccessPush (dateParse : String → JsNumber) (now : Int) (history : List JsValue)
    (customerId campaignId : String) : Except String (Option JsValue) :=
  firstRecentSuccess dateParse now customerId campaignId history.reverse

/-- What the updater does: its result, or the error thrown. -/
inductive Update where
  | updated (result : JsValue)
  | apiError (message : String) (requestId : JsValue) (retryable : Bool)
  | tooSoon (message : String) (retryAfterMs : Nat)
  | failed (message : String)

def Update.message : Update → String
  | .updated _ => ""
  | .apiError message _ _ => message
  | .tooSoon message _ => message
  | .failed message => message

def Update.requestId : Update → JsValue
  | .apiError _ requestId _ => requestId
  | _ => .undefined

structure Response where
  status : Nat
  body : JsValue

/-- An update of a campaign. -/
structure Push where
  customerId : String
  campaignId : String
  suffix : String
  deriving DecidableEq

/-- What a POST writes, the update it made and its answer; without an answer it throws. -/
structure Answer where
  written : Option Written := none
  response : Option Response := none
  updated : Option Push := none

def Answer.thrown : Answer := {}

/-- An answer that writes nothing. -/
def Answer.refused (status : Nat) (body : JsValue) : Answer := { response := some ⟨status, body⟩ }

/-- What the process is configured with, and `Date.parse`. -/
structure Config where
  storage : Storage
  dateParse : String → JsNumber
  maxHistory : Nat

/-- A POST: its body, the time and what the updater does if it is called. -/
structure Post where
  body : JsValue
  now : Int
  time : String
  update : Update

/-- The last entries of a history. -/
def lastEntries (count : Nat) (history : List JsValue) : List JsValue :=
  history.drop (history.length - count)

section Post

variable (config : Config) (files : Files) (post : Post)

/-- `writeState(state)` and the answer after it. -/
def answered (state : AdsSyncState) (status : Nat) (body : JsValue) : Answer :=
  match writeState config.storage files state with
  | .ok written => { written := some written, response := some ⟨status, body⟩ }
  | .error _ => .thrown

def configure (state : AdsSyncState) (body : JsValue) : Answer :=
  if hasConfigPayload body then
    let state := applyConfiguredState state body
    answered config files state 200 (.object [
      ("ok", .bool true),
      ("campaignId", .ofOption state.campaignId),
      ("customerId", .ofOption state.customerId),
      ("hasCredentials", .bool (hasRequiredCredentials state))])
  else .refused 400 (.object [("error", .string "No configuration fields provided")])

def refreshSuffix (state : AdsSyncState) : Answer :=
  match getLatestSuffix files with
  | .error _ => .thrown
  | .ok suffix =>
    let lastError :=
      if suffix = "" then
        some "No suffix captured yet — send traffic through /api/track first."
      else none
    answered config files { state with lastSuffix := some suffix, lastError } 200 (.object [
      ("ok", .bool true), ("suffix", .string suffix)])

/-- A push that cannot be tried. -/
def pushRefused (state : AdsSyncState) (error : String) : Answer :=
  answered config files { state with lastError := some error } 400 (.object [
    ("ok", .bool false), ("error", .string error)])

/-- The entry of a push in the history. -/
def pushEntry (state : AdsSyncState) (time suffix : String) (requestId : JsValue) (result : String)
    (error : JsValue) : JsValue :=
  .object [("at", .string time), ("suffix", .string suffix),
    ("customerId", .ofOption state.customerId), ("campaignId", .ofOption state.campaignId),
    ("requestId", requestId), ("result", .string result), ("error", error)]

/-- What is caught of a push. -/
def pushCaught (state : AdsSyncState) (suffix : String) (error : Update) : Answer :=
  let entry := pushEntry state post.time suffix error.requestId "error" (.string error.message)
  let state := { state with
    lastError := some error.message
    pushHistory := lastEntries config.maxHistory (state.pushHistory ++ [entry]) }
  match error with
  | .tooSoon message retryAfterMs =>
    let retryAfter := max 1 ((retryAfterMs + 999) / 1000)
    answered config files state 429 (.object [
      ("ok", .bool false), ("error", .string message), ("retryAfter", .ofNat retryAfter)])
  | .apiError message requestId retryable =>
    answered config files state (if retryable then 503 else 502) (.object [
      ("ok", .bool false), ("error", .string message), ("requestId", requestId)])
  | error => answered config files state 502 (.object [
      ("ok", .bool false), ("error", .string error.message), ("requestId", .undefined)])

/-- A push that calls the updater. -/
def pushSuffix (state : AdsSyncState) (suffix : String) : Answer :=
  match post.update with
  | .updated result =>
    let entry := pushEntry state post.time suffix (result.get "requestId") "success" .undefined
    let state := { state with
      lastSuffix := some suffix
      lastPushedAt := some post.time
      lastError := none
      pushHistory := lastEntries config.maxHistory (state.pushHistory ++ [entry]) }
    let updated := some ⟨state.customerId.getD "", state.campaignId.getD "", suffix⟩
    match writeState config.storage files state with
    | .ok written => {
        written := some written
        response := some ⟨200, .object [
          ("ok", .bool true), ("pushed", .bool true), ("suffix", .string suffix),
          ("at", .string post.time), ("result", result)]⟩
        updated }
    | .error message => { pushCaught config files post state suffix (.failed message) with updated }
  | error => pushCaught config files post state suffix error

def pushToAds (state : AdsSyncState) : Answer :=
  match getLatestSuffix files with
  | .error _ => .thrown
  | .ok suffix =>
    if suffix = "" then
      pushRefused config files state
        "No suffix to push — run traffic first to capture a redirect chain."
    else if ¬hasRequiredCampaign state then
      pushRefused config files state "Campaign/customer IDs are not fully configured."
    else if ¬hasRequiredCredentials state then
      pushRefused config files state "Google Ads credentials are incomplete."
    else
      match latestRecentSuccessPush config.dateParse post.now state.pushHistory
        (state.customerId.getD "") (state.campaignId.getD "") with
      | .error _ => .thrown
      | .ok (some recent) =>
        answered config files { state with lastError := none, lastSuffix := some suffix } 200
          (.object [("ok", .bool true), ("skipped", .bool true), ("at", recent.get "at"),
            ("suffix", .string suffix), ("note", .string "Recent identical suffix already pushed.")])
      | .ok none => pushSuffix config files post state suffix

/-- `handlePost`, under the `ads-state` lock. -/
def handlePost : Answer :=
  match validateAdsPost post.body with
  | .error errors => .refused 400 (.object [("error", .string "Invalid or missing action"),
      ("details", .string (String.intercalate "; " errors))])
  | .ok body =>
    match readState config.storage files with
    | .error _ => .thrown
    | .ok state =>
      if (body.get "action").isText "configure" then configure config files state body
      else if (body.get "action").isText "refresh_suffix" then refreshSuffix config files state
      else if (body.get "action").isText "push_to_ads" then pushToAds config files post state
      else .refused 400 (.object [("error", .string "Unsupported action")])

end Post

/-! ## What is written -/

/-- The keys the route writes beside the configuration. -/
def ownKeys : List String := ["suffix", "lastSuffix", "lastPushedAt", "lastError", "pushHistory"]

/-- What the track state has under a key, as it is written. -/
def trackValue (files : Files) (name : String) : JsValue :=
  JsValue.jsonField
    (JsValue.lookup (JsValue.spread [] (ownFields (readTrackState files))) name)

variable {config : Config} {files : Files}

/-- What `writeState` hands on, where the track state can be read. -/
def mergedFields (files : Files) (state : AdsSyncState) : List (String × JsValue) :=
  JsValue.spread (JsValue.spread [] (ownFields (readTrackState files)))
    (stateFields state (orText (normalizeSuffix (.ofOption state.lastSuffix))
      (normalizeSuffix ((readTrackState files).get "suffix"))))

theorem mergedState_eq (h : readTrackState files ≠ .null) (state : AdsSyncState) :
    mergedState files state = .ok (.object (mergedFields files state)) := by
  unfold mergedState mergedFields
  cases htrack : readTrackState files with
  | null => exact absurd htrack h
  | undefined => rfl
  | bool value => rfl
  | number value => rfl
  | string value => rfl
  | array items => rfl
  | object fields => rfl

theorem stateFields_names (state : AdsSyncState) (suffix : String) :
    (stateFields state suffix).map (·.1) = configFields ++ ownKeys := rfl

/-- A key of the written state: the state's own, or else the track state's. -/
theorem get_merged (files : Files) (state : AdsSyncState) (name : String) :
    (JsValue.object (mergedFields files state)).json.get name =
      if name ∈ configFields ++ ownKeys then
        JsValue.jsonField (JsValue.lookup (stateFields state
          (orText (normalizeSuffix (.ofOption state.lastSuffix))
            (normalizeSuffix ((readTrackState files).get "suffix")))) name)
      else trackValue files name := by
  have hnames (suffix : String) : ((stateFields state suffix).map (·.1)).Nodup := by
    rw [stateFields_names]
    decide
  have hmerged : ((mergedFields files state).map (·.1)).Nodup :=
    JsValue.spread_names _ (JsValue.spread_names _ List.nodup_nil)
  rw [JsValue.get_json hmerged]
  unfold mergedFields
  rw [JsValue.lookup_spread (hnames _), stateFields_names]
  split <;> rfl

theorem writeState_eq {storage : Storage} (htrack : readTrackState files ≠ .null)
    {state : AdsSyncState} {file : JsValue}
    (hfile : storage.wrap (.object (mergedFields files state)) = .ok file) :
    writeState storage files state = .ok ⟨.object (mergedFields files state), file⟩ := by
  unfold writeState
  rw [mergedState_eq htrack]
  dsimp only [bind, Except.bind, pure, Except.pure]
  rw [hfile]

/-- Where the state can be written, it is. -/
theorem answered_eq (hwrites : config.storage.Writes) (htrack : readTrackState files ≠ .null)
    (state : AdsSyncState) (status : Nat) (body : JsValue) :
    ∃ file, config.storage.wrap (.object (mergedFields files state)) = .ok file ∧
      answered config files state status body =
        { written := some ⟨.object (mergedFields files state), file⟩
          response := some ⟨status, body⟩ } := by
  obtain ⟨file, hfile⟩ := hwrites (.object (mergedFields files state))
  refine ⟨file, hfile, ?_⟩
  unfold answered
  rw [writeState_eq htrack hfile]

end LinkSuffix.AdsRoute
