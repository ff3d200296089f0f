import LinkSuffix.Js.Value
import LinkSuffix.Store.Enrollment

/-!
# What the legacy migration reads

`tooling/migrate-legacy-state.mjs` up to its transaction: every object of the legacy documents that
names an account, a campaign and a record is a candidate, with the fields of the objects around it
as defaults.

* `visit`, `LegacySources.candidates`: the walk over the sources and the `candidates` map.
* `LegacySources.applied`: `jsonb_each(source.payload->'applied')` of the script bridge's row.
-/

namespace LinkSuffix

open Lib

namespace Legacy

/-! ## Candidates -/

/-- The fields of an object, or of an object and those around it. -/
abbrev Fields := List (String × JsValue)

/-- A value of the `candidates` map. -/
structure LegacyCandidate where
  campaignRecordId : String
  campaignName : String
  managerCustomerId : String
  customerId : String
  googleCampaignId : String
  shardId : String
  suffix : String
  version : JsNumber
  deriving DecidableEq

/-- `digits`. -/
def digits (value : JsValue) : String :=
  String.ofList ((value.or (.string "")).toText.toList.filter Char.isDigit)

/-- The test of `first`. -/
def present (value : JsValue) : Bool := !(value.isNullish || value.isText "")

/-- `first`. -/
def first (object : Fields) (keys : List String) : JsValue :=
  ((keys.map (JsValue.lookup object)).find? present).getD (.string "")

/-- The key of the map. -/
def mapKey (managerCustomerId customerId googleCampaignId : String) : String :=
  managerCustomerId ++ ":" ++ customerId ++ ":" ++ googleCampaignId

def LegacyCandidate.key (k : LegacyCandidate) : String :=
  mapKey k.managerCustomerId k.customerId k.googleCampaignId

/-- The candidate an object is, with the fields it inherits. -/
def candidateOf (merged : Fields) : Option LegacyCandidate :=
  let customerId := digits (first merged ["googleAdsCustomerId", "customerId", "adsCustomerId"])
  let googleCampaignId := digits
    (first merged ["googleAdsCampaignId", "googleCampaignId", "campaignGoogleId", "adsCampaignId"])
  let campaignRecordId :=
    (first merged ["campaignRecordId", "savedCampaignId", "recordId", "id"]).toText
  if customerId ≠ "" ∧ googleCampaignId ≠ "" ∧ campaignRecordId ≠ "" then
    some {
      campaignRecordId := campaignRecordId
      campaignName := ((first merged ["campaignName", "name"]).or (.string campaignRecordId)).toText
      managerCustomerId :=
        digits (first merged ["managerCustomerId", "loginCustomerId", "mccId"])
      customerId := customerId
      googleCampaignId := googleCampaignId
      shardId := ((first merged ["shardId", "fleetShardId"]).or (.string "default")).toText
      suffix := (first merged ["exactSuffix", "currentSuffix", "latestSuffix", "suffixCaptured",
        "desiredSuffix", "finalUrlSuffix", "suffix"]).toText
      version := ((first merged ["lastMeshVersion", "meshQueuedVersion", "version"]).or
        (.number (.finite 1))).toNumber }
  else none

/-- `candidates.set(key, …)`. -/
def setCandidate (merged : Fields) (candidates : List LegacyCandidate) : List LegacyCandidate :=
  match candidateOf merged with
  | none => candidates
  | some k => upsertKey LegacyCandidate.key k candidates

mutual

/-- `visit`. -/
def visit (inherited : Fields) (candidates : List LegacyCandidate) :
    JsValue → List LegacyCandidate
  | .array items => visitItems inherited candidates items
  | .object fields =>
    visitFields (JsValue.spread inherited fields)
      (setCandidate (JsValue.spread inherited fields) candidates) fields
  | _ => candidates

/-- The items of an array. -/
def visitItems (inherited : Fields) (candidates : List LegacyCandidate) :
    List JsValue → List LegacyCandidate
  | [] => candidates
  | item :: items => visitItems inherited (visit inherited candidates item) items

/-- The values of an object. -/
def visitFields (merged : Fields) (candidates : List LegacyCandidate) :
    List (String × JsValue) → List LegacyCandidate
  | [] => candidates
  | (_, child) :: fields => visitFields merged (visit merged candidates child) fields

end

/-! ## Sources -/

/-- `tah_script_bridge_state`: its one row, as `to_jsonb` gives it, if it has one. -/
inductive BridgeTable where
  | missing
  | empty
  | row (value : JsValue)

/-- What a run of the migration finds. -/
structure LegacySources where
  /-- The legacy files that can be read and parsed. -/
  documents : List JsValue
  /-- The rows of `tah_control_state`. -/
  controlRows : List JsValue
  bridge : BridgeTable

def BridgeTable.rows : BridgeTable → List JsValue
  | .row value => [value]
  | .missing | .empty => []

namespace LegacySources

/-- `candidates.values()` after every source is visited. -/
def candidates (sources : LegacySources) : List LegacyCandidate :=
  (sources.documents ++ sources.controlRows ++ sources.bridge.rows).foldl (visit []) []

/-- `jsonb_each(source.payload->'applied')`: no rows without the key, and an error for a value that
is no object. -/
def applied (sources : LegacySources) : Except StoreError Fields :=
  match sources.bridge with
  | .missing => .error (sqlError "42P01")
  | .empty => .ok []
  | .row value =>
    match (value.get "payload").get "applied" with
    | .undefined => .ok []
    | .object fields => .ok fields
    | _ => .error (sqlError "22023")

end LegacySources

/-! ## The applied values -/

/-- PostgreSQL's conversions of legacy values. -/
structure Postgres where
  /-- `text::timestamptz`, if the text is one. -/
  timestamptz : String → Option Nat
  /-- The text of a `jsonb` number, boolean, array or object. -/
  jsonbText : JsValue → String

/-- `value->>name`. -/
def textField (pg : Postgres) (value : JsValue) (name : String) : Option String :=
  match value.get name with
  | .undefined => none
  | .null => none
  | .string text => some text
  | other => some (pg.jsonbText other)

/-- `legacy.applied->>'suffix'` for a campaign record. -/
def appliedSuffix (pg : Postgres) (applied : Fields) (campaignRecordId : String) : Option String :=
  textField pg (JsValue.lookup applied campaignRecordId) "suffix"

/-- `COALESCE((legacy.applied->>'verifiedAt')::timestamptz,now())`, if the text can be cast. -/
def verifiedAt (pg : Postgres) (applied : Fields) (now : Nat) (campaignRecordId : String) :
    Option Nat :=
  match textField pg (JsValue.lookup applied campaignRecordId) "verifiedAt" with
  | none => some now
  | some text => pg.timestamptz text

/-! ## What a candidate stands for -/

namespace LegacyCandidate

/-- `hash(…).slice(0, 40)`. -/
def targetId (cfg : Config) (k : LegacyCandidate) : String := sliceTo 40 (cfg.digest k.key)

/-- `Number.isSafeInteger(candidate.version) ? candidate.version : 1`. -/
def storedVersion (k : LegacyCandidate) : Int :=
  match k.version.integer with
  | some version => if version.natAbs < 2 ^ 53 then version else 1
  | none => 1

/-- The inserted row of `tah_campaign_targets`. -/
def row (cfg : Config) (k : LegacyCandidate) : CampaignTarget where
  targetId := k.targetId cfg
  campaignRecordId := k.campaignRecordId
  campaignName := k.campaignName
  managerCustomerId := k.managerCustomerId
  customerId := k.customerId
  googleCampaignId := k.googleCampaignId
  shardId := k.shardId
  minDeliveryIntervalMs := 58000

/-- The inserted row of `tah_suffix_captures`. -/
def captureRow (cfg : Config) (captureId now : Nat) (k : LegacyCandidate) : SuffixCapture where
  captureId := captureId
  targetId := k.targetId cfg
  version := k.storedVersion
  exactSuffix := k.suffix
  suffixHash := cfg.digest k.suffix
  sourceRunId := some "legacy-migration"
  capturedAt := now

end LegacyCandidate

/-- No two candidates are one saved campaign or one target. -/
structure LegacySources.Consistent (cfg : Config) (sources : LegacySources) : Prop where
  records : (sources.candidates.map (·.campaignRecordId)).Nodup
  targets : (sources.candidates.map (LegacyCandidate.targetId cfg)).Nodup

example : (LegacySources.candidates
    { documents := [.object [("customerId", .string "222-222-2222"), ("version", .string "7"),
        ("campaigns", .array [.object [("id", .string "a"), ("googleCampaignId", .string "33")]])]]
      controlRows := [], bridge := .empty }).map (fun k => (k.key, k.storedVersion)) =
    [(":2222222222:33", 7)] := by decide +kernel

end Legacy

end LinkSuffix
