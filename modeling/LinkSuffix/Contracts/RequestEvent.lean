import LinkSuffix.Js.Json

/-!
# Request events

The records of `types.ts` that a journey leaves, and the values they are for the validator. The
fields of an event that no modelled function reads are left out.
-/

namespace LinkSuffix

/-- `RawRequestRecord`. -/
structure RawRequestRecord where
  url : String
  method : String
  status : JsNumber
  timeMs : JsNumber
  headers : List (String × String)
  taSignal : List (String × String)
  bodySnippet : Option String := none
  deriving DecidableEq

/-- A hop of a challenge. -/
structure ChallengeHop where
  source : String
  target : String
  status : JsNumber
  time : String

/-- `RequestEvent['challenge']`. -/
structure EventChallenge where
  id : Option String := none
  vendor : String
  challengeType : String
  referenceId : Option String := none
  status : String
  redirects : List ChallengeHop

/-- `RequestEvent`. A policy is any object. -/
structure RequestEvent where
  redirectCapture : Option (List (String × JsValue)) := none
  repeatIndex : JsNumber
  geoResolved : JsValue := .undefined
  proxyMode : String
  sessionId : Option String := none
  finalLandingUrl : Option String := none
  events : List RawRequestRecord
  challenge : Option EventChallenge := none
  finalVerdict : String
  error : Option String := none

/-- The fields of a record. -/
def RawRequestRecord.fields (item : RawRequestRecord) : List (String × JsValue) :=
  [("url", .string item.url), ("method", .string item.method), ("status", .number item.status),
    ("time_ms", .number item.timeMs), ("headers", JsValue.ofStrings item.headers),
    ("ta_signal", JsValue.ofStrings item.taSignal),
    ("body_snippet", JsValue.ofOption item.bodySnippet)]

def ChallengeHop.toValue (hop : ChallengeHop) : JsValue :=
  .object [("from", .string hop.source), ("to", .string hop.target), ("status", .number hop.status),
    ("at", .string hop.time)]

def EventChallenge.fields (challenge : EventChallenge) : List (String × JsValue) :=
  [("id", JsValue.ofOption challenge.id), ("vendor", .string challenge.vendor),
    ("challenge_type", .string challenge.challengeType),
    ("reference_id", JsValue.ofOption challenge.referenceId), ("status", .string challenge.status),
    ("redirects", .array (challenge.redirects.map ChallengeHop.toValue))]

/-- `event.challenge`. -/
def RequestEvent.challengeValue (event : RequestEvent) : JsValue :=
  match event.challenge with
  | none => .undefined
  | some challenge => .object challenge.fields

/-- `event.redirect_capture`. -/
def RequestEvent.policyValue (event : RequestEvent) : JsValue :=
  match event.redirectCapture with
  | none => .undefined
  | some policy => .object policy

/-- The event as a value. -/
def RequestEvent.toValue (event : RequestEvent) : JsValue :=
  .object [("redirect_capture", event.policyValue), ("repeat_index", .number event.repeatIndex),
    ("geo_resolved", event.geoResolved), ("proxy_mode", .string event.proxyMode),
    ("session_id", JsValue.ofOption event.sessionId),
    ("final_landing_url", JsValue.ofOption event.finalLandingUrl),
    ("events", .array (event.events.map fun item => .object item.fields)),
    ("challenge", event.challengeValue), ("final_verdict", .string event.finalVerdict),
    ("error", JsValue.ofOption event.error)]

/-- `fields[name]` of an object of texts. -/
def textField (fields : List (String × String)) (name : String) : Option String :=
  (fields.find? fun field => field.1 = name).map (·.2)

/-- `item.ta_signal?.main_document === 'true'`. -/
def RawRequestRecord.isMainDocument (item : RawRequestRecord) : Bool :=
  textField item.taSignal "main_document" = some "true"

/-- No two headers of a main document have the same name up to case. -/
def RequestEvent.DistinctHeaders (event : RequestEvent) : Prop :=
  ∀ item ∈ event.events, (item.headers.map fun header => jsLower header.1).Nodup

end LinkSuffix
