import LinkSuffix.Contracts.Reading
import LinkSuffix.Worker.BrowserJourney

/-!
# The evidence of a browser journey

The validator judges a journey by its main documents, and by the last of them. Their records are
made when their bodies are read, in the order the reads end; a record past the limit is never made,
one whose read has not ended when the event is yielded is missing, and a header can replace its
status.

* `edgeStops`, `observedMain`: what a run is asked for, read off its events.
* `FaithfulEvidence`: the event is refused for the first stop, and else records what was observed.
* `RecordsAgree`, `Attended`: the events that keep it so.
* `Resumed`: what the journey leaves to its listeners. `Heard`: what an event does to the records.
* `Refusing`, `RecordedInOrder`: the invariants.
* **`evidence_faithful`**: under these conditions the evidence of every run is faithful.
* `landing_lost`: a journey that ends before the body of its landing page is read.
-/

namespace LinkSuffix

open JsValue Lib EventSystem

variable {platform : Platform} {stringify : List JourneyHop → String} {cfg : JourneyConfig}
  {s s' s'' : JourneyState} {input : CallInput}

/-! ## What the journey leaves to its listeners -/

/-- A journey stopped for its transport has the error of an upstream failure. -/
def TransportShown (s : JourneyState) : Prop :=
  s.transportStopped = true → s.rejection = none →
    s.upstreamTransportError.isSome = true ∧ s.destinationResponded = false ∧
      ∃ failure : ProxyTransportError, s.error = some failure.message

/-- The journey goes on: its records are only noted on. -/
structure Resumed (s s' : JourneyState) : Prop where
  replies : List.Forall₂ SameReply s.allEvents s'.allEvents
  tasks : s'.responseTasks = s.responseTasks
  rejection : s'.rejection = s.rejection
  stopped : s.transportStopped = true → s'.transportStopped = true
  shown : TransportShown s → TransportShown s'

theorem Resumed.refl (s : JourneyState) : Resumed s s :=
  ⟨List.forall₂_same.mpr fun item _ => SameReply.refl item, rfl, rfl, id, id⟩

theorem Resumed.trans (h : Resumed s s') (k : Resumed s' s'') : Resumed s s'' :=
  ⟨replies_trans h.replies k.replies, k.tasks.trans h.tasks, k.rejection.trans h.rejection,
    k.stopped ∘ h.stopped, k.shown ∘ h.shown⟩

/-- A change of the phase and the landing alone. -/
theorem Resumed.of_eq (hevents : s'.allEvents = s.allEvents)
    (htasks : s'.responseTasks = s.responseTasks) (hrejection : s'.rejection = s.rejection)
    (hstopped : s'.transportStopped = s.transportStopped)
    (hupstream : s'.upstreamTransportError = s.upstreamTransportError)
    (hresponded : s'.destinationResponded = s.destinationResponded) (herror : s'.error = s.error) :
    Resumed s s' where
  replies := by
    rw [hevents]
    exact List.forall₂_same.mpr fun item _ => SameReply.refl item
  tasks := htasks
  rejection := hrejection
  stopped h := by rwa [hstopped]
  shown h := by
    unfold TransportShown
    rwa [hstopped, hrejection, hupstream, hresponded, herror]

theorem settleTasks_resumed (s : JourneyState) : Resumed s (settleTasks s) :=
  .of_eq rfl rfl rfl rfl rfl rfl rfl

theorem visitPage_resumed (s : JourneyState) (page : Nat) : Resumed s (visitPage cfg s page) := by
  unfold visitPage
  split
  · exact .of_eq rfl rfl rfl rfl rfl rfl rfl
  · exact settleTasks_resumed s

theorem actOnPage_resumed (s : JourneyState) (page : Nat) : Resumed s (actOnPage s page) := by
  unfold actOnPage
  split
  · exact settleTasks_resumed s
  · exact .of_eq rfl rfl rfl rfl rfl rfl rfl

theorem pageLoaded_resumed (s : JourneyState) (page : Nat) :
    Resumed s (pageLoaded platform cfg s input page) := by
  unfold pageLoaded
  split
  · exact settleTasks_resumed s
  · split <;> exact .of_eq rfl rfl rfl rfl rfl rfl rfl

/-- Without a destination's response an upstream failure gives the message. -/
theorem transportMessage_shown (hupstream : s.upstreamTransportError.isSome = true)
    (hresponded : s.destinationResponded = false) :
    ∃ failure : ProxyTransportError, s.transportMessage = some failure.message := by
  obtain ⟨failure, hfailure⟩ := Option.isSome_iff_exists.mp hupstream
  refine ⟨failure, ?_⟩
  unfold JourneyState.transportMessage
  rw [hresponded, hfailure]
  rfl

theorem rememberJourneyFailure_resumed {cause : String}
    (h : rememberJourneyFailure s cause = some s') : Resumed s s' := by
  unfold rememberJourneyFailure at h
  split at h
  · cases h
  · obtain rfl := Option.some.inj h
    refine ⟨(Resumed.refl s).replies, rfl, rfl, id, fun hshown hstopped hrejection => ?_⟩
    obtain ⟨hupstream, hresponded, -⟩ := hshown hstopped hrejection
    obtain ⟨failure, hmessage⟩ := transportMessage_shown hupstream hresponded
    refine ⟨hupstream, hresponded, failure, ?_⟩
    have hnone : s.rejection = none := hrejection
    rw [hnone, hmessage]
    rfl

theorem visitFailed_resumed (s : JourneyState) (cause : String) :
    Resumed s (visitFailed s cause) := by
  unfold visitFailed
  cases h : rememberJourneyFailure s cause with
  | none => exact .of_eq rfl rfl rfl rfl rfl rfl rfl
  | some s' => exact (rememberJourneyFailure_resumed h).trans (settleTasks_resumed s')

theorem openingFailed_resumed (s : JourneyState) (cause : String) :
    Resumed s (openingFailed cfg s cause) := by
  unfold openingFailed
  split
  · rename_i rejection hrejection
    refine ⟨(Resumed.refl s).replies, rfl, rfl, id, fun _ _ hnone => ?_⟩
    have hnone : s.rejection = none := hnone
    rw [hrejection] at hnone
    cases hnone
  · rename_i message _ hmessage
    refine ⟨(Resumed.refl s).replies, rfl, rfl, fun _ => rfl, fun _ _ _ => ?_⟩
    unfold JourneyState.transportMessage at hmessage
    split at hmessage
    · cases hmessage
    · rename_i hresponded
      obtain ⟨failure, hfailure, rfl⟩ := Option.map_eq_some_iff.mp hmessage
      have hupstream : s.upstreamTransportError.isSome = true := by rw [hfailure]; rfl
      exact ⟨hupstream, Bool.eq_false_of_not_eq_true hresponded, failure, rfl⟩
  · rename_i _ hmessage
    split
    · split
      · exact settleTasks_resumed s
      · exact .of_eq rfl rfl rfl rfl rfl rfl rfl
    · refine ⟨(Resumed.refl s).replies, rfl, rfl, id, fun hshown hstopped hnone => ?_⟩
      obtain ⟨hupstream, hresponded, -⟩ := hshown hstopped hnone
      obtain ⟨failure, hfailure⟩ := transportMessage_shown hupstream hresponded
      rw [hmessage] at hfailure
      cases hfailure

theorem noteChallenge_reply (s : JourneyState) (found : DetectedChallenge)
    (item : RawRequestRecord) : SameReply item (noteChallenge stringify s found item) :=
  (((noteSignal_reply (by decide) (by decide) (some found.vendor) item).trans
    (noteSignal_reply (by decide) (by decide) (some found.challengeType) _)).trans
    (noteSignal_reply (by decide) (by decide) (found.referenceId.filter (· ≠ "")) _)).trans
    (noteSignal_reply (by decide) (by decide) (some (stringify s.redirectChain)) _)

theorem noteBehavior_reply (input : CallInput) (item : RawRequestRecord) :
    SameReply item (noteBehavior cfg input item) :=
  (((noteSignal_reply (by decide) (by decide) (some "native") item).trans
    (noteSignal_reply (by decide) (by decide)
      (some (if cfg.useWebKit then "webkit" else "chromium")) _)).trans
    (noteSignal_reply (by decide) (by decide) (some input.behaviorFrames) _)).trans
    (noteSignal_reply (by decide) (by decide) (some input.behaviorEvents) _)

theorem noteAffiliate_reply (clickId sourceUrl : String) (item : RawRequestRecord) :
    SameReply item (noteAffiliate clickId sourceUrl item) :=
  ((noteSignal_reply (by decide) (by decide) (some "irclickid") item).trans
    (noteSignal_reply (by decide) (by decide) (some clickId) _)).trans
    (noteSignal_reply (by decide) (by decide) (some sourceUrl) _)

theorem challenged_resumed (s : JourneyState) (found : DetectedChallenge) (id : Option String)
    (status : String) : Resumed s (challenged stringify s found id status) :=
  ⟨replies_noteLastMain (noteChallenge_reply s found) s.allEvents, rfl, rfl,
    fun hstopped => hstopped, fun hshown => hshown⟩

theorem intervened_resumed (s : JourneyState) (page : Nat) (found : DetectedChallenge) :
    Resumed s (intervened stringify s input page found) := by
  unfold intervened
  dsimp only
  split
  · exact (challenged_resumed s found _ _).trans (actOnPage_resumed _ page)
  · exact (challenged_resumed s found _ _).trans (settleTasks_resumed _)

/-! ## The event that a journey yields -/

theorem concluded_resumed (s : JourneyState) : Resumed s (concluded platform s input) := by
  refine ⟨?_, rfl, rfl, id, id⟩
  unfold concluded
  dsimp only
  split
  · exact (Resumed.refl s).replies
  · split
    · exact (Resumed.refl s).replies
    · exact replies_noteLastMain (noteAffiliate_reply _ _) s.allEvents

/-- The journey goes on to a state that an event shows, if one is yielded. -/
structure Shows (s : JourneyState) (r : JourneyState × JourneyReply) : Prop where
  resumed : Resumed s r.1
  event : ∀ event, r.2 = .yielded event → event.events = r.1.allEvents ∧ event.error = r.1.error

theorem Shows.silent (h : Resumed s s') : Shows s (s', .none) := ⟨h, fun _ h => nomatch h⟩

theorem Shows.after {r : JourneyState × JourneyReply} (h : Shows s' r) (k : Resumed s s') :
    Shows s r := ⟨k.trans h.resumed, h.event⟩

theorem conclude_shows (s : JourneyState) : Shows s (conclude platform cfg s input) := by
  refine ⟨concluded_resumed s, fun event h => ?_⟩
  obtain rfl := JourneyReply.yielded.inj h
  exact ⟨rfl, rfl⟩

theorem concludeFailed_shows (s : JourneyState) (cause : String) :
    Shows s (concludeFailed platform cfg s input cause) := by
  unfold concludeFailed
  cases h : rememberJourneyFailure s cause with
  | none => exact .silent (.of_eq rfl rfl rfl rfl rfl rfl rfl)
  | some s' => exact (conclude_shows s').after (rememberJourneyFailure_resumed h)

theorem pollSuffix_shows (s : JourneyState) : Shows s (pollSuffix platform cfg s input) := by
  unfold pollSuffix
  split
  · exact conclude_shows s
  · rename_i hrunning
    split
    · split
      · exact conclude_shows s
      · refine (conclude_shows _).after
          ⟨(Resumed.refl s).replies, rfl, rfl, id, fun _ hstopped _ => ?_⟩
        have hstopped : s.transportStopped = true := hstopped
        simp [JourneyState.stopped, hstopped] at hrunning
    · split
      · exact (conclude_shows _).after (.of_eq rfl rfl rfl rfl rfl rfl rfl)
      · exact .silent (.of_eq rfl rfl rfl rfl rfl rfl rfl)

theorem visitsSettled_shows (s : JourneyState) : Shows s (visitsSettled platform cfg s input) := by
  have hnoted : Resumed s { s with allEvents := s.allEvents.map (noteBehavior cfg input) } :=
    ⟨replies_map (noteBehavior_reply input) s.allEvents, rfl, rfl, id, id⟩
  unfold visitsSettled
  dsimp only
  split
  · exact (pollSuffix_shows _).after hnoted
  · split
    · exact .silent (hnoted.trans (.of_eq rfl rfl rfl rfl rfl rfl rfl))
    · exact (conclude_shows _).after hnoted

/-- **The journey goes on to a state that its event shows**, one case for each call it awaits. -/
theorem resumeJourney_shows (platform : Platform) (stringify : List JourneyHop → String)
    (cfg : JourneyConfig) (s : JourneyState) (input : CallInput) :
    Shows s (resumeJourney platform stringify cfg s input) := by
  unfold resumeJourney
  split
  · exact .silent (.of_eq rfl rfl rfl rfl rfl rfl rfl)
  · exact .silent (openingFailed_resumed s _)
  · exact .silent (settleTasks_resumed s)
  · exact .silent (visitFailed_resumed s _)
  · split
    · exact .silent (pageLoaded_resumed s _)
    · exact .silent (Resumed.refl s)
  · split
    · exact .silent (actOnPage_resumed s _)
    · split
      · exact .silent (.of_eq rfl rfl rfl rfl rfl rfl rfl)
      · exact .silent ((challenged_resumed s _ _ _).trans (settleTasks_resumed _))
  · exact .silent (visitFailed_resumed s _)
  · exact .silent (intervened_resumed s _ _)
  · exact .silent (visitFailed_resumed s _)
  · exact .silent (visitPage_resumed s _)
  · exact .silent (visitFailed_resumed s _)
  · split
    · exact visitsSettled_shows s
    · exact .silent (Resumed.refl s)
  · exact pollSuffix_shows s
  · split
    · exact conclude_shows s
    · exact concludeFailed_shows s _
  · exact conclude_shows s
  · exact concludeFailed_shows s _
  · exact .silent (Resumed.refl s)

/-! ## What a run is asked for -/

section Claim

variable (platform : Platform) (stringify : List JourneyHop → String) (cfg : JourneyConfig)

/-- What `stopAtEdge` finds in an event. -/
def edgeStops (s : JourneyState) : JourneyEvent → List CaptureRejection
  | .route request timeMs =>
    if s.stopped ∨ ¬request.isTopLevelNavigation then []
    else (edgeStopForResponse platform (.object (routeRecord request timeMs).fields)).toList
  | .response res timeMs _ =>
    if s.stopped ∨ ¬res.isMain then []
    else (edgeStopForResponse platform (.object (mainResponseRecord res timeMs).fields)).toList
  | .upstreamFailure hostname (.response status retryAfter rayId) timeMs =>
    if hostname ≠ s.activeDocumentHost then []
    else (edgeStopForResponse platform
      (.object (connectRecord hostname status retryAfter rayId timeMs).fields)).toList
  | _ => []

/-- The first stop of a run. -/
def firstStop (es : List JourneyEvent) : Option CaptureRejection :=
  ((journey platform stringify cfg).collect (edgeStops platform) (journeyStart cfg) es).head?

/-- The top-level response of an event. -/
def observedMain : JourneyEvent → List PageResponse
  | .response res _ _ => if res.isMain then [res] else []
  | _ => []

/-- The URL, the status and the headers of a response. -/
def PageResponse.reading (res : PageResponse) : String × JsNumber × List (String × String) :=
  (res.url, .finite res.status, res.headers)

/-- The evidence of a run is faithful to it. -/
structure FaithfulEvidence (es : List JourneyEvent) (event : RequestEvent) : Prop where
  /-- The event is refused for the first stop. -/
  refused : ∀ stop, firstStop platform stringify cfg es = some stop → ∀ now options,
    ∃ rejection, evaluateCaptureResult (platform.at now) event.toValue options =
      .rejected rejection ∧ rejection.code = stop.code
  /-- Without a stop and an error, the main documents are the top-level responses. -/
  recorded : firstStop platform stringify cfg es = none →
    (event.toValue.get "error").truthy = false →
      (event.events.filter (·.isMainDocument)).map (·.reading) =
        (es.flatMap observedMain).map (·.reading)

/-! ## The condition -/

/-- The URL, the status and the headers that the record of a response has. -/
def PageResponse.recordedReading (res : PageResponse) :
    String × JsNumber × List (String × String) :=
  (res.url, res.recordedStatus, res.headers)

/-- The response whose record an event makes. -/
def recordedBy (s : JourneyState) : JourneyEvent → Option PageResponse
  | .read task _ _ => (s.responseTasks.find? (·.id = task)).map (·.response)
  | .response res _ _ =>
    if s.stopped ∨ readsBody cfg res ∨ ¬hasRoom cfg s then none else some res
  | _ => none

/-- A top-level response that passed has no record, made before the stop, that would stop the
journey with another code. -/
def RecordsAgree (code : String) (s : JourneyState) (e : JourneyEvent) : Prop :=
  s.rejection = none → edgeStops platform s e = [] →
    ∀ res, recordedBy cfg s e = some res → res.isMain = true →
      ∀ other, edgeStopForResponse platform
          (.object (responseRecord cfg none res "" (.finite 0)).fields) = some other →
        other.code = code

/-- The top-level responses whose bodies are being read. -/
def unread (s : JourneyState) : List PageResponse :=
  (s.responseTasks.filter (·.response.isMain)).map (·.response)

/-- A top-level response finds room for its record, which keeps its status, and its body is read
before that of one observed later. -/
def Attended (s : JourneyState) : JourneyEvent → Prop
  | .response res _ _ => res.isMain = true →
      hasRoom cfg s = true ∧ res.recordedStatus = .finite res.status ∧
        (readsBody cfg res = true ∨ unread s = [])
  | .read task _ _ =>
    (s.responseTasks.find? (·.id = task)).any (·.response.isMain) = true →
      ∀ earlier ∈ s.responseTasks.takeWhile (·.id ≠ task), earlier.response.isMain = false
  | _ => True

instance decidableAttended (s : JourneyState) : ∀ e, Decidable (Attended cfg s e)
  | .request _ => isTrue trivial
  | .route _ _ => isTrue trivial
  | .response res _ _ => inferInstanceAs (Decidable (res.isMain = true →
      hasRoom cfg s = true ∧ res.recordedStatus = .finite res.status ∧
        (readsBody cfg res = true ∨ unread s = [])))
  | .read task _ _ => inferInstanceAs (Decidable
      ((s.responseTasks.find? (·.id = task)).any (·.response.isMain) = true →
        ∀ earlier ∈ s.responseTasks.takeWhile (·.id ≠ task), earlier.response.isMain = false))
  | .upstreamFailure _ _ _ => isTrue trivial
  | .abort => isTrue trivial
  | .resume _ => isTrue trivial

end Claim

/-! ## What an event does -/

theorem responseRecord_main (redirect : Option ExternalRedirect) (res : PageResponse)
    (snippet : String) (timeMs : JsNumber) :
    (responseRecord cfg redirect res snippet timeMs).isMainDocument = res.isMain := by
  have hfield : textField (responseRecord cfg redirect res snippet timeMs).taSignal
      "main_document" = some (if res.isMain then "true" else "false") := rfl
  unfold RawRequestRecord.isMainDocument
  rw [hfield]
  cases res.isMain with
  | true => decide
  | false => decide

theorem responseRecord_reading (redirect : Option ExternalRedirect) (res : PageResponse)
    (snippet : String) (timeMs : JsNumber) :
    (responseRecord cfg redirect res snippet timeMs).reading = res.recordedReading := rfl

/-- What an event leaves of the stop and the transport. -/
structure Unstopped (s s' : JourneyState) : Prop where
  rejection : s'.rejection = s.rejection
  stopped : s.transportStopped = true → s'.transportStopped = true
  shown : TransportShown s → TransportShown s'

theorem Resumed.unstopped (h : Resumed s s') : Unstopped s s' := ⟨h.rejection, h.stopped, h.shown⟩

theorem Unstopped.trans (h : Unstopped s s') (k : Unstopped s' s'') : Unstopped s s'' :=
  ⟨k.rejection.trans h.rejection, k.stopped ∘ h.stopped, k.shown ∘ h.shown⟩

/-- Everything an event can do to the records. -/
inductive Heard (platform : Platform) (cfg : JourneyConfig) (s : JourneyState) (e : JourneyEvent)
    (s' : JourneyState) : Prop
  /-- Nothing is recorded, and nothing is to be. -/
  | quiet (h : Resumed s s') (hstops : edgeStops platform s e = [] ∨ s.rejection.isSome = true)
      (hobserved : observedMain e = [] ∨ s.stopped = true)
  /-- A response past the limit. -/
  | dropped (res : PageResponse) (timeMs : JsNumber) (time : String)
      (hevent : e = .response res timeMs time) (h : Resumed s s')
      (hstops : edgeStops platform s e = []) (hroom : hasRoom cfg s = false)
  /-- The journey is stopped. -/
  | stopped (record : RawRequestRecord) (stop : CaptureRejection)
      (hrunning : s.rejection = none)
      (hstop : edgeStopForResponse platform (.object record.fields) = some stop)
      (hmain : record.isMainDocument = true) (hstops : edgeStops platform s e = [stop])
      (hevents : s'.allEvents = s.allEvents ++ [record]) (hrejection : s'.rejection = some stop)
  /-- The transport has failed. -/
  | transport (record : RawRequestRecord) (hrejection : s'.rejection = s.rejection)
      (hstops : edgeStops platform s e = [])
      (hpassed : edgeStopForResponse platform (.object record.fields) = none)
      (hevents : s'.allEvents = s.allEvents ++ [record]) (hstopped : s'.transportStopped = true)
      (hshown : TransportShown s')
  /-- The body of a response is to be read. -/
  | reading (res : PageResponse) (timeMs : JsNumber) (time : String) (task : Nat)
      (hevent : e = .response res timeMs time) (h : Unstopped s s')
      (hstops : edgeStops platform s e = []) (hevents : s'.allEvents = s.allEvents)
      (htasks : s'.responseTasks = s.responseTasks ++ [⟨task, res⟩])
  /-- A response is recorded at once. -/
  | recordedNow (res : PageResponse) (timeMs : JsNumber) (time : String)
      (record : RawRequestRecord) (hevent : e = .response res timeMs time) (h : Unstopped s s')
      (hstops : edgeStops platform s e = []) (hby : recordedBy cfg s e = some res)
      (hbody : readsBody cfg res = false) (hmain : record.isMainDocument = res.isMain)
      (hreading : record.reading = res.recordedReading)
      (hevents : s'.allEvents = s.allEvents ++ [record])
      (htasks : s'.responseTasks = s.responseTasks)
  /-- A response is recorded after the read of its body. -/
  | recorded (task : Nat) (snippet : String) (timeMs : JsNumber) (found : ResponseTask)
      (record : RawRequestRecord) (hevent : e = .read task snippet timeMs) (h : Unstopped s s')
      (hfound : s.responseTasks.find? (·.id = task) = some found)
      (hmain : record.isMainDocument = found.response.isMain)
      (hreading : record.reading = found.response.recordedReading)
      (hevents : s'.allEvents = s.allEvents ++ [record])
      (htasks : s'.responseTasks = s.responseTasks.eraseP (·.id = task))

/-- `stopAtEdge` stops the journey, or leaves it. -/
theorem stopAtEdge_heard {record : RawRequestRecord} {e : JourneyEvent}
    (hmain : record.isMainDocument = true)
    (hstops : edgeStops platform s e =
      (edgeStopForResponse platform (.object record.fields)).toList)
    (hobserved : observedMain e = [] ∨ s.rejection = none ∧
      (edgeStopForResponse platform (.object record.fields)).isSome = true) :
    Heard platform cfg s e (s.stopAtEdge platform record) := by
  unfold JourneyState.stopAtEdge
  cases hstop : edgeStopForResponse platform (.object record.fields) with
  | none =>
    rw [hstop] at hstops hobserved
    exact .quiet (Resumed.refl s) (Or.inl hstops) (hobserved.imp_right fun h => nomatch h.2)
  | some stop =>
    cases hrejection : s.rejection with
    | none =>
      rw [hstop] at hstops
      exact .stopped record stop hrejection hstop hmain hstops rfl rfl
    | some rejection =>
      rw [hrejection] at hobserved
      refine .quiet (Resumed.refl s) (Or.inr ?_) (hobserved.imp_right fun h => nomatch h.1)
      rw [hrejection]
      rfl

theorem onRequest_resumed (s : JourneyState) (request : PageRequest) :
    Resumed s (onRequest platform s request) := by
  unfold onRequest
  split
  · split
    · exact Resumed.refl s
    · exact .of_eq rfl rfl rfl rfl rfl rfl rfl
  · exact Resumed.refl s

theorem externalNavigation_resumed (s : JourneyState) (request : PageRequest) :
    Resumed s (externalNavigation platform cfg s request).1 := by
  unfold externalNavigation
  split
  · exact Resumed.refl s
  · split
    · exact Resumed.refl s
    · exact .of_eq rfl rfl rfl rfl rfl rfl rfl

/-- A redirect is noted beside the records. -/
theorem noteRedirect_frame (platform : Platform) (cfg : JourneyConfig) (s : JourneyState)
    (res : PageResponse) (time : String) :
    (noteRedirect platform cfg s res time).allEvents = s.allEvents ∧
      (noteRedirect platform cfg s res time).responseTasks = s.responseTasks ∧
      Unstopped s (noteRedirect platform cfg s res time) := by
  unfold noteRedirect
  split
  · exact ⟨rfl, rfl, rfl, id, id⟩
  · split
    · split <;> exact ⟨rfl, rfl, rfl, id, id⟩
    · exact ⟨rfl, rfl, rfl, id, id⟩

theorem observeResponse_heard {s₁ : JourneyState} {res : PageResponse} {timeMs : JsNumber}
    {time : String} (hrunning : ¬s.stopped = true) (hevents : s₁.allEvents = s.allEvents)
    (htasks : s₁.responseTasks = s.responseTasks) (h : Unstopped s s₁)
    (hstops : edgeStops platform s (.response res timeMs time) = []) :
    Heard platform cfg s (.response res timeMs time)
      (observeResponse platform cfg s₁ res timeMs time) := by
  obtain ⟨hnotedEvents, hnotedTasks, hnoted⟩ :=
    noteRedirect_frame platform cfg s₁ res time
  unfold observeResponse
  set noted := noteRedirect platform cfg s₁ res time
  rw [hevents] at hnotedEvents
  rw [htasks] at hnotedTasks
  have hroom : hasRoom cfg noted = hasRoom cfg s := by
    unfold hasRoom
    rw [hnotedEvents, hnotedTasks]
  have hkept : Unstopped s noted := h.trans hnoted
  unfold recordResponse
  rw [hroom]
  split
  · rename_i hfull
    refine .dropped res timeMs time rfl ⟨?_, hnotedTasks, hkept.rejection, hkept.stopped,
      hkept.shown⟩ hstops (Bool.eq_false_of_not_eq_true hfull)
    rw [hnotedEvents]
    exact List.forall₂_same.mpr fun item _ => SameReply.refl item
  · rename_i hfree
    split
    · refine .reading res timeMs time noted.nextTask rfl
        (hkept.trans ⟨rfl, id, id⟩) hstops hnotedEvents ?_
      rw [← hnotedTasks]
    · rename_i hbody
      refine .recordedNow res timeMs time (responseRecord cfg noted.redirect res "" timeMs) rfl
        (hkept.trans ⟨rfl, id, id⟩) hstops ?_ (Bool.eq_false_of_not_eq_true hbody)
        (responseRecord_main _ _ _ _) (responseRecord_reading _ _ _ _) ?_ hnotedTasks
      · simp [recordedBy, hrunning, hbody, not_not.mp hfree]
      · rw [← hnotedEvents]

theorem onRoute_heard (s : JourneyState) (request : PageRequest) (timeMs : JsNumber) :
    Heard platform cfg s (.route request timeMs)
      (onRoute platform cfg s request timeMs).1 := by
  unfold onRoute
  dsimp only
  split
  · rename_i hstopped
    refine .quiet (Resumed.refl s) (Or.inl ?_) (Or.inl rfl)
    simp [edgeStops, hstopped]
  · rename_i hrunning
    split
    · rename_i hstop
      refine stopAtEdge_heard rfl ?_ (Or.inl rfl)
      simp [edgeStops, hrunning, hstop.1]
    · rename_i hpassed
      have hstops : edgeStops platform s (.route request timeMs) = [] := by
        dsimp only [edgeStops]
        split
        · rfl
        · rename_i htop
          rw [not_or, not_not] at htop
          rw [not_and] at hpassed
          rw [Option.not_isSome_iff_eq_none.mp (hpassed htop.2)]
          rfl
      have hquiet {s' : JourneyState} (h : Resumed s s') :
          Heard platform cfg s (.route request timeMs) s' := .quiet h (Or.inl hstops) (Or.inl rfl)
      split
      · exact hquiet (Resumed.refl s)
      · split
        · exact hquiet (Resumed.refl s)
        · split
          · exact hquiet (externalNavigation_resumed s request)
          · exact hquiet (Resumed.refl s)

theorem onUpstreamFailure_heard (s : JourneyState) (hostname : String) (failure : UpstreamFailure)
    (timeMs : JsNumber) : Heard platform cfg s (.upstreamFailure hostname failure timeMs)
      (onUpstreamFailure platform s hostname failure timeMs) := by
  unfold onUpstreamFailure
  split
  · rename_i hother
    refine .quiet (Resumed.refl s) (Or.inl ?_) (Or.inl rfl)
    cases failure with
    | response status retryAfter rayId => simp [edgeStops, hother]
    | transport failure => rfl
    | other => rfl
  · rename_i hactive
    cases failure with
    | transport failure =>
      refine .quiet ?_ (Or.inl rfl) (Or.inl rfl)
      dsimp only
      split
      · exact Resumed.refl s
      · refine ⟨(Resumed.refl s).replies, rfl, rfl, id, fun hshown hstopped hrejection => ?_⟩
        obtain ⟨-, hresponded, herror⟩ := hshown hstopped hrejection
        exact ⟨rfl, hresponded, herror⟩
    | response status retryAfter rayId =>
      refine stopAtEdge_heard rfl ?_ (Or.inl rfl)
      simp [edgeStops, not_not.mp hactive]
    | other => exact .quiet (Resumed.refl s) (Or.inl rfl) (Or.inl rfl)

theorem onRead_heard (s : JourneyState) (task : Nat) (snippet : String) (timeMs : JsNumber) :
    Heard platform cfg s (.read task snippet timeMs) (onRead cfg s task snippet timeMs) := by
  unfold onRead
  split
  · exact .quiet (Resumed.refl s) (Or.inl rfl) (Or.inl rfl)
  · rename_i found hfound
    exact .recorded task snippet timeMs found _ rfl ⟨rfl, id, id⟩ hfound
      (responseRecord_main _ _ _ _) (responseRecord_reading _ _ _ _) rfl rfl

theorem onResponse_heard (s : JourneyState) (res : PageResponse) (timeMs : JsNumber)
    (time : String) : Heard platform cfg s (.response res timeMs time)
      (onResponse platform cfg s res timeMs time) := by
  unfold onResponse
  dsimp only
  split
  · rename_i hstopped
    refine .quiet (Resumed.refl s) (Or.inl ?_) (Or.inr hstopped)
    simp [edgeStops, hstopped]
  · rename_i hrunning
    have hnotStopped : s.transportStopped = false := by
      simp only [JourneyState.stopped, Bool.or_eq_true, not_or] at hrunning
      exact Bool.eq_false_of_not_eq_true hrunning.2
    split
    · rename_i hsub
      refine observeResponse_heard hrunning rfl rfl ⟨rfl, id, id⟩ ?_
      simp [edgeStops, hsub]
    · rename_i hmain
      have hmain : res.isMain = true := not_not.mp hmain
      have hstops : edgeStops platform s (.response res timeMs time) =
          (edgeStopForResponse platform
            (.object (mainResponseRecord res timeMs).fields)).toList := by
        simp [edgeStops, hmain, hrunning]
      split
      · rename_i hstop
        have hrejection : s.rejection = none := by
          simp only [JourneyState.stopped, Bool.or_eq_true, not_or] at hrunning
          exact Option.not_isSome_iff_eq_none.mp hrunning.1
        exact stopAtEdge_heard rfl hstops (Or.inr ⟨hrejection, hstop⟩)
      · rename_i hpassed
        have hpassed := Option.not_isSome_iff_eq_none.mp hpassed
        rw [hpassed] at hstops
        have hanswered : Heard platform cfg s (.response res timeMs time)
            (observeResponse platform cfg { s with destinationResponded := true } res timeMs
              time) := by
          refine observeResponse_heard hrunning rfl rfl ⟨rfl, id, fun _ hstopped => ?_⟩ hstops
          have hstopped : s.transportStopped = true := hstopped
          rw [hnotStopped] at hstopped
          cases hstopped
        split
        · exact hanswered
        · rename_i failure hfailure
          split
          · exact hanswered
          · rename_i hfailed
            obtain ⟨hresponded, -⟩ := not_or.mp hfailed
            have hreply : SameReply (mainResponseRecord res timeMs)
                (noteSignal "proxy_transport_failure" (some failure.transportCode)
                  (mainResponseRecord res timeMs)) :=
              noteSignal_reply (by decide) (by decide) _ _
            refine .transport _ rfl hstops ?_ rfl rfl fun _ _ => ?_
            · rw [edgeStop_reply hreply, hpassed]
            · have hupstream : s.upstreamTransportError.isSome = true := by rw [hfailure]; rfl
              exact ⟨hupstream, Bool.eq_false_of_not_eq_true hresponded, failure, rfl⟩

variable {e : JourneyEvent} {es : List JourneyEvent} {event : RequestEvent}

/-- **What an event does**, one case for each kind. -/
theorem journey_heard (platform : Platform) (stringify : List JourneyHop → String)
    (cfg : JourneyConfig) (s : JourneyState) (e : JourneyEvent) :
    Heard platform cfg s e ((journey platform stringify cfg).next s e) := by
  cases e with
  | request request =>
    exact .quiet (onRequest_resumed s request) (Or.inl rfl) (Or.inl rfl)
  | route request timeMs => exact onRoute_heard s request timeMs
  | response res timeMs time => exact onResponse_heard s res timeMs time
  | read task snippet timeMs => exact onRead_heard s task snippet timeMs
  | upstreamFailure hostname failure timeMs =>
    exact onUpstreamFailure_heard s hostname failure timeMs
  | abort => exact .quiet (.of_eq rfl rfl rfl rfl rfl rfl rfl) (Or.inl rfl) (Or.inl rfl)
  | resume input =>
    exact .quiet (resumeJourney_shows platform stringify cfg s input).resumed (Or.inl rfl)
      (Or.inl rfl)

/-! ## The first stop -/

theorem next_rejection (s : JourneyState) (e : JourneyEvent) :
    ((journey platform stringify cfg).next s e).rejection =
      s.rejection.or (edgeStops platform s e).head? := by
  cases journey_heard platform stringify cfg s e with
  | quiet h hstops =>
    rw [h.rejection]
    rcases hstops with hstops | hrejection
    · rw [hstops, List.head?_nil, Option.or_none]
    · obtain ⟨rejection, hrejection⟩ := Option.isSome_iff_exists.mp hrejection
      rw [hrejection, Option.some_or]
  | dropped _ _ _ _ h hstops => rw [h.rejection, hstops, List.head?_nil, Option.or_none]
  | stopped _ _ hrunning _ _ hstops _ hrejection => rw [hrejection, hrunning, hstops]; rfl
  | transport _ hrejection hstops =>
    rw [hrejection, hstops, List.head?_nil, Option.or_none]
  | reading _ _ _ _ _ h hstops => rw [h.rejection, hstops, List.head?_nil, Option.or_none]
  | recordedNow _ _ _ _ _ h hstops => rw [h.rejection, hstops, List.head?_nil, Option.or_none]
  | recorded _ _ _ _ _ hevent h =>
    rw [h.rejection, hevent]
    exact (Option.or_none).symm

/-- A journey starts without records. -/
theorem journeyStart_resumed (cfg : JourneyConfig) :
    Resumed { activeDocumentHost := cfg.seed.hostname, phase := .finished } (journeyStart cfg) :=
  visitPage_resumed _ 0

/-- The first stop of a run is the one that the journey remembers. -/
theorem firstStop_eq (platform : Platform) (stringify : List JourneyHop → String)
    (cfg : JourneyConfig) (es : List JourneyEvent) : firstStop platform stringify cfg es =
      ((journey platform stringify cfg).run (journeyStart cfg) es).rejection := by
  unfold firstStop
  induction es using List.reverseRecOn with
  | nil => exact (journeyStart_resumed cfg).rejection.symm
  | append_singleton es e ih =>
    rw [collect_concat, List.head?_append, ih, run_concat, next_rejection]

/-! ## Refusals -/

/-- The code of the first refusal among the main documents. -/
def refusalCode (platform : Platform) (s : JourneyState) : Option String :=
  ((s.allEvents.filter (·.isMainDocument)).findSome? fun item =>
    edgeStopForResponse platform (.object item.fields)).map (·.code)

theorem refusalCode_append {record : RawRequestRecord}
    (h : s'.allEvents = s.allEvents ++ [record]) : refusalCode platform s' =
      (refusalCode platform s).or (if record.isMainDocument
        then (edgeStopForResponse platform (.object record.fields)).map (·.code) else none) := by
  unfold refusalCode
  rw [h, List.filter_append, List.findSome?_append, Option.map_or]
  congr 1
  by_cases hmain : record.isMainDocument = true
  · rw [if_pos hmain, List.filter_cons_of_pos hmain]
    simp
  · rw [if_neg hmain, List.filter_cons_of_neg hmain]
    rfl

theorem refusalCode_replies (h : List.Forall₂ SameReply s.allEvents s'.allEvents) :
    refusalCode platform s' = refusalCode platform s := by
  unfold refusalCode
  rw [replies_stop h]

/-- The records of a journey refuse it with the code of its stop only. -/
structure Refusing (platform : Platform) (code : String) (s : JourneyState) : Prop where
  passing : s.rejection = none → ∀ other, refusalCode platform s = some other → other = code
  stopped : ∀ stop, s.rejection = some stop → stop.code = code →
    refusalCode platform s = some code

namespace Refusing

variable {code : String}

theorem kept (h : Refusing platform code s) (hrejection : s'.rejection = s.rejection)
    (hcode : refusalCode platform s' = refusalCode platform s) : Refusing platform code s' := by
  constructor
  · rw [hrejection, hcode]
    exact h.passing
  · rw [hrejection, hcode]
    exact h.stopped

/-- A record more, which does not refuse with another code before the stop. -/
theorem record {record : RawRequestRecord} (h : Refusing platform code s)
    (hrejection : s'.rejection = s.rejection)
    (hevents : s'.allEvents = s.allEvents ++ [record])
    (hrecord : s.rejection = none → record.isMainDocument = true →
      ∀ other, edgeStopForResponse platform (.object record.fields) = some other →
        other.code = code) : Refusing platform code s' := by
  constructor
  · rw [hrejection, refusalCode_append hevents]
    intro hrunning other hother
    rcases Option.or_eq_some_iff.mp hother with hbefore | ⟨-, hnew⟩
    · exact h.passing hrunning other hbefore
    · split at hnew
      · rename_i hmain
        obtain ⟨stop, hstop, rfl⟩ := Option.map_eq_some_iff.mp hnew
        exact hrecord hrunning hmain stop hstop
      · cases hnew
  · rw [hrejection, refusalCode_append hevents]
    intro stop hstop hcode
    rw [h.stopped stop hstop hcode, Option.some_or]

theorem next (h : Refusing platform code s) {e : JourneyEvent}
    (hagrees : RecordsAgree platform cfg code s e) :
    Refusing platform code ((journey platform stringify cfg).next s e) := by
  cases journey_heard platform stringify cfg s e with
  | quiet k => exact h.kept k.rejection (refusalCode_replies k.replies)
  | dropped _ _ _ _ k => exact h.kept k.rejection (refusalCode_replies k.replies)
  | stopped record stop hrunning hstop hmain _ hevents hrejection =>
    constructor
    · rw [hrejection]
      exact fun hnone => nomatch hnone
    · rw [hrejection, refusalCode_append hevents, if_pos hmain, hstop]
      intro stop' hstop' hcode
      obtain rfl := Option.some.inj hstop'
      cases hbefore : refusalCode platform s with
      | none => rw [Option.map_some, hcode, Option.none_or]
      | some other => rw [h.passing hrunning other hbefore, Option.some_or]
  | transport record hrejection _ hpassed hevents =>
    refine h.record hrejection hevents fun _ _ other hother => ?_
    rw [hpassed] at hother
    cases hother
  | reading _ _ _ _ _ k _ hevents =>
    refine h.kept k.rejection ?_
    unfold refusalCode
    rw [hevents]
  | recordedNow res _ _ record _ k hstops hby _ hmain hreading hevents =>
    refine h.record k.rejection hevents fun hrunning hdocument other hother => ?_
    rw [hmain] at hdocument
    refine hagrees hrunning hstops res hby hdocument other ?_
    rw [← hother]
    exact edgeStop_reading (hreading.symm ▸ responseRecord_reading _ _ _ _)
  | recorded task snippet timeMs found record hevent k hfound hmain hreading hevents =>
    refine h.record k.rejection hevents fun hrunning hdocument other hother => ?_
    rw [hmain] at hdocument
    have hby : recordedBy cfg s e = some found.response := by
      rw [hevent, recordedBy, hfound]
      rfl
    refine hagrees hrunning (by rw [hevent]; rfl) found.response hby hdocument other ?_
    rw [← hother]
    exact edgeStop_reading (hreading.symm ▸ responseRecord_reading _ _ _ _)

end Refusing

/-! ## Records in the order of the responses -/

/-- Once the first element that one predicate finds is erased, another selects it before the rest,
where it selects nothing that stands before it. -/
theorem filter_eraseP {α : Type} {p q : α → Bool} {l : List α} {a : α} (hfound : l.find? q = some a)
    (hfirst : p a = true → ∀ b ∈ l.takeWhile (fun b => !q b), p b = false) :
    l.filter p = (if p a then [a] else []) ++ (l.eraseP q).filter p := by
  induction l with
  | nil => cases hfound
  | cons b l ih =>
    by_cases hq : q b = true
    · rw [List.find?_cons_of_pos hq] at hfound
      obtain rfl := Option.some.inj hfound
      rw [List.eraseP_cons_of_pos hq, List.filter_cons]
      split <;> rfl
    · rw [List.find?_cons_of_neg hq] at hfound
      have htake : (b :: l).takeWhile (fun b => !q b) = b :: l.takeWhile fun b => !q b := by
        simp [hq]
      rw [htake] at hfirst
      have hrest := ih hfound fun hp c hc => hfirst hp c (List.mem_cons_of_mem b hc)
      rw [List.eraseP_cons_of_neg hq, List.filter_cons, List.filter_cons, hrest]
      by_cases hp : p a = true
      · rw [hfirst hp b List.mem_cons_self]
        rfl
      · simp [hp]

/-- While the journey is not stopped, its main documents and the bodies being read are the top-level
responses, in their order. -/
def RecordedInOrder (es : List JourneyEvent) (s : JourneyState) : Prop :=
  s.stopped = false →
    (s.allEvents.filter (·.isMainDocument)).map (·.reading) ++
      (unread s).map (·.recordedReading) = (es.flatMap observedMain).map (·.reading)

theorem Unstopped.running (h : Unstopped s s') (hrunning : s'.stopped = false) :
    s.stopped = false := by
  unfold JourneyState.stopped at hrunning ⊢
  rw [h.rejection, Bool.or_eq_false_iff] at hrunning
  rw [Bool.or_eq_false_iff]
  refine ⟨hrunning.1, Bool.eq_false_of_not_eq_true fun hstopped => ?_⟩
  rw [h.stopped hstopped] at hrunning
  cases hrunning.2

theorem PageResponse.recordedReading_eq {res : PageResponse}
    (h : res.recordedStatus = .finite res.status) : res.recordedReading = res.reading := by
  unfold PageResponse.recordedReading PageResponse.reading
  rw [h]

theorem filter_record {record : RawRequestRecord} {main : Bool}
    (hmain : record.isMainDocument = main) (hevents : s'.allEvents = s.allEvents ++ [record]) :
    (s'.allEvents.filter (·.isMainDocument)).map (·.reading) =
      (s.allEvents.filter (·.isMainDocument)).map (·.reading) ++
        if main then [record.reading] else [] := by
  rw [hevents, List.filter_append, List.map_append, List.filter_singleton, hmain]
  cases main <;> rfl

namespace RecordedInOrder

/-- An event that neither records nor is to be recorded. -/
theorem kept {e : JourneyEvent} (h : RecordedInOrder es s) (k : Resumed s s')
    (hobserved : s.stopped = false → observedMain e = []) : RecordedInOrder (es ++ [e]) s' := by
  intro hrunning
  have hrunning := k.unstopped.running hrunning
  rw [replies_reading k.replies, unread, k.tasks, List.flatMap_append, List.flatMap_singleton,
    hobserved hrunning, List.append_nil]
  exact h hrunning

/-- **One event**, where the top-level responses are attended to. -/
theorem next {e : JourneyEvent} (h : RecordedInOrder es s) (hattended : Attended cfg s e) :
    RecordedInOrder (es ++ [e]) ((journey platform stringify cfg).next s e) := by
  cases journey_heard platform stringify cfg s e with
  | quiet k _ hobserved =>
    refine h.kept k fun hrunning => ?_
    rcases hobserved with hnone | hstopped
    · exact hnone
    · rw [hrunning] at hstopped
      cases hstopped
  | dropped res timeMs time hevent k _ hroom =>
    refine h.kept k fun _ => ?_
    subst hevent
    dsimp only [observedMain]
    by_cases hmain : res.isMain = true
    · rw [(hattended hmain).1] at hroom
      cases hroom
    · rw [if_neg hmain]
  | stopped _ _ _ _ _ _ _ hrejection =>
    intro hrunning
    simp [JourneyState.stopped, hrejection] at hrunning
  | transport _ _ _ _ _ hstopped =>
    intro hrunning
    simp [JourneyState.stopped, hstopped] at hrunning
  | reading res timeMs time task hevent k _ hevents htasks =>
    intro hrunning
    subst hevent
    have hbefore := h (k.running hrunning)
    rw [hevents, unread, htasks, List.filter_append, List.map_append, List.map_append,
      ← List.append_assoc, List.flatMap_append, List.map_append, List.flatMap_singleton]
    refine congrArg₂ (· ++ ·) hbefore ?_
    dsimp only [observedMain]
    by_cases hmain : res.isMain = true
    · have hfilter : [(⟨task, res⟩ : ResponseTask)].filter (·.response.isMain) = [⟨task, res⟩] :=
        List.filter_cons_of_pos hmain
      rw [if_pos hmain, hfilter]
      exact congrArg (fun reading => [reading])
        (PageResponse.recordedReading_eq (hattended hmain).2.1)
    · have hfilter : [(⟨task, res⟩ : ResponseTask)].filter (·.response.isMain) = [] :=
        List.filter_cons_of_neg hmain
      rw [if_neg hmain, hfilter]
      rfl
  | recordedNow res timeMs time record hevent k _ _ hbody hmain hreading hevents htasks =>
    intro hrunning
    subst hevent
    have hbefore := h (k.running hrunning)
    rw [filter_record hmain hevents, unread, htasks, List.flatMap_append, List.map_append,
      List.flatMap_singleton, ← hbefore, unread]
    dsimp only [observedMain]
    by_cases hdocument : res.isMain = true
    · obtain ⟨-, hstatus, hread⟩ := hattended hdocument
      have hunread : (s.responseTasks.filter (·.response.isMain)).map (·.response) = [] :=
        hread.resolve_left (by rw [hbody]; exact Bool.false_ne_true)
      rw [if_pos hdocument, if_pos hdocument, hunread, hreading,
        PageResponse.recordedReading_eq hstatus]
      simp
    · rw [if_neg hdocument, if_neg hdocument, List.append_nil, List.map_nil, List.append_nil]
  | recorded task snippet timeMs found record hevent k hfound hmain hreading hevents htasks =>
    intro hrunning
    subst hevent
    have hbefore := h (k.running hrunning)
    have hfirst : found.response.isMain = true →
        ∀ earlier ∈ s.responseTasks.takeWhile (fun other => !decide (other.id = task)),
          earlier.response.isMain = false := by
      intro hdocument earlier hearlier
      refine hattended (by rw [hfound]; exact hdocument) earlier ?_
      simpa only [ne_eq, decide_not] using hearlier
    have hsplit := filter_eraseP (p := fun task => task.response.isMain) hfound hfirst
    rw [unread, hsplit, List.map_append, List.map_append, ← List.append_assoc] at hbefore
    rw [filter_record hmain hevents, unread, htasks, List.flatMap_append, List.flatMap_singleton]
    have hnone : observedMain (.read task snippet timeMs) = [] := rfl
    rw [hnone, List.append_nil, ← hbefore, hreading]
    cases found.response.isMain <;> rfl

end RecordedInOrder

/-! ## The claim -/

/-- A refusal has the same code at any time. -/
theorem edgeStop_code_at (now : Int) (doc : JsValue) :
    (edgeStopForResponse (platform.at now) doc).map (·.code) =
      (edgeStopForResponse platform doc).map (·.code) := by
  have hcloudflare : isCloudflare (platform.at now) doc = isCloudflare platform doc := rfl
  unfold edgeStopForResponse
  dsimp only
  rw [hcloudflare]
  split
  · rfl
  · rfl

/-- The validator refuses an event for the first refusal among its main documents. -/
theorem evaluate_refused {code : String} (hevents : event.events = s.allEvents)
    (hcode : refusalCode platform s = some code) (now : Int) (options : Option JsValue) :
    ∃ rejection, evaluateCaptureResult (platform.at now) event.toValue options =
      .rejected rejection ∧ rejection.code = code := by
  have hmap {docs : List RawRequestRecord} :
      (docs.findSome? fun item =>
          edgeStopForResponse (platform.at now) (.object item.fields)).map (·.code) =
        (docs.findSome? fun item =>
          edgeStopForResponse platform (.object item.fields)).map (·.code) := by
    rw [List.map_findSome?, List.map_findSome?]
    congr 1
    funext item
    exact edgeStop_code_at now _
  have hdocs : ((documents event.toValue).findSome?
      (edgeStopForResponse (platform.at now))).map (·.code) = some code := by
    rw [documents_event, hevents, List.findSome?_map]
    exact hmap.trans hcode
  obtain ⟨rejection, hrejection, hrejected⟩ := Option.map_eq_some_iff.mp hdocs
  refine ⟨rejection, ?_, hrejected⟩
  unfold evaluateCaptureResult
  rw [hrejection]

/-- Invariants of every run. -/
theorem run_shown (es : List JourneyEvent) :
    TransportShown ((journey platform stringify cfg).run (journeyStart cfg) es) := by
  refine run_inv_true ?_ fun s e h => ?_
  · exact (journeyStart_resumed cfg).shown fun hstopped => nomatch hstopped
  · cases journey_heard platform stringify cfg s e with
    | quiet k => exact k.shown h
    | dropped _ _ _ _ k => exact k.shown h
    | stopped _ _ _ _ _ _ _ hrejection =>
      intro _ hnone
      rw [hrejection] at hnone
      cases hnone
    | transport _ _ _ _ _ _ hshown => exact hshown
    | reading _ _ _ _ _ k => exact k.shown h
    | recordedNow _ _ _ _ _ k => exact k.shown h
    | recorded _ _ _ _ _ _ k => exact k.shown h

theorem ProxyTransportError.message_ne (failure : ProxyTransportError) : failure.message ≠ "" := by
  unfold message
  simp

/-- What the journey yields shows the state it is left in. -/
theorem yielded_shows {e : JourneyEvent}
    (h : (journey platform stringify cfg).reply s e = .yielded event) :
    Resumed s ((journey platform stringify cfg).next s e) ∧ observedMain e = [] ∧
      event.events = ((journey platform stringify cfg).next s e).allEvents ∧
      event.error = ((journey platform stringify cfg).next s e).error := by
  cases e with
  | resume input =>
    obtain ⟨hresumed, hevent⟩ :=
      resumeJourney_shows platform stringify cfg s input
    obtain ⟨hevents, herror⟩ := hevent event h
    exact ⟨hresumed, rfl, hevents, herror⟩
  | request request => exact nomatch h
  | route request timeMs => exact nomatch h
  | response res timeMs time => exact nomatch h
  | read task snippet timeMs => exact nomatch h
  | upstreamFailure hostname failure timeMs => exact nomatch h
  | abort => exact nomatch h

/-- **The evidence of a run is faithful** where no record made before the first stop would stop the
journey with another code, and, without a stop and an error, where each top-level response is
attended to and none is being read when the event is yielded. -/
theorem evidence_faithful (platform : Platform) (stringify : List JourneyHop → String)
    (cfg : JourneyConfig) (es : List JourneyEvent) (e : JourneyEvent) (event : RequestEvent)
    (hyielded : (journey platform stringify cfg).reply
      ((journey platform stringify cfg).run (journeyStart cfg) es) e = .yielded event)
    (hstopped : ∀ stop, firstStop platform stringify cfg es = some stop →
      (journey platform stringify cfg).Along (RecordsAgree platform cfg stop.code)
        (journeyStart cfg) es)
    (hrecorded : firstStop platform stringify cfg es = none →
      (event.toValue.get "error").truthy = false →
        (journey platform stringify cfg).Along (Attended cfg) (journeyStart cfg) es ∧
          unread ((journey platform stringify cfg).run (journeyStart cfg) es) = []) :
    FaithfulEvidence platform stringify cfg es event := by
  obtain ⟨hresumed, -, hevents, herror⟩ := yielded_shows hyielded
  have hstart : (journeyStart cfg).allEvents = [] :=
    List.forall₂_nil_left_iff.mp (journeyStart_resumed cfg).replies
  have hrejection := firstStop_eq platform stringify cfg es
  constructor
  · intro stop hstop now options
    have hrefusing : Refusing platform stop.code
        ((journey platform stringify cfg).run (journeyStart cfg) es) := by
      refine run_inv ?_ (fun s e h hagrees => h.next hagrees) (hstopped stop hstop)
      constructor
      · intro _ other hother
        rw [refusalCode, hstart] at hother
        cases hother
      · intro stop' hstop'
        rw [(journeyStart_resumed cfg).rejection] at hstop'
        cases hstop'
    have hcode := hrefusing.stopped stop (hrejection.symm.trans hstop) rfl
    rw [← refusalCode_replies hresumed.replies] at hcode
    exact evaluate_refused hevents hcode now options
  · intro hnone herrorless
    obtain ⟨hattended, hread⟩ := hrecorded hnone herrorless
    have hrunning : ((journey platform stringify cfg).next
        ((journey platform stringify cfg).run (journeyStart cfg) es) e).stopped = false := by
      unfold JourneyState.stopped
      rw [hresumed.rejection, ← hrejection, hnone, Option.isSome_none, Bool.false_or]
      refine Bool.eq_false_of_not_eq_true fun htransport => ?_
      obtain ⟨-, -, failure, hfailure⟩ := hresumed.shown (run_shown es) htransport
        (by rw [hresumed.rejection, ← hrejection, hnone])
      have hvalue : event.toValue.get "error" = ofOption event.error := rfl
      rw [hvalue, herror, hfailure] at herrorless
      exact failure.message_ne (of_decide_eq_false herrorless |> not_not.mp)
    have hinorder : RecordedInOrder es
        ((journey platform stringify cfg).run (journeyStart cfg) es) := by
      refine history_inv ?_ (fun es e h k => k.next (along_concat.mp h).2) hattended
      intro _
      rw [hstart, unread, (journeyStart_resumed cfg).tasks]
      rfl
    have hall := hinorder (hresumed.unstopped.running hrunning)
    rw [hread, List.map_nil, List.append_nil] at hall
    rw [hevents, replies_reading hresumed.replies]
    exact hall

section Sample

/-- A campaign on the tracker. -/
def trackerJourney : JourneyConfig where
  seed := {
    href := "https://tracker.example/start", withoutHash := "https://tracker.example/start"
    origin := "https://tracker.example", protocol := "https:", hostname := "tracker.example"
    pathname := "/start", search := "" }
  continuous := true
  proxyMode := "sticky-residential"

/-- The tracker's page and the shop's. -/
def trackerRequest : PageRequest := { url := "https://tracker.example/start" }

def shopRequest : PageRequest := { url := "https://shop.example/?irclickid=7" }

/-- The tracker answers. -/
def trackerAnswers (headers : List (String × String)) : List JourneyEvent :=
  [.request trackerRequest, .route trackerRequest (.finite 0),
    .response ⟨trackerRequest, trackerRequest.url, "tracker.example", 200, headers⟩ (.finite 0) "",
    .resume {}, .read 0 "<html>" (.finite 1)]

/-- The page is settled and worked on, and the wait for a suffix begins. -/
def trackerVisit : List JourneyEvent :=
  [.resume { pageUrl := trackerRequest.url }, .resume {}, .resume {},
    .resume { pageUrl := trackerRequest.url }]

/-- The page goes on to the shop, which answers. -/
def shopAnswers (status : Nat) : List JourneyEvent :=
  [.request shopRequest, .route shopRequest (.finite 2),
    .response ⟨shopRequest, shopRequest.url, "shop.example", status, []⟩ (.finite 2) ""]

/-- The journey finds itself at the shop. -/
def shopLanding : JourneyEvent := .resume { pageUrl := shopRequest.url }

/-- What an event yields meets a condition. -/
def JourneyReply.Meets (P : RequestEvent → Prop) : JourneyReply → Prop
  | .yielded event => P event
  | _ => False

instance JourneyReply.decidableMeets (P : RequestEvent → Prop) [DecidablePred P] :
    ∀ reply, Decidable (JourneyReply.Meets P reply)
  | .yielded event => inferInstanceAs (Decidable (P event))
  | .none => isFalse id
  | .route _ => isFalse id

theorem JourneyReply.Meets.yielded {P : RequestEvent → Prop} {r : JourneyReply}
    (h : r.Meets P) : ∃ event, r = .yielded event ∧ P event := by
  cases r with
  | yielded event => exact ⟨event, rfl, h⟩
  | none => cases h
  | route continued => cases h

theorem evidence_faithful_landing :
    ∃ event, (journey trackerPlatform (fun _ => "[]") trackerJourney).reply
        ((journey trackerPlatform (fun _ => "[]") trackerJourney).run (journeyStart trackerJourney)
          (trackerAnswers [] ++ trackerVisit ++ shopAnswers 200 ++ [.read 1 "<html>" (.finite 3)]))
        shopLanding = .yielded event ∧
      FaithfulEvidence trackerPlatform (fun _ => "[]") trackerJourney
        (trackerAnswers [] ++ trackerVisit ++ shopAnswers 200 ++ [.read 1 "<html>" (.finite 3)])
        event := by
  obtain ⟨event, hevent, -⟩ := JourneyReply.Meets.yielded (P := fun _ => True)
    (r := (journey trackerPlatform (fun _ => "[]") trackerJourney).reply
      ((journey trackerPlatform (fun _ => "[]") trackerJourney).run (journeyStart trackerJourney)
        (trackerAnswers [] ++ trackerVisit ++ shopAnswers 200 ++ [.read 1 "<html>" (.finite 3)]))
      shopLanding)
    (by decide +kernel)
  have hnone : firstStop trackerPlatform (fun _ => "[]") trackerJourney
      (trackerAnswers [] ++ trackerVisit ++ shopAnswers 200 ++ [.read 1 "<html>" (.finite 3)]) =
        none := by
    decide +kernel
  refine ⟨event, hevent, evidence_faithful trackerPlatform (fun _ => "[]") trackerJourney _
    shopLanding event hevent (fun stop hstop => ?_) fun _ _ =>
      ⟨by decide +kernel, by decide +kernel⟩⟩
  rw [hnone] at hstop
  cases hstop

/-- **A journey that ends before the body of its landing page is read loses the page, and a header
of a page that passed gives the code of a refusal.** -/
theorem landing_lost :
    (∃ event, (journey trackerPlatform (fun _ => "[]") trackerJourney).reply
        ((journey trackerPlatform (fun _ => "[]") trackerJourney).run (journeyStart trackerJourney)
          (trackerAnswers [] ++ trackerVisit ++ shopAnswers 200)) shopLanding = .yielded event ∧
      ¬FaithfulEvidence trackerPlatform (fun _ => "[]") trackerJourney
        (trackerAnswers [] ++ trackerVisit ++ shopAnswers 200) event) ∧
    ∃ event, (journey trackerPlatform (fun _ => "[]") trackerJourney).reply
        ((journey trackerPlatform (fun _ => "[]") trackerJourney).run (journeyStart trackerJourney)
          (trackerAnswers [("x-tah-original-status", "429")] ++ trackerVisit ++ shopAnswers 403))
        shopLanding = .yielded event ∧
      ¬FaithfulEvidence trackerPlatform (fun _ => "[]") trackerJourney
        (trackerAnswers [("x-tah-original-status", "429")] ++ trackerVisit ++ shopAnswers 403)
        event := by
  constructor
  · obtain ⟨event, hevent, hurls, herror⟩ := JourneyReply.Meets.yielded
      (P := fun event => (event.events.filter (·.isMainDocument)).map (·.url) =
        ["https://tracker.example/start"] ∧ (event.toValue.get "error").truthy = false)
      (r := (journey trackerPlatform (fun _ => "[]") trackerJourney).reply
        ((journey trackerPlatform (fun _ => "[]") trackerJourney).run (journeyStart trackerJourney)
          (trackerAnswers [] ++ trackerVisit ++ shopAnswers 200)) shopLanding)
      (by decide +kernel)
    refine ⟨event, hevent, fun hfaithful => ?_⟩
    have hall := congrArg (List.map (·.1)) (hfaithful.recorded (by decide +kernel) herror)
    rw [List.map_map] at hall
    have hboth := hurls.symm.trans hall
    revert hboth
    decide +kernel
  · obtain ⟨event, hevent, hrejected⟩ := JourneyReply.Meets.yielded
      (P := fun event => evaluateCaptureResult trackerPlatform event.toValue none = .rejected {
        code := "rate_limited", message := "Rate limit received; the journey was stopped"
        diagnostics := { hostname := some "tracker.example", httpStatus := some 429 } })
      (r := (journey trackerPlatform (fun _ => "[]") trackerJourney).reply
        ((journey trackerPlatform (fun _ => "[]") trackerJourney).run (journeyStart trackerJourney)
          (trackerAnswers [("x-tah-original-status", "429")] ++ trackerVisit ++ shopAnswers 403))
        shopLanding)
      (by decide +kernel)
    refine ⟨event, hevent, fun hfaithful => ?_⟩
    obtain ⟨rejection, hrejection, hcode⟩ := hfaithful.refused {
      code := "blocked_response", message := "HTTP 403 received; the journey was stopped"
      diagnostics := { hostname := some "shop.example", httpStatus := some 403 } }
      (by decide +kernel) 0 none
    obtain rfl := CaptureOutcome.rejected.inj (hrejected.symm.trans hrejection)
    revert hcode
    decide

end Sample

end LinkSuffix
