import LinkSuffix.Js.JsonText
import LinkSuffix.Js.RegExp
import LinkSuffix.Contracts.RequestEvent
import LinkSuffix.Lib.Run

/-!
# Pauses for an intervention

A journey whose page shows a challenge pauses until an operator has solved it, has said what to do,
or the time is over (`challenge.ts`); with `resume`, the journey goes on (`runner.ts`).

* `rules`, `detectChallenge`: what is taken for a challenge.
* `pauses`: the polling loop. A tick holds what one turn of it finds: the clock, the command file
  and the page.
* `pauseForIntervention`: a whole pause. `goesOn`: what the journey makes of its result.
* `Faithful`: a result rests on what was read, and is the one written.
* `Sighted`: no unreadable page is taken for a clean one.
* **`faithful_iff`**: a pause is faithful if and only if it is sighted all along.
* `unread_resumed`.
-/

namespace LinkSuffix.Intervention

open Lib RegExp

/-! ## The rules -/

inductive ChallengeVendor
  | cloudflare | perimeterx | recaptcha | hcaptcha | datadome | akamai | generic
  deriving DecidableEq

structure Rule where
  vendor : ChallengeVendor
  type : String
  pattern : Pattern Char

def rules : List Rule :=
  [{ vendor := .cloudflare
     type := "managed-challenge"
     pattern := .oneOf [word "challenges.cloudflare.com", word "cf-chl-", word "cf-turnstile",
      word "just a moment", word "ray id"] },
   { vendor := .perimeterx
     type := "press-and-hold"
     pattern := .oneOf [word "px-captcha", word "captcha.px-cdn.net", word "perimeterx",
      .chain [word "press", spaces, .alt (word "&") (word "and"), spaces, word "hold"],
      word "_pxhd"] },
   { vendor := .recaptcha
     type := "recaptcha"
     pattern := .oneOf [word "g-recaptcha", word "google.com/recaptcha", word "grecaptcha"] },
   { vendor := .hcaptcha
     type := "hcaptcha"
     pattern := .oneOf [word "h-captcha", word "hcaptcha.com", word "hcaptcha"] },
   { vendor := .datadome
     type := "datadome"
     pattern := .oneOf [word "datadome", word "captcha-delivery.com"] },
   { vendor := .akamai
     type := "akamai-denial"
     pattern := .oneOf [word "akamai", word "_abck", word "bm_sz",
      .chain [word "reference", spaces, word "#"], word "access denied"] },
   { vendor := .generic
     type := "verification"
     pattern := .oneOf [.chain [word "verify ", .maybe (word "that "), word "you are human"],
      word "confirm you are a human", word "security verification", word "captcha"] }]

/-- What `referenceId` looks for before the identifier. -/
def referencePrefix : Pattern Char :=
  .chain [.alt (.seq (word "reference") (.maybe (word " id"))) (word "ray id"), spaces,
    .maybe (.one fun c => c == ':' || c == '#'), spaces]

/-- `[a-z0-9-]{6,}`. -/
def identifier : Pattern Char :=
  let letter : Char → Bool := fun c => c.isAlphanum || c == '-'
  .seq (.chain (List.replicate 6 (.one letter))) (.many letter)

/-- `referenceId`. -/
def referenceId (text : List Char) : Option String := do
  let (start, _) ← (Pattern.seq referencePrefix identifier).search text
  let (before, after) ← (referencePrefix.ends start).findSome? fun before =>
    (identifier.matchAt before).map (before, ·)
  return String.ofList (Pattern.between before after)

/-! ## The detector -/

/-- What `page.evaluate` reads. -/
structure PageContent where
  title : String
  innerText : String
  outerHtml : String

/-- A page as the detector finds it; no content where `page.evaluate` fails. -/
structure PageState where
  url : String
  content : Option PageContent

structure DetectedChallenge where
  vendor : ChallengeVendor
  challengeType : String
  referenceId : Option String
  url : String
  title : String
  evidence : List String
  detectedAt : Int

/-- The last `n` code units. -/
def sliceLast (n : Nat) (text : List Char) : List Char := (sliceChars n text.reverse).reverse

/-- `recent`, of the records of a journey. -/
def recent (records : List RawRequestRecord) : List Char :=
  let texts := (records.drop (records.length - 20)).map fun record =>
    record.url.toList ++ '\n' :: (stringify 0 (.ofStrings record.headers)).getD [] ++
      '\n' :: (record.bodySnippet.getD "").toList
  sliceLast 64000 (['\n'].intercalate texts)

/-- `corpus`. A page that could not be read has nothing in it but its URL. -/
def corpus (page : PageState) (records : List RawRequestRecord) : List Char :=
  let dom := page.content.getD ⟨"", "", ""⟩
  page.url.toList ++ '\n' :: sliceChars 240 dom.title.toList ++
    '\n' :: sliceChars 12000 dom.innerText.toList ++
    '\n' :: sliceChars 24000 dom.outerHtml.toList ++ '\n' :: recent records

/-- The first rule that a text meets. -/
def matchedRule (text : List Char) : Option Rule := rules.find? fun rule => rule.pattern.test text

def detectChallenge (page : PageState) (records : List RawRequestRecord) (now : Int) :
    Option DetectedChallenge :=
  (matchedRule (corpus page records)).map fun rule =>
    { vendor := rule.vendor
      challengeType := rule.type
      referenceId := referenceId (corpus page records)
      url := page.url
      title := sliceTo 240 (page.content.getD ⟨"", "", ""⟩).title
      evidence := ((rule.pattern.search (corpus page records)).map fun (start, finish) =>
        String.ofList (sliceChars 180 (Pattern.between start finish))).toList
      detectedAt := now }

/-! ## The pause -/

inductive ChallengeAction
  | resume | skip | stop | timeout
  deriving DecidableEq

structure PauseOptions where
  challenge : DetectedChallenge
  redirects : List ChallengeHop
  timeoutSeconds : Int
  persistent : Bool := false
  onTimeout : ChallengeAction
  /-- `options.directory ?? process.env.TAH_CHALLENGE_DIR`. -/
  directory : Option String

/-- What is chosen, and the clock, as a pause begins. -/
structure Start where
  id : String
  time : Int
  /-- What `deadline` is counted from. -/
  clock : Int

/-- The state file. -/
structure StateFile where
  id : String
  status : String := "pending"
  challenge : DetectedChallenge
  redirects : List ChallengeHop
  persistent : Bool
  timeoutAt : Option Int
  lastCheckedAt : Int
  checkCount : Nat := 0
  lastError : Option String := none
  checkedAt : Option Int := none
  action : Option ChallengeAction := none
  resolvedAt : Option Int := none

inductive Effect
  | read (page : PageState)
  | write (file : StateFile)

inductive Ended
  | returned (action : ChallengeAction) (resolvedAt : Int)
  | threw

structure Pause where
  checkCount : Nat := 0
  ended : Option Ended := none
  effects : List Effect := []

/-- What one turn of the loop finds. -/
structure Tick where
  now : Int
  /-- The command file, if there is one, and its text, if that can be read. -/
  command : Option (Option String)
  /-- The page, as the detector finds it after a command to resume. -/
  resumed : PageState
  /-- The page, as the detector finds it at the end of the turn. -/
  page : PageState
  /-- The time that is written. -/
  time : Int
  /-- `page.waitForTimeout` throws. -/
  closed : Bool := false

/-- `command.action`. A file that is no JSON is none; `null` has no properties. -/
def readCommand : Option (Option String) → Except String JsValue
  | some (some text) =>
    match parseJson text.toList with
    | none => .ok .undefined
    | some .null => .error "TypeError"
    | some command => .ok (command.get "action")
  | _ => .ok .undefined

section Loop

variable (options : PauseOptions) (start : Start)

/-- `state`. -/
def state : StateFile where
  id := start.id
  challenge := options.challenge
  redirects := options.redirects
  persistent := options.persistent
  timeoutAt := if options.persistent then none else some (start.time + options.timeoutSeconds * 1000)
  lastCheckedAt := start.time

def deadline : Int := start.clock + options.timeoutSeconds * 1000

/-- Nothing more is polled. -/
def expired (tick : Tick) : Prop := options.persistent = false ∧ deadline options start ≤ tick.now

instance (tick : Tick) : Decidable (expired options start tick) :=
  inferInstanceAs (Decidable (_ ∧ _))

/-- The last state is written, and the pause returns. -/
def finish (pause : Pause) (status : String) (written returned : ChallengeAction) (time : Int) :
    Pause :=
  { pause with
    ended := some (.returned returned time)
    effects := pause.effects ++ [.write { state options start with
      status := status, action := some written, resolvedAt := some time }] }

/-- The end of a turn: a page without a challenge ends the pause. -/
def check (pause : Pause) (tick : Tick) : Pause :=
  match detectChallenge tick.page [] tick.time with
  | none =>
    finish options start { pause with effects := pause.effects ++ [.read tick.page] }
      "resolved" .resume .resume tick.time
  | some _ =>
    { checkCount := pause.checkCount + 1
      ended := if tick.closed then some .threw else none
      effects := pause.effects ++ [.read tick.page] ++
        if (pause.checkCount + 1) % 5 = 0 then
          [.write { state options start with
            checkCount := pause.checkCount + 1, lastCheckedAt := tick.time }]
        else [] }

/-- A command to resume: the page is looked at before it is obeyed. -/
def tryResume (pause : Pause) (tick : Tick) : Pause :=
  match detectChallenge tick.resumed [] tick.time with
  | none =>
    finish options start { pause with effects := pause.effects ++ [.read tick.resumed] }
      "resolved" .resume .resume tick.time
  | some _ =>
    check options start { pause with
      effects := pause.effects ++ [.read tick.resumed, .write { state options start with
        lastError := some "Challenge is still visible. Complete it manually before resuming."
        checkedAt := some tick.time }] } tick

/-- A turn of the loop. -/
def poll (pause : Pause) (tick : Tick) : Pause :=
  match pause.ended with
  | some _ => pause
  | none =>
    if expired options start tick then
      finish options start pause "timed_out" options.onTimeout .timeout tick.time
    else
      match readCommand tick.command with
      | .error _ => { pause with ended := some .threw }
      | .ok action =>
        if action.text? = some "resume" then tryResume options start pause tick
        else if action.text? = some "skip" then
          finish options start pause "skipped" .skip .skip tick.time
        else if action.text? = some "stop" then
          finish options start pause "stopped" .stop .stop tick.time
        else check options start pause tick

def pauses : EventSystem Pause Tick Unit where
  step pause tick := (poll options start pause tick, ())

/-- The first state is written as the pause begins. -/
def begun : Pause := { effects := [.write (state options start)] }

/-- A pause, as far as the ticks go. Without a directory there is nobody to ask. -/
def pauseForIntervention (ticks : List Tick) : Pause :=
  if options.directory.getD "" = "" then { ended := some (.returned .skip start.time) }
  else (pauses options start).run (begun options start) ticks

end Loop

/-! ## The journey -/

/-- `session.challenge_handling`. -/
structure ChallengeHandling where
  enabled : Bool
  timeoutSeconds : Option Int := none
  persistent : Bool := false
  onTimeout : Option ChallengeAction := none

/-- The options that the journey pauses with. -/
def pauseOptions (handling : ChallengeHandling) (detected : DetectedChallenge)
    (redirects : List ChallengeHop) (directory : Option String) : PauseOptions where
  challenge := detected
  redirects := redirects
  timeoutSeconds := min 3600 (max 30 (handling.timeoutSeconds.getD 300))
  persistent := handling.persistent
  onTimeout := handling.onTimeout.getD .skip
  directory := directory

/-- `status`, of the action that a pause returned. -/
def journeyStatus : ChallengeAction → String
  | .resume => "resolved"
  | .skip => "skipped"
  | .stop => "stopped"
  | .timeout => "timed_out"

/-- Whether the journey goes on after its page showed a challenge; no pause, no result. -/
def goesOn (handling : Option ChallengeHandling) (result : Option ChallengeAction) : Bool :=
  handling.any (·.enabled) && result.any fun action => journeyStatus action == "resolved"

/-! ## What a result rests on -/

def Effect.page? : Effect → Option PageState
  | read page => some page
  | write _ => none

def Effect.file? : Effect → Option StateFile
  | read _ => none
  | write file => some file

def lastRead (effects : List Effect) : Option PageState := (effects.filterMap Effect.page?).getLast?

def lastWrite (effects : List Effect) : Option StateFile := (effects.filterMap Effect.file?).getLast?

section Faith

variable (options : PauseOptions) (start : Start)

/-- A result rests on what was read, and is the one written. -/
structure Faithful (pause : Pause) : Prop where
  resumed : ∀ time, pause.ended = some (.returned .resume time) →
    ∃ page content, lastRead pause.effects = some page ∧ page.content = some content ∧
      matchedRule (corpus page []) = none
  written : ∀ action time, pause.ended = some (.returned action time) →
    if options.directory.getD "" = "" then lastWrite pause.effects = none
    else ∃ file, lastWrite pause.effects = some file ∧ file.status = journeyStatus action ∧
      file.action = some (if action = .timeout then options.onTimeout else action)
  persistent : options.persistent = true → ∀ action time,
    pause.ended = some (.returned action time) → action ∈ [.resume, .skip, .stop]

/-- A page that cannot be read, and whose URL meets no rule. -/
def Blind (page : PageState) : Prop :=
  page.content = none ∧ matchedRule (corpus page []) = none

/-- No page that the detector looks at under a command is blind. A command to skip or to stop keeps
it from looking, and so does a page that it has seen to be clean. -/
structure Watched (action : Option String) (tick : Tick) : Prop where
  resumed : action = some "resume" → ¬Blind tick.resumed
  page : action ≠ some "skip" → action ≠ some "stop" →
    (action = some "resume" → matchedRule (corpus tick.resumed []) ≠ none) → ¬Blind tick.page

/-- While the pause goes on, no page that the detector looks at is blind. -/
def Sighted (pause : Pause) (tick : Tick) : Prop :=
  pause.ended = none → ¬expired options start tick →
    ∀ action, readCommand tick.command = .ok action → Watched action.text? tick

variable {options start} {pause : Pause} {tick : Tick} {page : PageState} {time : Int}

theorem detectChallenge_none :
    detectChallenge page [] time = none ↔ matchedRule (corpus page []) = none :=
  Option.map_eq_none_iff

theorem lastRead_concat (effects : List Effect) :
    lastRead (effects ++ [.read page]) = some page := by
  simp [lastRead, Effect.page?]

theorem lastRead_write {file : StateFile} (effects : List Effect) :
    lastRead (effects ++ [.write file]) = lastRead effects := by
  simp [lastRead, Effect.page?]

theorem lastWrite_concat {file : StateFile} (effects : List Effect) :
    lastWrite (effects ++ [.write file]) = some file := by
  simp [lastWrite, Effect.file?]

/-- Nothing is asked of a pause that has not returned. -/
theorem faithful_of_unreturned (h : ∀ action time, pause.ended ≠ some (.returned action time)) :
    Faithful options pause :=
  ⟨fun _ hended => absurd hended (h _ _), fun _ _ hended => absurd hended (h _ _),
    fun _ _ _ hended => absurd hended (h _ _)⟩

variable (hdir : options.directory.getD "" ≠ "")
include hdir

/-- A result other than `resume`, written as it is returned. -/
theorem faithful_finish {status : String} {written returned : ChallengeAction}
    (hreturned : returned ≠ .resume) (hstatus : status = journeyStatus returned)
    (hwritten : written = if returned = .timeout then options.onTimeout else returned)
    (hpersistent : options.persistent = true → returned ≠ .timeout) :
    Faithful options (finish options start pause status written returned time) where
  resumed := by
    rintro _ hended
    cases hended
    exact absurd rfl hreturned
  written := by
    rintro _ _ hended
    cases hended
    rw [if_neg hdir]
    exact ⟨_, lastWrite_concat _, hstatus, congrArg some hwritten⟩
  persistent := by
    rintro hpersist _ _ hended
    cases hended
    have htimeout := hpersistent hpersist
    cases returned <;> simp_all

/-- A page without a challenge lets the journey go on, and does so rightly if it was read. -/
theorem faithful_resumed (hclean : matchedRule (corpus page []) = none) :
    Faithful options (finish options start { pause with effects := pause.effects ++ [.read page] }
      "resolved" .resume .resume time) ↔ ¬Blind page := by
  have hread : lastRead (finish options start
      { pause with effects := pause.effects ++ [.read page] } "resolved" .resume .resume
        time).effects = some page := (lastRead_write _).trans (lastRead_concat _)
  constructor
  · rintro h ⟨hunread, -⟩
    obtain ⟨seen, content, hseen, hcontent, -⟩ := h.resumed time rfl
    rw [hread] at hseen
    obtain rfl := Option.some.inj hseen
    rw [hunread] at hcontent
    cases hcontent
  · intro h
    refine ⟨?_, ?_, ?_⟩
    · rintro _ -
      obtain ⟨content, hcontent⟩ := Option.ne_none_iff_exists'.mp fun hnone => h ⟨hnone, hclean⟩
      exact ⟨page, content, hread, hcontent, hclean⟩
    · rintro _ _ hended
      cases hended
      rw [if_neg hdir]
      exact ⟨_, lastWrite_concat _, rfl, rfl⟩
    · rintro - _ _ hended
      cases hended
      decide

theorem faithful_check : Faithful options (check options start pause tick) ↔ ¬Blind tick.page := by
  unfold check
  split
  · rename_i hnone
    exact faithful_resumed hdir (detectChallenge_none.mp hnone)
  · rename_i detected hdetected
    refine iff_of_true (faithful_of_unreturned fun action time hended => ?_) ?_
    · dsimp only at hended
      split at hended <;> cases hended
    · rintro ⟨-, hclean⟩
      rw [detectChallenge_none.mpr hclean] at hdetected
      cases hdetected

theorem faithful_tryResume : Faithful options (tryResume options start pause tick) ↔
    ¬Blind tick.resumed ∧ (matchedRule (corpus tick.resumed []) ≠ none → ¬Blind tick.page) := by
  unfold tryResume
  split
  · rename_i hnone
    have hclean := detectChallenge_none.mp hnone
    rw [faithful_resumed hdir hclean]
    exact ⟨fun h => ⟨h, fun hother => absurd hclean hother⟩, And.left⟩
  · rename_i detected hdetected
    have hseen : matchedRule (corpus tick.resumed []) ≠ none := fun hclean => by
      rw [detectChallenge_none.mpr hclean] at hdetected
      cases hdetected
    rw [faithful_check hdir]
    exact ⟨fun h => ⟨fun hblind => hseen hblind.2, fun _ => h⟩, fun h => h.2 hseen⟩

/-- A turn is faithful if and only if it is sighted. -/
theorem faithful_poll (h : pause.ended = none) :
    Faithful options (poll options start pause tick) ↔ Sighted options start pause tick := by
  unfold poll
  rw [h]
  dsimp only
  split
  · rename_i hexpired
    refine iff_of_true (faithful_finish hdir (by decide) rfl rfl fun hpersist => ?_)
      fun _ hother => absurd hexpired hother
    rw [hexpired.1] at hpersist
    cases hpersist
  · rename_i hgoing
    split
    · rename_i cause hcause
      refine iff_of_true (faithful_of_unreturned nofun) fun _ _ action hread => ?_
      rw [hcause] at hread
      cases hread
    · rename_i action haction
      have hwatched : Sighted options start pause tick ↔ Watched action.text? tick := by
        refine ⟨fun hs => hs h hgoing action haction, fun hw _ _ other hother => ?_⟩
        rw [haction] at hother
        cases hother
        exact hw
      rw [hwatched]
      split
      · rename_i hresume
        rw [faithful_tryResume hdir, hresume]
        exact ⟨fun hf => ⟨fun _ => hf.1, fun _ _ hseen => hf.2 (hseen rfl)⟩,
          fun hw => ⟨hw.resumed rfl, fun hseen => hw.page (by decide) (by decide) fun _ => hseen⟩⟩
      · rename_i hresume
        split
        · rename_i hskip
          exact iff_of_true (faithful_finish hdir (by decide) rfl rfl fun _ => by decide)
            ⟨fun hother => absurd hother hresume, fun hother => absurd hskip hother⟩
        · rename_i hskip
          split
          · rename_i hstop
            exact iff_of_true (faithful_finish hdir (by decide) rfl rfl fun _ => by decide)
              ⟨fun hother => absurd hother hresume, fun _ hother => absurd hstop hother⟩
          · rename_i hstop
            rw [faithful_check hdir]
            exact ⟨fun hseen => ⟨fun hother => absurd hother hresume, fun _ _ _ => hseen⟩,
              fun hw => hw.page hskip hstop fun hother => absurd hother hresume⟩

omit hdir

/-- A pause that has ended stays as it is. -/
theorem poll_ended (h : pause.ended ≠ none) : poll options start pause tick = pause := by
  obtain ⟨ended, hended⟩ := Option.ne_none_iff_exists'.mp h
  unfold poll
  rw [hended]

theorem run_ended (h : pause.ended ≠ none) (ticks : List Tick) :
    (pauses options start).run pause ticks = pause := by
  refine EventSystem.run_inv_true (P := (· = pause)) rfl ?_
  rintro _ tick rfl
  exact poll_ended h

include hdir

/-- A pause goes on faithfully if and only if it is sighted: the first turn that is not ends it. -/
theorem faithful_run (ticks : List Tick) (h : pause.ended ≠ none → Faithful options pause) :
    Faithful options ((pauses options start).run pause ticks) ↔
      (pauses options start).Along (Sighted options start) pause ticks := by
  induction ticks generalizing pause with
  | nil =>
    refine iff_of_true ?_ trivial
    by_cases hended : pause.ended = none
    · refine faithful_of_unreturned fun _ _ hother => ?_
      change pause.ended = _ at hother
      rw [hended] at hother
      cases hother
    · exact h hended
  | cons tick ticks ih =>
    rw [EventSystem.run_cons]
    change Faithful options ((pauses options start).run (poll options start pause tick) ticks) ↔
      Sighted options start pause tick ∧
        (pauses options start).Along (Sighted options start) (poll options start pause tick) ticks
    by_cases hended : pause.ended = none
    · have hpoll := @faithful_poll options start pause tick hdir hended
      by_cases hsighted : Sighted options start pause tick
      · rw [ih fun _ => hpoll.mpr hsighted, and_iff_right hsighted]
      · have hnext : (poll options start pause tick).ended ≠ none := fun hnone =>
          hsighted (hpoll.mp (faithful_of_unreturned fun _ _ hother => by
            rw [hnone] at hother
            cases hother))
        rw [run_ended hnext, hpoll]
        exact ⟨fun hother => absurd hother hsighted, fun hother => absurd hother.1 hsighted⟩
    · rw [poll_ended hended, ih h]
      exact ⟨fun halong => ⟨fun hnone => absurd hnone hended, halong⟩, And.right⟩

end Faith

/-- **A pause is faithful** if and only if, for as long as it goes on, no page that it looks at is
blind: a page that cannot be read is taken for a clean one. -/
theorem faithful_iff (options : PauseOptions) (start : Start) (ticks : List Tick) :
    Faithful options (pauseForIntervention options start ticks) ↔
      (options.directory.getD "" ≠ "" →
        (pauses options start).Along (Sighted options start) (begun options start) ticks) := by
  unfold pauseForIntervention
  split
  · rename_i hnone
    refine iff_of_true ⟨nofun, ?_, ?_⟩ fun hdir => absurd hnone hdir
    · rintro _ _ -
      rw [if_pos hnone]
      rfl
    · rintro - _ _ hended
      cases hended
      decide
  · rename_i hdir
    rw [faithful_run hdir ticks fun hended => absurd rfl hended]
    exact ⟨fun h _ => h, fun h => h hdir⟩

/-- After a challenge, the journey goes on with the result `resume` alone. -/
theorem goesOn_iff (handling : Option ChallengeHandling) (result : Option ChallengeAction) :
    goesOn handling result = true ↔ handling.any (·.enabled) = true ∧ result = some .resume := by
  unfold goesOn
  rw [Bool.and_eq_true]
  refine and_congr_right fun _ => ?_
  rcases result with - | action
  · simp
  · cases action <;> simp [journeyStatus]

section Sample

def shopChallenge : DetectedChallenge where
  vendor := .datadome
  challengeType := "datadome"
  referenceId := none
  url := "https://shop.example/"
  title := "Verify"
  evidence := ["captcha-delivery.com"]
  detectedAt := 0

def shopOptions : PauseOptions where
  challenge := shopChallenge
  redirects := []
  timeoutSeconds := 300
  onTimeout := .skip
  directory := some "challenges"

/-- The page of the shop, with `page.evaluate` failing while it navigates. -/
def unreadPage : PageState where
  url := "https://shop.example/"
  content := none

/-- Nobody has done anything, and the page is not read: the pause returns `resume`. -/
theorem unread_resumed : ¬Faithful shopOptions (pauseForIntervention shopOptions ⟨"7", 0, 0⟩
    [{ now := 1, command := none, resumed := unreadPage, page := unreadPage, time := 1 }]) := by
  have hclean : matchedRule (corpus unreadPage []) = none := by decide +kernel
  have hdir : shopOptions.directory.getD "" ≠ "" := by decide
  unfold pauseForIntervention
  rw [if_neg hdir, faithful_run hdir _ fun hended => absurd rfl hended]
  intro h
  have hwatched := h.1 rfl (by decide) _ rfl
  exact hwatched.page nofun nofun nofun ⟨rfl, hclean⟩

end Sample

end LinkSuffix.Intervention
