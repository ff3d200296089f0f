import LinkSuffix.Lib.Run
import LinkSuffix.Text
import Mathlib.Logic.Function.Basic

/-!
# The capture queue of the control server

`queueL4Capture` chains one task per reported result behind the previous task of the run. A task
saves the capture, decides whether its suffix is new to the campaign, and publishes a new one; the
publication is the only place it is suspended. The decision compares with
`campaign.latestSuffix`, which `persistL4Capture` has overwritten for every earlier capture, also
for one whose publication then failed, and which every settled publication writes once more.

One saved campaign is modelled, with every result of its runs; the chain of a run may be forgotten
at any time (`captureQueues.delete` at the end of the run and in the maintenance timer), and runs
overlap freely.

* `control`: the tasks and the campaign record, one event for each uninterrupted piece of code.
* `Submitted`: a skipped suffix was the last one published.
* **`submitted_run`**: while publications settle in order, that holds exactly when no capture
  repeats a suffix whose publication is the last attempted and has not succeeded.
* **`failed_suffix_skipped`**: the repeated failure breaks it.
-/

namespace LinkSuffix

open Lib

/-! ## Captures -/

/-- What `evaluateCaptureResult` decides about a result. -/
inductive CaptureDecision where
  | accepted (evidence finalUrl suffix : String)
  | rejected (code message : String)
  deriving DecidableEq

/-- A result as a worker reports it, with the decision on it. -/
structure CaptureResult where
  decision : CaptureDecision
  sessionId : String
  repeatIndex : Nat
  deriving DecidableEq

/-- `capture`. -/
structure Capture where
  capturedAt : Nat
  runId : String
  sessionId : String
  repeatIndex : Nat
  evidence : String
  finalUrl : String
  suffix : String
  deriving DecidableEq

/-- The record of a saved campaign: what a capture writes. -/
structure Campaign where
  latestSuffix : Option String := none
  lastCapturedAt : Option Nat := none
  captureHistory : List Capture := []
  lastMeshVersion : Option Nat := none
  scriptFleetShardId : Option String := none
  deriving DecidableEq

/-- `values.slice(-n)`. -/
def sliceLast {α : Type} (n : Nat) (values : List α) : List α := values.drop (values.length - n)

/-- `persistL4Capture`: the capture, and the record it is saved in. -/
def persistL4Capture (campaign : Campaign) (runId : String) (result : CaptureResult) (now : Nat) :
    Option (Capture × Campaign) :=
  match result.decision with
  | .rejected _ _ => none
  | .accepted evidence finalUrl suffix =>
    let capture : Capture := {
      capturedAt := now
      runId := runId
      sessionId := result.sessionId
      repeatIndex := result.repeatIndex
      evidence := evidence
      finalUrl := finalUrl
      suffix := suffix }
    some (capture, { campaign with
      latestSuffix := some suffix
      lastCapturedAt := some now
      captureHistory := sliceLast 100 (campaign.captureHistory ++ [capture]) })

/-- `clean(value, max)`. -/
def clean (max : Nat) (value : String) : String := sliceTo max (trim value)

/-! ## Publications -/

/-- The delivery flags of a run. -/
structure DeliveryFlags where
  syncGoogleAds : Bool
  useScriptMesh : Bool
  deriving DecidableEq

/-- `pushCapturedSuffixToAds` or `publishL4CaptureToMesh`. -/
inductive Channel where
  | ads | mesh
  deriving DecidableEq

/-- The publication a run makes. -/
def DeliveryFlags.channel (flags : DeliveryFlags) : Option Channel :=
  if flags.syncGoogleAds then some .ads
  else if flags.useScriptMesh then some .mesh
  else none

/-- What a successful publication returns: `adsPush.at`, or the queued version and shard. -/
structure Receipt where
  pushedAt : Option Nat := none
  version : Option Nat := none
  shardId : Option String := none
  deriving DecidableEq

/-- How a publication settles: its receipt, or the message of the error. -/
abbrev Outcome := Except String Receipt

/-- A publication attempted by a task; `succeeded` is unknown while it is in flight. -/
structure Publication where
  task : Nat
  suffix : String
  succeeded : Option Bool := none
  deriving DecidableEq

/-! ## Tasks -/

/-- Where a task is. -/
inductive TaskState where
  | waiting
  | publishing (channel : Channel) (capture : Capture)
  | settled
  deriving DecidableEq

/-- A task of `queueL4Capture`, behind the task it was chained to. -/
structure Task where
  runId : String
  result : CaptureResult
  previous : Option Nat
  state : TaskState := .waiting
  deriving DecidableEq

/-- The server's state: the campaign record, the tasks so far by number, the last task of every
run's chain, and every publication attempted. -/
structure Control where
  campaign : Campaign := {}
  tasks : List Task := []
  captureQueues : String → Option Nat := fun _ => none
  unchangedSuffixDeliveriesSkipped : Nat := 0
  publications : List Publication := []

/-- What the server sends its clients about a capture. -/
structure CaptureBroadcast where
  capture : Capture
  adsPush : Option Receipt
  meshDelivery : Option Receipt
  syncError : Option String
  suffixUnchanged : Bool
  deriving DecidableEq

/-- What an event shows outside. -/
inductive ControlReply where
  | silent
  | rejected
  | publishing (channel : Channel) (capture : Capture)
  | broadcast (message : CaptureBroadcast)
  deriving DecidableEq

namespace Control

variable (s : Control)

/-- The task is there, has not begun, and the task before it has settled. -/
def startable (i : Nat) : Option Task :=
  (s.tasks[i]?).filter fun t =>
    t.state = .waiting ∧ t.previous.all fun p => (s.tasks[p]?).any (·.state = .settled)

def setState (i : Nat) (state : TaskState) : Control :=
  { s with tasks := s.tasks.modify i fun t => { t with state := state } }

/-- The end of a task whose capture was saved. -/
def finish (i : Nat) (channel : Option Channel) (capture : Capture) (outcome : Option Outcome)
    (suffixUnchanged : Bool) : Control × ControlReply :=
  let receipt : Option Receipt := match outcome with
    | some (.ok receipt) => some receipt
    | _ => none
  let syncError : Option String := match outcome with
    | some (.error message) => some message
    | _ => none
  let meshDelivery : Option Receipt := if channel = some .mesh then receipt else none
  let shardId : Option String := (meshDelivery.bind (·.shardId)).filter (· ≠ "")
  let campaign : Campaign := { s.campaign with
    latestSuffix := some capture.suffix
    lastCapturedAt := some capture.capturedAt
    lastMeshVersion := (meshDelivery.bind (·.version)).or s.campaign.lastMeshVersion
    scriptFleetShardId := (shardId.map (clean 80)).or s.campaign.scriptFleetShardId }
  ({ s with campaign := campaign }.setState i .settled,
    .broadcast {
      capture := capture
      adsPush := if channel = some .ads then receipt else none
      meshDelivery := meshDelivery
      syncError := syncError
      suffixUnchanged := suffixUnchanged })

/-- A task up to its publication, or to its end. -/
def begin (i : Nat) (t : Task) (flags : DeliveryFlags) (now : Nat) : Control × ControlReply :=
  let previousSuffix := s.campaign.latestSuffix
  match persistL4Capture s.campaign t.runId t.result now with
  | none => (s.setState i .settled, .rejected)
  | some (capture, campaign) =>
    let suffixUnchanged : Bool := previousSuffix = some capture.suffix
    let saved : Control := { s with
      campaign := campaign
      unchangedSuffixDeliveriesSkipped :=
        s.unchangedSuffixDeliveriesSkipped + if suffixUnchanged then 1 else 0 }
    match flags.channel with
    | some channel =>
      if suffixUnchanged then saved.finish i none capture none true
      else
        (({ saved with
            publications := saved.publications ++ [{ task := i, suffix := capture.suffix }] }
          : Control).setState i (.publishing channel capture), .publishing channel capture)
    | none => saved.finish i none capture none suffixUnchanged

/-- The publication of task `i` has settled. -/
def settlePublication (i : Nat) (succeeded : Bool) : Control :=
  { s with
    publications := s.publications.map fun p =>
      if p.task = i then { p with succeeded := some succeeded } else p }

end Control

/-- What happens to the queue. -/
inductive ControlEvent where
  /-- `queueL4Capture`. -/
  | queue (runId : String) (result : CaptureResult)
  /-- `captureQueues.delete`. -/
  | forget (runId : String)
  /-- Task `i` begins, with the flags its run has now. -/
  | start (i : Nat) (flags : DeliveryFlags) (now : Nat)
  /-- The publication of task `i` settles. -/
  | settle (i : Nat) (outcome : Outcome)
  deriving DecidableEq

/-- One event. -/
def Control.step (s : Control) : ControlEvent → Control × ControlReply
  | .queue runId result =>
    ({ s with
      tasks := s.tasks ++ [⟨runId, result, s.captureQueues runId, .waiting⟩]
      captureQueues := Function.update s.captureQueues runId (some s.tasks.length) }, .silent)
  | .forget runId =>
    ({ s with captureQueues := Function.update s.captureQueues runId none }, .silent)
  | .start i flags now =>
    match s.startable i with
    | some t => s.begin i t flags now
    | none => (s, .silent)
  | .settle i outcome =>
    match s.tasks[i]? with
    | some ⟨_, _, _, .publishing channel capture⟩ =>
      (s.settlePublication i outcome.toBool).finish i (some channel) capture (some outcome) false
    | _ => (s, .silent)

/-- The capture queue as an event system. -/
def control : EventSystem Control ControlEvent ControlReply where
  step := Control.step

/-! ## Skipped and retried suffixes -/

/-- The suffix of the accepted capture the event begins to process. -/
def Control.carries (s : Control) : ControlEvent → Option String
  | .start i _ _ => (s.startable i).bind fun t =>
    match t.result.decision with
    | .accepted _ _ suffix => some suffix
    | .rejected _ _ => none
  | _ => none

/-- The suffix whose publication was skipped. -/
def ControlReply.skipped : ControlReply → Option String
  | .broadcast message => if message.suffixUnchanged then some message.capture.suffix else none
  | _ => none

/-- The suffix whose publication was attempted. -/
def ControlReply.attempted : ControlReply → Option String
  | .publishing _ capture => some capture.suffix
  | _ => none

/-- The last publication attempted that carried the suffix. -/
def Control.lastPublicationOf (s : Control) (suffix : String) : Option Publication :=
  (s.publications.filter (·.suffix = suffix)).getLast?

/-- A skipped suffix was the last one published. -/
def SkipsPublished (s : Control) (e : ControlEvent) : Prop :=
  ∀ suffix ∈ (control.reply s e).skipped, ∃ p ∈ s.publications.getLast?,
    p.suffix = suffix ∧ p.succeeded = some true

/-- A suffix whose publication failed is published again. -/
def RetriesFailed (s : Control) (e : ControlEvent) : Prop :=
  ∀ suffix ∈ s.carries e, ∀ p ∈ s.lastPublicationOf suffix, p.succeeded = some false →
    (control.reply s e).attempted = some suffix

/-- Every changed suffix gets submitted. -/
structure Submitted (s : Control) (e : ControlEvent) : Prop where
  published : SkipsPublished s e
  retried : RetriesFailed s e

/-- The run publishes: Google Ads sync or the script mesh is on. -/
def ControlEvent.delivers : ControlEvent → Bool
  | .start _ flags _ => flags.channel.isSome
  | _ => true

/-- A publication settles only if none of another suffix was attempted after it. -/
def SettlesInOrder (s : Control) : ControlEvent → Prop
  | .settle i _ =>
    match s.tasks[i]? with
    | some ⟨_, _, _, .publishing _ capture⟩ =>
      s.publications.getLast?.map (·.suffix) = some capture.suffix
    | _ => True
  | _ => True

/-- The capture does not repeat the suffix of the last publication attempted, unless that one has
succeeded. -/
def Unrepeated (s : Control) (e : ControlEvent) : Prop :=
  ∀ suffix ∈ s.carries e, ∀ p ∈ s.publications.getLast?, p.suffix = suffix →
    p.succeeded = some true

section Proofs

variable {s : Control} {e : ControlEvent}

/-! ## The record follows the publications -/

/-- The campaign's latest suffix is the one last attempted. -/
def Tracks (s : Control) : Prop :=
  s.campaign.latestSuffix = s.publications.getLast?.map (·.suffix)

theorem finish_latestSuffix (i : Nat) (channel : Option Channel) (capture : Capture)
    (outcome : Option Outcome) (unchanged : Bool) :
    (s.finish i channel capture outcome unchanged).1.campaign.latestSuffix
      = some capture.suffix := rfl

theorem finish_publications (i : Nat) (channel : Option Channel) (capture : Capture)
    (outcome : Option Outcome) (unchanged : Bool) :
    (s.finish i channel capture outcome unchanged).1.publications = s.publications := rfl

theorem settlePublication_suffixes (i : Nat) (succeeded : Bool) :
    (s.settlePublication i succeeded).publications.getLast?.map (·.suffix)
      = s.publications.getLast?.map (·.suffix) := by
  unfold Control.settlePublication
  rw [List.getLast?_map, Option.map_map]
  congr 1
  funext p
  simp only [Function.comp_apply]
  split
  · rfl
  · rfl

/-- What beginning an accepted capture does when its run publishes. -/
theorem start_ok (now : Nat) {i : Nat} {t : Task} {flags : DeliveryFlags} {channel : Channel}
    {evidence finalUrl suffix : String} (ht : s.startable i = some t)
    (hd : t.result.decision = .accepted evidence finalUrl suffix)
    (hc : flags.channel = some channel) :
    (s.campaign.latestSuffix = some suffix ∧
      (control.reply s (.start i flags now)).skipped = some suffix ∧
      (control.next s (.start i flags now)).campaign.latestSuffix = some suffix ∧
      (control.next s (.start i flags now)).publications = s.publications) ∨
    (s.campaign.latestSuffix ≠ some suffix ∧
      (control.reply s (.start i flags now)).attempted = some suffix ∧
      (control.reply s (.start i flags now)).skipped = none ∧
      (control.next s (.start i flags now)).campaign.latestSuffix = some suffix ∧
      (control.next s (.start i flags now)).publications
        = s.publications ++ [{ task := i, suffix := suffix }]) := by
  have hstep : control.step s (.start i flags now) = s.begin i t flags now := by
    simp only [control, Control.step, ht]
  unfold EventSystem.reply EventSystem.next
  rw [hstep]
  unfold Control.begin persistL4Capture
  simp only [hd, hc]
  by_cases hsame : s.campaign.latestSuffix = some suffix
  · refine Or.inl ⟨hsame, ?_⟩
    simp only [hsame, decide_true, if_true]
    exact ⟨rfl, rfl, rfl⟩
  · refine Or.inr ⟨hsame, ?_⟩
    simp only [hsame, decide_false, Bool.false_eq_true, if_false]
    exact ⟨rfl, rfl, rfl, rfl⟩

/-- An event begins an accepted capture, or leaves the record's suffix to a settled publication. -/
theorem carries_eq_some {suffix : String} : s.carries e = some suffix ↔
    ∃ i flags now t evidence finalUrl, e = .start i flags now ∧ s.startable i = some t
      ∧ t.result.decision = .accepted evidence finalUrl suffix := by
  constructor
  · intro h
    cases e with
    | start i flags now =>
      obtain ⟨t, ht, hd⟩ := Option.bind_eq_some_iff.mp h
      split at hd
      · rename_i evidence finalUrl suffix' hdec
        obtain rfl := Option.some.inj hd
        exact ⟨i, flags, now, t, evidence, finalUrl, rfl, ht, hdec⟩
      · exact absurd hd (by simp)
    | queue runId result => exact absurd h (by simp [Control.carries])
    | forget runId => exact absurd h (by simp [Control.carries])
    | settle i outcome => exact absurd h (by simp [Control.carries])
  · rintro ⟨i, flags, now, t, evidence, finalUrl, rfl, ht, hd⟩
    simp [Control.carries, ht, hd]

theorem next_silent (h : control.step s e = (s, .silent)) : control.next s e = s := by
  unfold EventSystem.next
  rw [h]

theorem tracks_step (htracks : Tracks s) (hd : e.delivers = true) (hord : SettlesInOrder s e) :
    Tracks (control.next s e) := by
  cases e with
  | queue runId result => exact htracks
  | forget runId => exact htracks
  | start i flags now =>
    cases ht : s.startable i with
    | none =>
      rw [next_silent (by simp only [control, Control.step, ht])]
      exact htracks
    | some t =>
      cases hdec : t.result.decision with
      | rejected code message =>
        have hnext : control.next s (.start i flags now) = s.setState i .settled := by
          simp only [EventSystem.next, control, Control.step, ht, Control.begin, persistL4Capture,
            hdec]
        rw [hnext]
        exact htracks
      | accepted evidence finalUrl suffix =>
        obtain ⟨channel, hc⟩ := Option.isSome_iff_exists.mp hd
        unfold Tracks at htracks ⊢
        rcases start_ok now ht hdec hc with ⟨hsame, -, hl, hp⟩ | ⟨-, -, -, hl, hp⟩
        · rw [hl, hp, ← htracks, hsame]
        · rw [hl, hp, List.getLast?_concat]
          rfl
  | settle i outcome =>
    simp only [SettlesInOrder] at hord
    split at hord
    · -- The settled publication writes its suffix again; it is the last one's.
      rename_i channel capture ht
      have hnext : control.next s (.settle i outcome) =
          ((s.settlePublication i outcome.toBool).finish i (some channel) capture (some outcome)
            false).1 := by
        simp only [EventSystem.next, control, Control.step, ht]
      unfold Tracks
      rw [hnext, finish_latestSuffix, finish_publications, settlePublication_suffixes, hord]
    · rename_i hother
      rw [next_silent ?_]
      · exact htracks
      · simp only [control, Control.step]

/-! ## Submission -/

/-- The last publication attempted is the last one of its suffix. -/
theorem lastPublicationOf_last {p : Publication} (h : s.publications.getLast? = some p) :
    s.lastPublicationOf p.suffix = some p := by
  obtain ⟨before, hlist⟩ := List.getLast?_eq_some_iff.mp h
  unfold Control.lastPublicationOf
  rw [hlist, List.filter_append]
  simp

/-- A publication is skipped for the suffix the record holds. -/
theorem skipped_carries {suffix : String} (hd : e.delivers = true)
    (h : (control.reply s e).skipped = some suffix) :
    s.carries e = some suffix ∧ s.campaign.latestSuffix = some suffix := by
  cases e with
  | queue runId result => exact absurd h (by simp [EventSystem.reply, control, Control.step,
      ControlReply.skipped])
  | forget runId => exact absurd h (by simp [EventSystem.reply, control, Control.step,
      ControlReply.skipped])
  | settle i outcome =>
    simp only [EventSystem.reply, control, Control.step] at h
    split at h
    · exact absurd h (by simp [Control.finish, ControlReply.skipped])
    · exact absurd h (by simp [ControlReply.skipped])
  | start i flags now =>
    cases ht : s.startable i with
    | none =>
      simp only [EventSystem.reply, control, Control.step, ht] at h
      exact absurd h (by simp [ControlReply.skipped])
    | some t =>
      cases hdec : t.result.decision with
      | rejected code message =>
        simp only [EventSystem.reply, control, Control.step, ht, Control.begin, persistL4Capture,
          hdec] at h
        exact absurd h (by simp [ControlReply.skipped])
      | accepted evidence finalUrl carried =>
        obtain ⟨channel, hc⟩ := Option.isSome_iff_exists.mp hd
        rcases start_ok now ht hdec hc with ⟨hsame, hskip, -⟩ | ⟨-, -, hskip, -⟩
        · obtain rfl := Option.some.inj (hskip.symm.trans h)
          exact ⟨carries_eq_some.mpr ⟨i, flags, now, t, evidence, finalUrl, rfl, ht, hdec⟩, hsame⟩
        · exact absurd (hskip.symm.trans h) (by simp)

/-- While the record follows the publications, a suffix is submitted exactly if it does not repeat
an unsuccessful one. -/
theorem submitted_iff (htracks : Tracks s) (hd : e.delivers = true) :
    Submitted s e ↔ Unrepeated s e := by
  have hlast : ∀ suffix, s.campaign.latestSuffix = some suffix →
      ∃ p, s.publications.getLast? = some p ∧ p.suffix = suffix := by
    intro suffix h
    exact Option.map_eq_some_iff.mp (htracks.symm.trans h)
  constructor
  · rintro ⟨hpub, -⟩ suffix hs p hp hsuffix
    obtain ⟨i, flags, now, t, evidence, finalUrl, rfl, ht, hdec⟩ := carries_eq_some.mp hs
    obtain ⟨channel, hc⟩ := Option.isSome_iff_exists.mp hd
    have hlatest : s.campaign.latestSuffix = some suffix := by
      rw [htracks, Option.mem_def.mp hp, ← hsuffix]
      rfl
    rcases start_ok now ht hdec hc with ⟨-, hskip, -⟩ | ⟨hne, -⟩
    · obtain ⟨q, hq, -, hok⟩ := hpub suffix hskip
      obtain rfl := Option.mem_unique hp hq
      exact hok
    · exact absurd hlatest hne
  · intro hun
    constructor
    · intro suffix hskip
      obtain ⟨hs, hlatest⟩ := skipped_carries hd hskip
      obtain ⟨p, hp, hsuffix⟩ := hlast suffix hlatest
      exact ⟨p, hp, hsuffix, hun suffix hs p hp hsuffix⟩
    · intro suffix hs p hp hfailed
      obtain ⟨i, flags, now, t, evidence, finalUrl, rfl, ht, hdec⟩ := carries_eq_some.mp hs
      obtain ⟨channel, hc⟩ := Option.isSome_iff_exists.mp hd
      rcases start_ok now ht hdec hc with ⟨hsame, -⟩ | ⟨-, hattempt, -⟩
      · -- The record's suffix is the last attempted one's, which has succeeded.
        obtain ⟨q, hq, rfl⟩ := hlast suffix hsame
        obtain rfl := Option.mem_unique hp (lastPublicationOf_last hq)
        exact absurd (hfailed.symm.trans (hun _ hs p hq rfl)) (by simp)
      · exact hattempt

end Proofs

/-- **Submission.** In every run whose publications settle in order, every changed suffix is
submitted if and only if no capture repeats the suffix of the last publication attempted unless
that one has succeeded. -/
theorem submitted_run (es : List ControlEvent) (hd : ∀ e ∈ es, e.delivers = true)
    (hord : control.Along SettlesInOrder {} es) :
    control.Along Submitted {} es ↔ control.Along Unrepeated {} es := by
  have hdelivers : control.Along (fun _ e => e.delivers = true) {} es :=
    EventSystem.along_of_split fun pre e post he => hd e (by simp [he])
  have htracks : ∀ s e, Tracks s → e.delivers = true ∧ SettlesInOrder s e →
      Tracks (control.next s e) := fun s e h hg => tracks_step h hg.1 hg.2
  constructor
  · intro h
    exact EventSystem.along_of_inv (P := Tracks) rfl (fun s e hs hg => htracks s e hs hg.1)
      (fun s e hs hg => (submitted_iff hs hg.1.1).mp hg.2) ((hdelivers.and hord).and h)
  · intro h
    exact EventSystem.along_of_inv (P := Tracks) rfl (fun s e hs hg => htracks s e hs hg.1)
      (fun s e hs hg => (submitted_iff hs hg.1.1).mpr hg.2) ((hdelivers.and hord).and h)

/-! ## Runs of one campaign -/

namespace ControlSample

def flags : DeliveryFlags := ⟨false, true⟩

def result (suffix : String) : CaptureResult where
  decision := .accepted "document-response" ("https://shop.example/?" ++ suffix) suffix
  sessionId := "session"
  repeatIndex := 0

/-- Task `i`: a capture of one run, published and settled. -/
def capture (i : Nat) (suffix : String) (outcome : Outcome) : List ControlEvent :=
  [.queue "run" (result suffix), .start i flags i, .settle i outcome]

end ControlSample

instance (s : Control) (e : ControlEvent) : Decidable (SettlesInOrder s e) := by
  unfold SettlesInOrder
  split
  · split
    · infer_instance
    · infer_instance
  · infer_instance

instance (s : Control) (e : ControlEvent) : Decidable (Unrepeated s e) := by
  unfold Unrepeated
  infer_instance

instance (s : Control) (e : ControlEvent) : Decidable (SkipsPublished s e) := by
  unfold SkipsPublished
  infer_instance

/-- A failed suffix, another one, the first again, and a repetition that is skipped. -/
theorem submitted_run_retried : control.Along Submitted {}
    (ControlSample.capture 0 "a=1" (.error "HTTP 503") ++ ControlSample.capture 1 "a=2" (.ok {})
      ++ ControlSample.capture 2 "a=1" (.ok {}) ++ ControlSample.capture 3 "a=1" (.ok {})) :=
  (submitted_run _ (by decide) (by decide +kernel)).mpr (by decide +kernel)

/-- **A failed suffix is skipped.** The publication of a capture fails, and the next capture
carries the same suffix. -/
theorem failed_suffix_skipped :
    ¬ ∀ es : List ControlEvent, (∀ e ∈ es, e.delivers = true) → control.Along Submitted {} es := by
  intro h
  have hrun := h (ControlSample.capture 0 "a=1" (.error "HTTP 503")
    ++ ControlSample.capture 1 "a=1" (.ok {})) (by decide)
  have hskips : control.Along SkipsPublished {} (ControlSample.capture 0 "a=1" (.error "HTTP 503")
      ++ ControlSample.capture 1 "a=1" (.ok {})) := hrun.mono fun _ _ h => h.published
  exact absurd hskips (by decide +kernel)

end LinkSuffix
