import LinkSuffix.Control.CampaignRecord

/-!
# Capture history and saves

A save of a campaign's configuration may come between any two captures, and between the two sides of
an await of any other handler.

* `accepted`: the captures that the campaign has accepted. `HistoryKept`: the last hundred of them
  are its history.
* `Framed`: a piece of a save keeps what is not its own. `SavesListed`: no save goes through that
  would lose a field. `framed_iff`.
* `Follows`: what a piece does to the history. `recorded_step`.
* **`record_kept_iff`**, `history_lost`.
-/

namespace LinkSuffix.CampaignRecord

open Lib
open ControlServer (Status)

/-! ## What is asked -/

/-- The captures that the campaign accepts. -/
def accepted (settings : Settings) (s : InFlight Server Call) (e : AwaitEvent Input Answer) :
    List Capture :=
  match (server settings).events.reply s e with
  | .accepted capture => [capture]
  | _ => []

/-- The state after a run, from before the campaign was created. -/
def after (settings : Settings) (es : List (AwaitEvent Input Answer)) : InFlight Server Call :=
  (server settings).events.run ⟨{}, []⟩ es

/-- The history in the map is the last hundred accepted captures. -/
def HistoryKept (settings : Settings) (es : List (AwaitEvent Input Answer)) : Prop :=
  ∀ ref record, (after settings es).shared.stored = some (ref, record) →
    record.captureHistory =
      sliceLast 100 ((server settings).events.collect (accepted settings) ⟨{}, []⟩ es)

/-- Nothing but the name, the configuration, the time of the update and what a proxy selection sets,
if there is one, has changed. -/
def Record.Keeps (selects : Bool) (r r' : Record) : Prop :=
  r' = { r with
    name := r'.name
    config := r'.config
    updatedAt := r'.updatedAt
    status := if selects then r'.status else r.status
    desiredRunning := if selects then r'.desiredRunning else r.desiredRunning
    proxySelectionPending := if selects then r'.proxySelectionPending else r.proxySelectionPending
    lastError := if selects then r'.lastError else r.lastError }

/-- The piece that follows settles a proxy selection. -/
def SaveStage.selects : SaveStage → Bool
  | .selected selection => selection.changed
  | .holding _ _ | .assigning _ _ | .settled _ | .refused _ => true
  | _ => false

/-- A piece of a save keeps the record, apart from what is its own. -/
def Framed (settings : Settings) (s : InFlight Server Call) (e : AwaitEvent Input Answer) : Prop :=
  ∀ n a ticket created payload stage ref record, e = .answer n a →
    s.calls[n]? = some (.saving ticket created payload stage) →
    s.shared.stored = some (ref, record) →
    ∃ ref' record', ((server settings).events.next s e).shared.stored = some (ref', record') ∧
      record.Keeps stage.selects record'

/-- The record has none of the fields that `saveCampaignInternal` does not list. -/
def Record.Listed (r : Record) : Prop :=
  r = { r with
    captureHistory := []
    lastCaptureRejection := none
    lastMeshVersion := none
    lastMeshQueuedAt := none
    retryCount := none
    nextRetryAt := none
    fleetActivationState := none
    fleetAccountLastPollAt := none
    fleetManifestSeenAt := none
    fleetActivationWaiting := none
    lastRecoveryAt := none
    lastRecoveryReason := none }

/-- The piece that follows builds the new object. -/
def SaveStage.commits : SaveStage → Bool
  | .selected _ | .policy => true
  | _ => false

/-- No save of the existing campaign goes through while its record has a field that is not
listed. -/
def SavesListed (s : InFlight Server Call) (e : AwaitEvent Input Answer) : Prop :=
  ∀ n a ticket payload stage ref record, e = .answer n a →
    s.calls[n]? = some (.saving ticket false payload stage) → stage.commits = true →
    a.error = none → s.shared.stored = some (ref, record) → record.Listed

/-! ## The objects -/

section Objects

variable {s : Server} {ref : Ref} {record : Record}

theorem stored_eq_some :
    s.stored = some (ref, record) ↔ s.current = some ref ∧ s.objects[ref]? = some record := by
  unfold Server.stored
  cases hcurrent : s.current with
  | none => exact iff_of_false nofun fun h => by cases h.1
  | some ref' =>
    cases hobject : s.objects[ref']? with
    | none =>
      refine iff_of_false (fun h => ?_) fun h => ?_
      · simp [hobject] at h
      · rw [Option.some.inj h.1, h.2] at hobject
        cases hobject
    | some record' =>
      simp only [Option.bind_eq_bind, Option.bind_some, hobject, Option.pure_def, Option.some.injEq,
        Prod.mk.injEq]
      constructor
      · rintro ⟨rfl, rfl⟩
        exact ⟨rfl, hobject⟩
      · rintro ⟨rfl, h⟩
        exact ⟨rfl, Option.some.inj (hobject.symm.trans h)⟩

/-- A write to an object, as the map shows it. -/
theorem stored_modify {f : Record → Record} {held : Ref} {record' : Record}
    (h : (s.modify held f).stored = some (ref, record')) :
    ∃ record, s.stored = some (ref, record) ∧
      record' = if held = ref then f record else record := by
  obtain ⟨hcurrent, hobject⟩ := stored_eq_some.mp h
  have hmodified : (s.objects.modify held f)[ref]? = some record' := hobject
  rw [List.getElem?_modify] at hmodified
  obtain ⟨record, hrecord, rfl⟩ := Option.map_eq_some_iff.mp hmodified
  refine ⟨record, stored_eq_some.mpr ⟨hcurrent, hrecord⟩, ?_⟩
  split
  · rfl
  · rfl

theorem modify_stored {f : Record → Record} {held : Ref}
    (h : s.stored = some (ref, record)) :
    (s.modify held f).stored = some (ref, if held = ref then f record else record) := by
  obtain ⟨hcurrent, hobject⟩ := stored_eq_some.mp h
  refine stored_eq_some.mpr ⟨hcurrent, ?_⟩
  show (s.objects.modify held f)[ref]? = _
  rw [List.getElem?_modify, hobject]
  split
  · rfl
  · rfl

theorem store_stored : (s.store record).stored = some (s.objects.length, record) :=
  stored_eq_some.mpr ⟨rfl, List.getElem?_concat_length⟩

end Objects

/-! ## The frame of a save -/

section Frame

variable {r : Record}

theorem keeps_refl (selects : Bool) (r : Record) : r.Keeps selects r := by
  unfold Record.Keeps
  cases selects with
  | false => rfl
  | true => rfl

theorem keeps_selected (settledStatus : Status) : r.Keeps true (r.selected settledStatus) := rfl

theorem keeps_unselected : r.Keeps true r.unselected := rfl

/-- **The new object** keeps what the old one had exactly if the old one has no field that is not
listed. -/
theorem keeps_saved (payload : Payload) (sequence port now : Nat) :
    r.Keeps false (savedCampaign (some r) payload sequence port now) ↔ r.Listed := by
  unfold Record.Keeps Record.Listed savedCampaign
  rw [Record.ext_iff, Record.ext_iff]
  simp only [Option.map_some, Option.getD_some, Option.bind_some, Bool.false_eq_true, if_false,
    eq_comm, true_and]

theorem keeps_held (payload : Payload) (sequence port now : Nat) :
    r.Keeps true (savedCampaign (some r) payload sequence port now).holdSelection ↔ r.Listed := by
  unfold Record.Keeps Record.Listed savedCampaign Record.holdSelection
  rw [Record.ext_iff, Record.ext_iff]
  simp only [Option.map_some, Option.getD_some, Option.bind_some, if_true, eq_comm, true_and]

variable {s : Server} {ref : Ref} {created : Bool}

/-- The map names an object that keeps what is not the piece's own. -/
def KeptIn (s : Server) (selects : Bool) (r : Record) : Prop :=
  ∃ ref' record', s.stored = some (ref', record') ∧ r.Keeps selects record'

theorem keptIn_same (h : s.stored = some (ref, r)) (selects : Bool) : KeptIn s selects r :=
  ⟨ref, r, h, keeps_refl selects r⟩

theorem keptIn_modify (h : s.stored = some (ref, r)) {f : Record → Record} {selects : Bool}
    (held : Ref) (hf : r.Keeps selects (f r)) : KeptIn (s.modify held f) selects r := by
  refine ⟨ref, _, modify_stored h, ?_⟩
  split
  · exact hf
  · exact keeps_refl selects r

theorem keptIn_store {record : Record} {selects : Bool} :
    KeptIn (s.store record) selects r ↔ r.Keeps selects record := by
  constructor
  · rintro ⟨ref', record', hstored, hkeeps⟩
    rw [store_stored] at hstored
    obtain ⟨-, rfl⟩ := Prod.mk.inj (Option.some.inj hstored)
    exact hkeeps
  · exact fun h => ⟨_, record, store_stored, h⟩

theorem objects_ne_nil (h : s.stored = some (ref, r)) : s.objects ≠ [] := fun hnil => by
  have hobject := (stored_eq_some.mp h).2
  rw [hnil] at hobject
  cases hobject

theorem commitSave_keeps (h : s.stored = some (ref, r)) (ticket : Nat) (payload : Payload)
    (selects : Bool) (port now : Nat) :
    KeptIn (s.commitSave ticket created payload selects port now).state selects r ↔
      (created = false → r.Listed) := by
  unfold Server.commitSave
  cases created with
  | true =>
    rw [if_pos rfl, if_neg (objects_ne_nil h)]
    exact iff_of_true (keptIn_same h selects) nofun
  | false =>
    rw [if_neg Bool.false_ne_true, h]
    dsimp only
    unfold Server.put
    cases selects with
    | false =>
      rw [if_neg Bool.false_ne_true, keptIn_store, keeps_saved]
      exact ⟨fun hl _ => hl, fun hl => hl rfl⟩
    | true =>
      rw [if_pos rfl, keptIn_store, keeps_held]
      exact ⟨fun hl _ => hl, fun hl => hl rfl⟩

/-- **A piece of a save** keeps the record, unless it builds a new object for one that has a field
which is not listed. -/
theorem save_keeps (h : s.stored = some (ref, r)) (ticket : Nat) (payload : Payload)
    (stage : SaveStage) (a : Answer) :
    KeptIn (s.save ticket created payload stage a).state stage.selects r ↔
      (created = false → stage.commits = true → a.error = none → r.Listed) := by
  have hsame := keptIn_same h
  have hcommit := @commitSave_keeps r s ref created h ticket payload
  unfold Server.save
  cases herror : a.error with
  | some message =>
    refine iff_of_true ?_ nofun
    cases stage with
    | waiting =>
      dsimp only
      split
      · exact hsame _
      · exact hsame _
    | assigning held settledStatus => exact keptIn_modify h held keeps_unselected
    | settled held => exact keptIn_modify h held keeps_unselected
    | _ => exact hsame _
  | none =>
    cases stage with
    | waiting =>
      refine iff_of_true ?_ nofun
      dsimp only
      split
      · exact hsame _
      · exact hsame _
    | selecting =>
      refine iff_of_true ?_ nofun
      dsimp only
      split
      · exact hsame _
      · exact hsame _
    | selected selection =>
      refine (hcommit selection.changed a.port a.now).trans ?_
      exact ⟨fun hl hcreated _ _ => hl hcreated, fun hl hcreated => hl hcreated rfl rfl⟩
    | policy =>
      refine (hcommit false a.port a.now).trans ?_
      exact ⟨fun hl hcreated _ _ => hl hcreated, fun hl hcreated => hl hcreated rfl rfl⟩
    | assigning held settledStatus =>
      exact iff_of_true (keptIn_modify h held (keeps_selected settledStatus)) nofun
    | _ => exact iff_of_true (hsame _) nofun

end Frame

/-- An event keeps the record, apart from what is a save's own, exactly if no save of it goes
through while it has a field that is not listed. -/
theorem framed_iff (settings : Settings) (s : InFlight Server Call)
    (e : AwaitEvent Input Answer) : Framed settings s e ↔ SavesListed s e := by
  have hnext : ∀ {n a ticket created payload stage}, e = .answer n a →
      s.calls[n]? = some (.saving ticket created payload stage) →
      ((server settings).events.next s e).shared =
        (s.shared.save ticket created payload stage a).state := by
    intro n a ticket created payload stage he hcall
    rw [he, AwaitSystem.next_answer hcall]
    rfl
  constructor
  · intro h n a ticket payload stage ref record he hcall hcommits herror hstored
    have hkept := h n a ticket false payload stage ref record he hcall hstored
    rw [hnext he hcall] at hkept
    exact (save_keeps hstored ticket payload stage a).mp hkept rfl hcommits herror
  · intro h n a ticket created payload stage ref record he hcall hstored
    rw [hnext he hcall]
    refine (save_keeps hstored ticket payload stage a).mpr fun hcreated hcommits herror => ?_
    subst hcreated
    exact h n a ticket payload stage ref record he hcall hcommits herror hstored

/-! ## The history -/

theorem sliceLast_concat {α : Type} (n : Nat) (values : List α) (value : α) :
    sliceLast n (sliceLast n values ++ [value]) = sliceLast n (values ++ [value]) := by
  unfold sliceLast
  rw [← List.drop_append_of_le_length (Nat.sub_le values.length n), List.drop_drop]
  congr 1
  simp only [List.length_drop, List.length_append, List.length_singleton]
  omega

/-- The captures that a piece shows. -/
def Reply.captures : Reply → List Capture
  | .accepted capture => [capture]
  | _ => []

section History

variable {s s' : Server} {f : Record → Record} {ref : Ref}

/-- The object in the map has the history of the one that was there, and the captures shown. -/
structure Follows (s s' : Server) (captures : List Capture) : Prop where
  empty : s'.objects = [] → s.objects = [] ∧ captures = []
  stored : ∀ ref record', s'.stored = some (ref, record') →
    ∃ record, s.stored = some (ref, record) ∧ record'.captureHistory = captures.foldl
      (fun history capture => sliceLast 100 (history ++ [capture])) record.captureHistory

theorem follows_refl (s : Server) : Follows s s [] :=
  ⟨fun h => ⟨h, rfl⟩, fun _ record h => ⟨record, h, rfl⟩⟩

theorem Follows.trans {s'' : Server} {captures later : List Capture} (h : Follows s s' captures)
    (h' : Follows s' s'' later) : Follows s s'' (captures ++ later) := by
  constructor
  · intro hempty
    obtain ⟨hempty', rfl⟩ := h'.empty hempty
    obtain ⟨hobjects, rfl⟩ := h.empty hempty'
    exact ⟨hobjects, rfl⟩
  · intro ref record'' hstored
    obtain ⟨record', hstored', hhistory'⟩ := h'.stored ref record'' hstored
    obtain ⟨record, hrecord, hhistory⟩ := h.stored ref record' hstored'
    exact ⟨record, hrecord, by rw [hhistory', hhistory, List.foldl_append]⟩

theorem objects_of_modify {held : Ref} (h : (s.modify held f).objects = []) : s.objects = [] := by
  have hlength : s.objects.length = 0 := by
    rw [← List.length_modify, show s.objects.modify held f = [] from h, List.length_nil]
  exact List.eq_nil_of_length_eq_zero hlength

/-- A write that leaves the history alone. -/
theorem follows_modify (hf : ∀ r, (f r).captureHistory = r.captureHistory) (s : Server)
    (held : Ref) : Follows s (s.modify held f) [] := by
  constructor
  · exact fun hempty => ⟨objects_of_modify hempty, rfl⟩
  · intro ref record' hstored
    obtain ⟨record, hrecord, rfl⟩ := stored_modify hstored
    refine ⟨record, hrecord, ?_⟩
    rw [List.foldl_nil]
    split
    · exact hf record
    · rfl

theorem follows_modifyStored (hf : ∀ r, (f r).captureHistory = r.captureHistory) (s : Server) :
    Follows s (s.modifyStored f) [] := by
  unfold Server.modifyStored
  split
  · exact follows_refl s
  · exact follows_modify hf s _

theorem follows_recordCaptureRejection (source : Source) (code message : String)
    (details : List String) (now : Nat) :
    Follows s (s.recordCaptureRejection source code message details now) [] := by
  unfold Server.recordCaptureRejection
  split
  · exact follows_refl s
  · rename_i held record _
    split
    · exact follows_modify (f := .reject source code message details now) (fun _ => rfl) s held
    · exact follows_refl s

/-- `persistL4Capture` adds the capture that it accepts. -/
theorem follows_persistL4Capture (source : Source) (result : Result) (now : Nat) :
    Follows s (s.persistL4Capture source result now).1
      (s.persistL4Capture source result now).2.toList := by
  unfold Server.persistL4Capture
  split
  · exact follows_recordCaptureRejection source _ _ _ now
  · split
    · exact follows_refl s
    · rename_i held record hstored
      constructor
      · exact fun hempty => absurd (objects_of_modify hempty) (objects_ne_nil hstored)
      · intro ref record' hmodified
        obtain ⟨old, hold, rfl⟩ := stored_modify hmodified
        obtain ⟨rfl, rfl⟩ := Prod.mk.inj (Option.some.inj (hstored.symm.trans hold))
        exact ⟨_, hstored, by rw [if_pos rfl]; rfl⟩

theorem follows_captured (source : Source) (result : Result) (now : Nat) :
    Follows s (s.captured source result now).state
      (s.captured source result now).reply.captures := by
  have hpersist := @follows_persistL4Capture s source result now
  have hsettle : ∀ (held : Ref) (capture : Capture),
      Follows (s.persistL4Capture source result now).1
        ((s.persistL4Capture source result now).1.modify held (.settle capture none none now)) [] :=
    fun held capture => follows_modify (f := .settle capture none none now) (fun _ => rfl) _ held
  unfold Server.captured
  dsimp only
  split
  · rename_i held record capture _ hcapture
    rw [hcapture] at hpersist
    split
    · split
      · exact hpersist.trans (hsettle held capture)
      · exact hpersist
    · exact hpersist.trans (hsettle held capture)
  · rename_i hnone
    have hnil : (s.persistL4Capture source result now).2.toList = [] := by
      cases hcapture : (s.persistL4Capture source result now).2 with
      | none => rfl
      | some capture =>
        cases hstored : s.stored with
        | none =>
          unfold Server.persistL4Capture at hcapture
          rw [hstored] at hcapture
          split at hcapture
          · cases hcapture
          · cases hcapture
        | some pair => exact absurd hcapture (hnone pair.1 pair.2 capture hstored)
    rw [hnil] at hpersist
    exact hpersist

theorem follows_published (held : Ref) (channel : Channel) (capture : Capture) (a : Answer) :
    Follows s (s.published held channel capture a).state
      (s.published held channel capture a).reply.captures := by
  unfold Server.published
  split
  · exact follows_modify (f := .settle capture _ none a.now) (fun _ => rfl) s held
  · exact follows_modify (f := .settle capture none _ a.now) (fun _ => rfl) s held

theorem finalize_history (continuous : Bool) (code : Int) (error : Option String) (now : Nat)
    (r : Record) : (r.finalize continuous code error now).captureHistory = r.captureHistory := by
  unfold Record.finalize
  dsimp only
  split
  · rfl
  · split
    · rfl
    · rfl

theorem follows_afterCaptures (source : Source) (continuous : Bool) (code : Int)
    (error : Option String) (a : Answer) :
    Follows s (s.afterCaptures source continuous code error a).state
      (s.afterCaptures source continuous code error a).reply.captures := by
  have hfinalize : ∀ s : Server,
      Follows s (s.modifyStored (.finalize continuous code error a.now)) [] :=
    follows_modifyStored (finalize_history continuous code error a.now)
  unfold Server.afterCaptures
  split
  · exact hfinalize s
  · rename_i result _
    have hpersist := @follows_persistL4Capture s source result a.now
    dsimp only
    cases hcapture : (s.persistL4Capture source result a.now).2 with
    | none =>
      rw [hcapture] at hpersist
      rw [if_neg (by rintro ⟨h, -⟩; cases h)]
      exact hpersist.trans (hfinalize _)
    | some capture =>
      rw [hcapture] at hpersist
      split
      · exact hpersist
      · exact hpersist.trans (hfinalize _)

/-- A piece of a save that builds no object. -/
theorem follows_save (ticket : Nat) (created : Bool) (payload : Payload) (stage : SaveStage)
    (a : Answer) (h : stage.commits = true → a.error ≠ none) :
    Follows s (s.save ticket created payload stage a).state
      (s.save ticket created payload stage a).reply.captures := by
  have hselected : ∀ held settledStatus, Follows s (s.modify held (.selected settledStatus)) [] :=
    fun held settledStatus => follows_modify (f := .selected settledStatus) (fun _ => rfl) s held
  have hunselected : ∀ held, Follows s (s.modify held .unselected) [] :=
    fun held => follows_modify (f := .unselected) (fun _ => rfl) s held
  have hended : Follows s s.endSave [] :=
    ⟨fun h => ⟨h, rfl⟩, fun _ record h => ⟨record, h, rfl⟩⟩
  unfold Server.save
  cases herror : a.error with
  | some message =>
    cases stage with
    | waiting =>
      dsimp only
      split
      · exact follows_refl s
      · exact follows_refl s
    | assigning held settledStatus => exact hunselected held
    | settled held => exact hunselected held
    | _ => exact hended
  | none =>
    cases stage with
    | waiting =>
      dsimp only
      split
      · exact follows_refl s
      · exact follows_refl s
    | selecting =>
      dsimp only
      split
      · exact follows_refl s
      · exact follows_refl s
    | selected selection => exact absurd herror (h rfl)
    | policy => exact absurd herror (h rfl)
    | assigning held settledStatus => exact hselected held settledStatus
    | refused message => exact hended
    | durable held => exact hended
    | _ => exact follows_refl s

theorem firstJourney_history (readiness : Readiness) (retryMs now : Nat) (r : Record) :
    (r.firstJourney readiness retryMs now).captureHistory = r.captureHistory := by
  unfold Record.firstJourney
  dsimp only
  split
  · rfl
  · rfl

theorem reassign_history (readiness : Readiness) (r : Record) :
    (r.reassign readiness).captureHistory = r.captureHistory := by
  unfold Record.reassign
  split
  · rfl
  · rfl

theorem setFleet_history (shardId : Option String) (now : Nat) (r : Record) :
    (r.setFleet shardId now).captureHistory = r.captureHistory := by
  cases shardId with
  | none => rfl
  | some shardId => rfl

theorem reconcile_history (window : Option String) (running : Bool) (r : Record) :
    (r.reconcile window running).captureHistory = r.captureHistory := by
  cases window with
  | none => rfl
  | some windowKey =>
    unfold Record.reconcile
    dsimp only
    split
    · rfl
    · rfl

theorem queue_history (draftOnly : Bool) (r : Record) :
    (r.queue draftOnly).captureHistory = r.captureHistory := by
  unfold Record.queue
  split
  · rfl
  · rfl

theorem follows_onStored {g : Ref → Record → Piece Server Call Reply}
    (h : ∀ ref record, Follows s (g ref record).state (g ref record).reply.captures) :
    Follows s (s.onStored g).state (s.onStored g).reply.captures := by
  unfold Server.onStored
  split
  · exact follows_refl s
  · exact h _ _

theorem follows_whenSelected (record : Record) {piece : Piece Server Call Reply}
    (h : Follows s piece.state piece.reply.captures) :
    Follows s (s.whenSelected record piece).state (s.whenSelected record piece).reply.captures := by
  unfold Server.whenSelected
  split
  · exact follows_refl s
  · exact h

/-- **An input** keeps the history, up to the captures it shows. -/
theorem follows_accept (input : Input) :
    Follows s (s.accept input).state (s.accept input).reply.captures := by
  cases input with
  | createCampaign payload => exact ⟨fun h => ⟨h, rfl⟩, fun _ record h => ⟨record, h, rfl⟩⟩
  | updateCampaign payload => exact ⟨fun h => ⟨h, rfl⟩, fun _ record h => ⟨record, h, rfl⟩⟩
  | setCampaignFleet enabled shardId => exact follows_onStored fun _ _ => follows_refl s
  | startCampaign =>
    refine follows_onStored fun held record => follows_whenSelected record ?_
    dsimp only
    split
    · exact follows_modify (f := .start) (fun _ => rfl) s held
    · exact follows_refl s
  | stopCampaign =>
    exact follows_onStored fun held _ => follows_modify (f := .stop) (fun _ => rfl) s held
  | restartCampaign running =>
    refine follows_onStored fun held record => follows_whenSelected record ?_
    exact follows_modify (f := .restart running) (fun _ => rfl) s held
  | deleteCampaign => exact follows_onStored fun _ _ => follows_refl s
  | captured source result now => exact follows_captured source result now
  | captureRejected source code message details now =>
    exact follows_recordCaptureRejection source code message details now
  | finalize source continuous code error => exact follows_refl s
  | pump now =>
    unfold Server.accept
    dsimp only
    split
    · exact follows_refl s
    · split
      · exact follows_refl s
      · exact follows_refl s
  | watchdog reason now =>
    exact follows_modifyStored (f := .recover reason now) (fun _ => rfl) s
  | reconcile window running =>
    unfold Server.accept
    dsimp only
    split
    · exact follows_refl s
    · rename_i held record _
      split
      · exact follows_refl s
      · exact follows_modify (reconcile_history window running) s held

theorem follows_fleetReady (settings : Settings) (held : Ref) (readiness : Readiness) (a : Answer) :
    Follows s (s.fleetReady settings held readiness a).state [] :=
  follows_modify (firstJourney_history readiness settings.fleetActivationRetryMs a.now) s held

theorem follows_endSaveHandler (created draftOnly : Bool) (held : Ref) :
    Follows s (s.endSaveHandler created draftOnly held).state [] := by
  unfold Server.endSaveHandler
  dsimp only
  split
  · exact follows_modify (queue_history draftOnly) s held
  · exact follows_refl s

/-- **A handler that goes on**, and builds no object, keeps the history, up to the captures it
shows. -/
theorem follows_resume (settings : Settings) (call : Call) (a : Answer)
    (h : ∀ ticket created payload stage, call = .saving ticket created payload stage →
      stage.commits = true → a.error ≠ none) :
    Follows s (s.resume settings call a).state (s.resume settings call a).reply.captures := by
  have henroll : ∀ (s : Server) (held : Ref), Follows s (s.modify held fun r =>
      r.enroll r.config.scriptFleetShardId a.readiness a.now) [] :=
    fun s held => follows_modify (f := fun r =>
      r.enroll r.config.scriptFleetShardId a.readiness a.now) (fun _ => rfl) s held
  have hretry : ∀ (held : Ref) (message : String),
      Follows s (s.modify held (.retry message a.now)) [] :=
    fun held message => follows_modify (f := .retry message a.now) (fun _ => rfl) s held
  unfold Server.resume
  cases call with
  | saving ticket created payload stage =>
    exact follows_save ticket created payload stage a (h ticket created payload stage rfl)
  | publishing held channel capture => exact follows_published held channel capture a
  | captures source continuous code error =>
    exact follows_afterCaptures source continuous code error a
  | lastCapture continuous code error =>
    exact follows_modifyStored (finalize_history continuous code error a.now) s
  | saved created draftOnly held =>
    dsimp only
    split
    · exact follows_refl s
    · exact follows_endSaveHandler created draftOnly held
  | registering created draftOnly held =>
    cases a.error with
    | none => exact (henroll s held).trans (follows_endSaveHandler created draftOnly held)
    | some message => exact follows_refl s
  | readiness held =>
    cases a.error with
    | some message => exact hretry held message
    | none =>
      dsimp only
      split
      · exact (follows_modify (reassign_history a.readiness) s held).trans
          (follows_fleetReady settings held a.readiness a)
      · exact follows_refl s
  | enrollment held =>
    cases a.error with
    | some message => exact hretry held message
    | none => exact (henroll s held).trans (follows_fleetReady settings held a.readiness a)
  | launching held =>
    cases a.error with
    | some message => exact hretry held message
    | none => exact follows_modify (f := .launched a.runId) (fun _ => rfl) s held
  | enrolling held shardId =>
    cases a.error with
    | some message => exact follows_refl s
    | none =>
      exact (follows_modify (f := .enroll (some shardId) a.readiness a.now) (fun _ => rfl) s
        held).trans (follows_modify (setFleet_history _ a.now) _ held)
  | withdrawing held =>
    cases a.error with
    | some message => exact follows_refl s
    | none => exact follows_modify (setFleet_history none a.now) s held
  | deleting =>
    cases a.error with
    | some message => exact follows_refl s
    | none => exact ⟨fun h => ⟨h, rfl⟩, fun _ _ h => by cases h⟩

/-! ## Runs -/

/-- The map names an object whose history is the last hundred of the captures. -/
structure Recorded (captures : List Capture) (s : Server) : Prop where
  empty : s.objects = [] → captures = []
  stored : ∀ ref record, s.stored = some (ref, record) →
    record.captureHistory = sliceLast 100 captures

theorem sliceLast_foldl (captures later : List Capture) :
    later.foldl (fun history capture => sliceLast 100 (history ++ [capture]))
      (sliceLast 100 captures) = sliceLast 100 (captures ++ later) := by
  induction later generalizing captures with
  | nil => rw [List.foldl_nil, List.append_nil]
  | cons capture later ih => rw [List.foldl_cons, sliceLast_concat, ih, List.append_assoc,
      List.singleton_append]

theorem recorded_follows {captures later : List Capture} (h : Recorded captures s)
    (hfollows : Follows s s' later) : Recorded (captures ++ later) s' := by
  constructor
  · intro hempty
    obtain ⟨hobjects, rfl⟩ := hfollows.empty hempty
    rw [h.empty hobjects, List.append_nil]
  · intro ref record' hstored
    obtain ⟨record, hrecord, hhistory⟩ := hfollows.stored ref record' hstored
    rw [hhistory, h.stored ref record hrecord, sliceLast_foldl]

theorem recorded_put {captures : List Capture} {record : Record} {selects : Bool}
    (h : record.captureHistory = sliceLast 100 captures) :
    Recorded captures (s.put record selects).1 := by
  have hstore : ∀ record' : Record, record'.captureHistory = sliceLast 100 captures →
      Recorded captures (s.store record') := by
    intro record' hrecord'
    refine ⟨fun hempty => absurd hempty (List.concat_ne_nil _ _), fun ref stored hstored => ?_⟩
    rw [store_stored] at hstored
    obtain ⟨-, rfl⟩ := Prod.mk.inj (Option.some.inj hstored)
    exact hrecord'
  unfold Server.put
  split
  · exact hstore _ h
  · exact hstore _ h

/-- **A new object** has the history of the old one if that has no field which is not listed. -/
theorem recorded_commitSave {captures : List Capture} {created : Bool} (h : Recorded captures s)
    (hlisted : created = false → ∀ ref record, s.stored = some (ref, record) → record.Listed)
    (ticket : Nat) (payload : Payload) (selects : Bool) (port now : Nat) :
    Recorded captures (s.commitSave ticket created payload selects port now).state := by
  have hended : Recorded captures s.endSave := ⟨h.empty, h.stored⟩
  unfold Server.commitSave
  cases created with
  | true =>
    rw [if_pos rfl]
    split
    · rename_i hobjects
      refine recorded_put ?_
      rw [h.empty hobjects]
      rfl
    · exact hended
  | false =>
    rw [if_neg Bool.false_ne_true]
    split
    · exact hended
    · rename_i held record hstored
      refine recorded_put ?_
      have hnil : record.captureHistory = [] := congrArg Record.captureHistory
        (hlisted rfl held record hstored)
      rw [← h.stored held record hstored, hnil]
      rfl

theorem commitSave_reply (ticket : Nat) (created : Bool) (payload : Payload) (selects : Bool)
    (port now : Nat) :
    (s.commitSave ticket created payload selects port now).reply.captures = [] := by
  unfold Server.commitSave
  dsimp only
  split
  · split
    · rfl
    · rfl
  · split
    · rfl
    · rfl

end History

/-- **An event** adds what it accepts to the history in the map, if it is no save of a record with a
field that is not listed. -/
theorem recorded_step (settings : Settings) {captures : List Capture} {s : InFlight Server Call}
    {e : AwaitEvent Input Answer} (h : Recorded captures s.shared) (hlisted : SavesListed s e) :
    Recorded (captures ++ accepted settings s e)
      ((server settings).events.next s e).shared := by
  have haccepted : accepted settings s e =
      ((server settings).events.reply s e).captures := by
    unfold accepted Reply.captures
    rfl
  rw [haccepted]
  cases e with
  | input input => exact recorded_follows h (follows_accept input)
  | answer n a =>
    show Recorded (captures ++ ((server settings).step s (.answer n a)).2.captures)
      ((server settings).step s (.answer n a)).1.shared
    unfold AwaitSystem.step
    dsimp only
    cases hcall : s.calls[n]? with
    | none => exact recorded_follows h (follows_refl s.shared)
    | some call =>
      by_cases hcommits : ∃ ticket created payload stage,
          call = .saving ticket created payload stage ∧ stage.commits = true ∧ a.error = none
      · obtain ⟨ticket, created, payload, stage, rfl, hcommits, herror⟩ := hcommits
        have hrecords : ∀ selects, Recorded
            (captures ++ (s.shared.commitSave ticket created payload selects a.port
              a.now).reply.captures)
            (s.shared.commitSave ticket created payload selects a.port a.now).state := by
          intro selects
          rw [commitSave_reply, List.append_nil]
          refine recorded_commitSave h (fun hcreated ref record hstored => ?_) ticket payload
            selects a.port a.now
          subst hcreated
          exact hlisted n a ticket payload stage ref record rfl hcall hcommits herror hstored
        show Recorded (captures ++ (s.shared.save ticket created payload stage a).reply.captures)
          (s.shared.save ticket created payload stage a).state
        unfold Server.save
        rw [herror]
        cases stage with
        | selected selection => exact hrecords selection.changed
        | policy => exact hrecords false
        | _ => cases hcommits
      · refine recorded_follows h (follows_resume settings call a fun ticket created payload stage
          heq hstage herror => ?_)
        exact hcommits ⟨ticket, created, payload, stage, heq, hstage, herror⟩

/-- **The record is kept**: after every part of a run the history in the map is the last hundred
accepted captures, and every save keeps what is not its own, if and only if no save goes through
while the record has a field that `saveCampaignInternal` does not list. -/
theorem record_kept_iff (settings : Settings) (es : List (AwaitEvent Input Answer)) :
    ((∀ pre post, es = pre ++ post → HistoryKept settings pre) ∧
        (server settings).events.Along (Framed settings) ⟨{}, []⟩ es) ↔
      (server settings).events.Along SavesListed ⟨{}, []⟩ es := by
  have hframed : (server settings).events.Along (Framed settings) ⟨{}, []⟩ es ↔
      (server settings).events.Along SavesListed ⟨{}, []⟩ es :=
    ⟨EventSystem.Along.mono fun s e => (framed_iff settings s e).mp,
      EventSystem.Along.mono fun s e => (framed_iff settings s e).mpr⟩
  rw [hframed]
  refine ⟨And.right, fun hlisted => ⟨fun pre post hes => ?_, hlisted⟩⟩
  rw [hes] at hlisted
  have hrecorded : Recorded ((server settings).events.collect (accepted settings) ⟨{}, []⟩ pre)
      (after settings pre).shared := by
    refine EventSystem.history_inv (P := fun es s => Recorded
      ((server settings).events.collect (accepted settings) ⟨{}, []⟩ es) s.shared) ?_ ?_
      hlisted.before
    · exact ⟨fun _ => rfl, fun _ _ h => by cases h⟩
    · intro es e halong hrecorded
      rw [EventSystem.collect_concat]
      exact recorded_step settings hrecorded (EventSystem.along_concat.mp halong).2
  exact hrecorded.stored

/-! ## A history that is lost -/

namespace Sample

def settings : Settings := ⟨60000⟩

def source : Source := ⟨"run", "scenario", ⟨false, false⟩, true⟩

/-- A save, from its request to the handler that asked for it; no other handler is suspended. -/
def save (input : Input) (now : Nat) : List (AwaitEvent Input Answer) :=
  [.input input, .answer 0 { now := now }, .answer 0 { now := now }, .answer 0 { now := now },
    .answer 0 { now := now }, .answer 0 { now := now }]

def capture (suffix : String) (now : Nat) : AwaitEvent Input Answer :=
  .input (.captured source
    ⟨⟨.accepted "document-response" ("https://shop.example/?" ++ suffix) suffix, "session", 0⟩,
      none, []⟩ now)

/-- A campaign is created, has two captures, is renamed, and has a third one. -/
def renamed : List (AwaitEvent Input Answer) :=
  save (.createCampaign { scenarioId := "first" }) 1 ++ [capture "a=1" 2, capture "a=2" 3] ++
    save (.updateCampaign { scenarioId := "second" }) 4 ++ [capture "a=3" 5]

end Sample

/-- **The history is lost** with a save that changes the name: of three accepted captures, only the
one after it is left. -/
theorem history_lost :
    ¬HistoryKept Sample.settings Sample.renamed ∧
      ((server Sample.settings).events.collect (accepted Sample.settings) ⟨{}, []⟩
        Sample.renamed).map (·.suffix) = ["a=1", "a=2", "a=3"] ∧
      (after Sample.settings Sample.renamed).shared.stored.map
          (fun stored => (stored.2.name, stored.2.captureHistory.map (·.suffix))) =
        some ("second", ["a=3"]) := by
  have haccepted : ((server Sample.settings).events.collect (accepted Sample.settings) ⟨{}, []⟩
      Sample.renamed).map (·.suffix) = ["a=1", "a=2", "a=3"] := by
    decide +kernel
  have hstored : (after Sample.settings Sample.renamed).shared.stored.map
      (fun stored => (stored.2.name, stored.2.captureHistory.map (·.suffix))) =
        some ("second", ["a=3"]) := by
    decide +kernel
  refine ⟨fun h => ?_, haccepted, hstored⟩
  obtain ⟨⟨ref, record⟩, hrecord, hhistory⟩ := Option.map_eq_some_iff.mp hstored
  have hkept := congrArg (List.map fun capture : Capture => capture.suffix) (h ref record hrecord)
  rw [(Prod.mk.inj hhistory).2] at hkept
  have hlast : (sliceLast 100 ((server Sample.settings).events.collect (accepted Sample.settings)
      ⟨{}, []⟩ Sample.renamed)).map (·.suffix) = ["a=1", "a=2", "a=3"] := by
    decide +kernel
  rw [hlast] at hkept
  exact absurd hkept (by decide)

end LinkSuffix.CampaignRecord
