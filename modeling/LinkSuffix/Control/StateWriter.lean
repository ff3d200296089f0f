import LinkSuffix.Lib.Promise
import LinkSuffix.Lib.Run
import LinkSuffix.Js.Value
import Mathlib.Tactic.Ring

/-!
# The serialized state writer

`createSerializedStateWriter` of `serialized-state-writer.mjs`: the queued writer through which the
control server saves its state documents. Every call copies its value at once, waits for the promise
of the call before, whatever became of it, and hands its own promise back.

* `queueStateSave`, `step`: the code, and the interleavings of its callers, its handlers and
  `saveState`.
* `Queue`: the invariant; every started save comes after settled ones only.
* **`saves_serialized`**: one save for each valid call, in order, one at a time, each failure on its
  own promise, and the newest value of a name last.
-/

namespace LinkSuffix.StateWriter

open Lib

/-! ## The code -/

/-- What a variable of a caller holds: data, or something with a function in it. -/
inductive Held where
  | data (value : JsValue)
  | function

/-- `cloneState`: `structuredClone` throws on a function. -/
def cloneState : Held → Option JsValue
  | .data value => some value
  | .function => none

/-- One call of `saveState`: not yet made, not yet settled, settled. -/
inductive Phase where
  | waiting
  | saving
  | settled (saved : Bool)
  deriving DecidableEq

/-- What became of it. -/
def Phase.outcome : Phase → Option Bool
  | .settled saved => some saved
  | _ => none

/-- A queued save: the promise whose fulfilment makes the call, and what the call is made with. -/
structure Save where
  source : Promise
  stateName : String
  snapshot : JsValue
  phase : Phase := .waiting

/-- The arguments of its call. -/
def Save.payload (save : Save) : String × JsValue := (save.stateName, save.snapshot)

/-- The writer, with the variables of its callers, the calls of `saveState` made so far and what
these have stored. -/
structure State where
  memory : Nat → Held
  tail : Promise := .resolved
  saves : List Save := []
  started : List (String × JsValue) := []
  stored : List (String × JsValue) := []

/-- What became of the `n`-th save. -/
def State.outcome (s : State) (n : Nat) : Option Bool := s.saves[n]?.bind (·.phase.outcome)

/-- A promise as it stands. -/
def State.value (s : State) (p : Promise) : Option Bool := p.value s.outcome

/-- What a caller gets back. -/
inductive Reply where
  | none
  | rejected (message : String)
  | thrown
  | promise (task : Promise)

/-- `String(name ?? "").trim()`. -/
def stateName (name : JsValue) : String := trim (name.orElse (.string "")).toText

/-- `queueStateSave(name, value)`; a call with fewer than two arguments has no value. -/
def queueStateSave (s : State) (name : JsValue) (value : Option Nat) : State × Reply :=
  if stateName name = "" then (s, .rejected "A state name is required")
  else match value with
    | none => (s, .rejected ("State payload is required for " ++ stateName name))
    | some ref => match cloneState (s.memory ref) with
      | none => (s, .thrown)
      | some snapshot =>
        let source := s.tail.caught
        let task := source.after s.saves.length
        ({ s with
            tail := task.caught
            saves := s.saves ++ [{ source, stateName := stateName name, snapshot }] },
          .promise task)

/-- A caller changes a variable or calls the writer; the handler of the `n`-th save runs; its call
of `saveState` settles. -/
inductive Event where
  | assign (ref : Nat) (held : Held)
  | queue (name : JsValue) (value : Option Nat)
  | run (n : Nat)
  | settle (n : Nat) (saved : Bool)

/-- `.then(() => saveState(stateName, snapshot))`: once, when the promise before is fulfilled. -/
def runHandler (s : State) (n : Nat) : State :=
  match s.saves[n]? with
  | none => s
  | some save =>
    if save.phase = .waiting ∧ s.value save.source = some true then
      { s with
        saves := s.saves.set n { save with phase := .saving }
        started := s.started ++ [save.payload] }
    else s

/-- `saveState` is done with the `n`-th save. -/
def settleSave (s : State) (n : Nat) (saved : Bool) : State :=
  match s.saves[n]? with
  | none => s
  | some save =>
    if save.phase = .saving then
      { s with
        saves := s.saves.set n { save with phase := .settled saved }
        stored := if saved then s.stored ++ [save.payload] else s.stored }
    else s

/-- One event. -/
def step (s : State) : Event → State × Reply
  | .assign ref held => ({ s with memory := Function.update s.memory ref held }, .none)
  | .queue name value => queueStateSave s name value
  | .run n => (runHandler s n, .none)
  | .settle n saved => (settleSave s n saved, .none)

/-- The writer among its callers. -/
def writer : EventSystem State Event Reply where
  step := step

/-- `createSerializedStateWriter`. -/
def start (memory : Nat → Held) : State where
  memory := memory

/-- `persistCampaigns`: the payload is queued when a database is configured. -/
def persistCampaigns (enabled : Bool) (payload : Nat) : List Event :=
  if enabled then [.queue (.string "campaigns") (some payload)] else []

/-- The save a call asks for, when it is valid: its name, and a copy of the value it has now. -/
def validCall (s : State) : Event → List (String × JsValue)
  | .queue name (some ref) =>
    if stateName name = "" then []
    else ((cloneState (s.memory ref)).map fun copy => (stateName name, copy)).toList
  | _ => []

/-- The valid calls of a run, in order. -/
def validCalls (memory : Nat → Held) (es : List Event) : List (String × JsValue) :=
  writer.collect validCall (start memory) es

/-! ## What an event does -/

variable {s : State} {memory : Nat → Held} {es : List Event}

/-- An invalid call changes nothing; a valid one is queued with its copy. -/
inductive Queued (s : State) (name : JsValue) (value : Option Nat) : Prop
  | invalid (hcall : validCall s (.queue name value) = [])
      (hnext : (queueStateSave s name value).1 = s)
  | valid (snapshot : JsValue)
      (hcall : validCall s (.queue name value) = [(stateName name, snapshot)])
      (hnext : (queueStateSave s name value).1 =
        { s with
          tail := (s.tail.caught.after s.saves.length).caught
          saves := s.saves ++
            [{ source := s.tail.caught, stateName := stateName name, snapshot }] })
      (hreply : (queueStateSave s name value).2 =
        .promise (s.tail.caught.after s.saves.length))

theorem queue_cases (s : State) (name : JsValue) (value : Option Nat) : Queued s name value := by
  by_cases hname : stateName name = ""
  · refine .invalid ?_ ?_
    · cases value <;> simp [validCall, hname]
    · simp [queueStateSave, hname]
  · cases value with
    | none => exact .invalid rfl (by simp [queueStateSave, hname])
    | some ref =>
      cases hcopy : cloneState (s.memory ref) with
      | none =>
        exact .invalid (by simp [validCall, hname, hcopy]) (by simp [queueStateSave, hname, hcopy])
      | some snapshot =>
        exact .valid snapshot (by simp [validCall, hname, hcopy])
          (by simp [queueStateSave, hname, hcopy]) (by simp [queueStateSave, hname, hcopy])

theorem next_queue (s : State) (name : JsValue) (value : Option Nat) :
    writer.next s (.queue name value) = (queueStateSave s name value).1 := rfl

/-- A list around one of its entries, and with another in its place. -/
theorem split_set {α : Type} {xs : List α} {n : Nat} {x : α} (h : xs[n]? = some x) :
    ∃ before after, xs = before ++ x :: after ∧ before.length = n ∧
      ∀ y, xs.set n y = before ++ y :: after := by
  obtain ⟨hn, rfl⟩ := List.getElem?_eq_some_iff.mp h
  refine ⟨xs.take n, xs.drop (n + 1), ?_, ?_, fun y => ?_⟩
  · rw [List.getElem_cons_drop, List.take_append_drop]
  · exact List.length_take_of_le hn.le
  · exact List.set_eq_take_append_cons_drop.trans (if_pos hn)

/-! ## The invariant -/

/-- A save that was started comes after settled ones only. -/
def Follows (earlier later : Save) : Prop :=
  later.phase ≠ .waiting → earlier.phase.outcome.isSome

/-- The queue: every save waits for the chain of those before it, and the two logs are read off the
saves. -/
structure Queue (s : State) : Prop where
  tail : s.tail = Promise.chain s.saves.length
  source : ∀ n save, s.saves[n]? = some save → save.source = (Promise.chain n).caught
  ordered : s.saves.Pairwise Follows
  started : s.started = (s.saves.filter fun save => save.phase ≠ .waiting).map Save.payload
  stored : s.stored = (s.saves.filter fun save => save.phase = .settled true).map Save.payload

theorem Queue.start (memory : Nat → Held) : Queue (start memory) where
  tail := rfl
  source := by simp [StateWriter.start]
  ordered := .nil
  started := rfl
  stored := rfl

/-- The call of a save is made when all before it are settled. -/
theorem Queue.ready_iff (h : Queue s) {n : Nat} {save : Save} (hsave : s.saves[n]? = some save) :
    s.value save.source = some true ↔ ∀ k < n, (s.outcome k).isSome := by
  rw [h.source n save hsave, State.value, Promise.value_caught_chain, Promise.value_chain_iff]

/-- Those before a started save are settled, and those after one that is not settled have not been
started. -/
theorem Queue.around (h : Queue s) {before after : List Save} {save : Save}
    (hsplit : s.saves = before ++ save :: after) :
    (save.phase ≠ .waiting → ∀ d ∈ before, d.phase.outcome.isSome) ∧
      (save.phase.outcome = none → ∀ d ∈ after, d.phase = .waiting) := by
  have hordered := h.ordered
  rw [hsplit, List.pairwise_append] at hordered
  obtain ⟨-, hafter, hcross⟩ := hordered
  refine ⟨fun hstarted d hd => hcross d hd save List.mem_cons_self hstarted, fun hopen d hd => ?_⟩
  by_contra hd'
  have hsettled := (List.pairwise_cons.mp hafter).1 d hd hd'
  rw [hopen] at hsettled
  exact absurd hsettled nofun

theorem Queue.queued (h : Queue s) (stateName : String) (snapshot : JsValue) :
    Queue { s with
      tail := (s.tail.caught.after s.saves.length).caught
      saves := s.saves ++ [{ source := s.tail.caught, stateName, snapshot }] } where
  tail := by rw [h.tail, List.length_append, List.length_singleton, Promise.chain_succ]
  source n save hsave := by
    rcases lt_or_ge n s.saves.length with hn | hn
    · exact h.source n save (by rwa [List.getElem?_append_left hn] at hsave)
    · rw [List.getElem?_append_right hn] at hsave
      cases hlast : n - s.saves.length with
      | zero =>
        rw [hlast] at hsave
        rw [← Option.some.inj hsave, h.tail, show n = s.saves.length by omega]
      | succ k =>
        rw [hlast] at hsave
        exact absurd hsave nofun
  ordered := by
    refine List.pairwise_append.mpr ⟨h.ordered, List.pairwise_singleton _ _, ?_⟩
    intro d _ e he hstarted
    rw [List.mem_singleton.mp he] at hstarted
    exact absurd rfl hstarted
  started := by rw [h.started]; simp
  stored := by rw [h.stored]; simp

/-- A phase changes: nothing else of the queue does. -/
theorem Queue.source_set (h : Queue s) {n : Nat} {save : Save} (hsave : s.saves[n]? = some save)
    (phase : Phase) : ∀ m changed, (s.saves.set n { save with phase })[m]? = some changed →
      changed.source = (Promise.chain m).caught := by
  intro m changed hchanged
  rw [List.getElem?_set] at hchanged
  split at hchanged
  case isTrue hm =>
    obtain rfl := hm
    split at hchanged
    · rw [← Option.some.inj hchanged]
      exact h.source n save hsave
    · exact absurd hchanged nofun
  case isFalse => exact h.source m changed hchanged

theorem filter_eq_nil_of {α : Type} {p : α → Bool} {xs : List α} (h : ∀ x ∈ xs, p x = false) :
    xs.filter p = [] :=
  List.filter_eq_nil_iff.mpr fun x hx => by simp [h x hx]

/-- The handler of a save runs. -/
theorem Queue.runHandler (h : Queue s) (n : Nat) : Queue (runHandler s n) := by
  unfold StateWriter.runHandler
  split
  case h_1 => exact h
  case h_2 save hsave =>
    split
    case isFalse => exact h
    case isTrue hrun =>
      obtain ⟨hwaiting, hready⟩ := hrun
      obtain ⟨before, after, hsplit, hlength, hset⟩ := split_set hsave
      have hbefore : ∀ d ∈ before, d.phase.outcome.isSome := by
        intro d hd
        obtain ⟨k, hk, rfl⟩ := List.mem_iff_getElem.mp hd
        have hsettled := (h.ready_iff hsave).mp hready k (by omega)
        rwa [State.outcome, hsplit, List.getElem?_append_left hk, List.getElem?_eq_getElem hk]
          at hsettled
      have hafter : ∀ d ∈ after, d.phase = .waiting :=
        (h.around hsplit).2 (by rw [hwaiting]; rfl)
      have hordered := h.ordered
      rw [hsplit, List.pairwise_append, List.pairwise_cons] at hordered
      obtain ⟨hpairs, ⟨-, hlater⟩, hcross⟩ := hordered
      refine ⟨?_, h.source_set hsave .saving, ?_, ?_, ?_⟩
      · rw [List.length_set]
        exact h.tail
      · rw [hset, List.pairwise_append, List.pairwise_cons]
        refine ⟨hpairs, ⟨fun d hd hd' => absurd (hafter d hd) hd', hlater⟩, fun d hd e he => ?_⟩
        rcases List.mem_cons.mp he with rfl | he
        · exact fun _ => hbefore d hd
        · exact hcross d hd e (List.mem_cons_of_mem _ he)
      · have hnone : after.filter (fun save => !decide (save.phase = .waiting)) = [] :=
          filter_eq_nil_of fun d hd => by simp [hafter d hd]
        rw [h.started, hset, hsplit]
        simp [hwaiting, hnone, Save.payload]
      · rw [h.stored, hset, hsplit]
        simp [hwaiting]

/-- `saveState` settles. -/
theorem Queue.settleSave (h : Queue s) (n : Nat) (saved : Bool) : Queue (settleSave s n saved) := by
  unfold StateWriter.settleSave
  split
  case h_1 => exact h
  case h_2 save hsave =>
    split
    case isFalse => exact h
    case isTrue hsaving =>
      obtain ⟨before, after, hsplit, hlength, hset⟩ := split_set hsave
      have hafter : ∀ d ∈ after, d.phase = .waiting :=
        (h.around hsplit).2 (by rw [hsaving]; rfl)
      have hordered := h.ordered
      rw [hsplit, List.pairwise_append, List.pairwise_cons] at hordered
      obtain ⟨hpairs, ⟨-, hlater⟩, hcross⟩ := hordered
      refine ⟨?_, h.source_set hsave (.settled saved), ?_, ?_, ?_⟩
      · rw [List.length_set]
        exact h.tail
      · rw [hset, List.pairwise_append, List.pairwise_cons]
        refine ⟨hpairs, ⟨fun _ _ _ => rfl, hlater⟩, fun d hd e he => ?_⟩
        rcases List.mem_cons.mp he with rfl | he
        · exact fun _ => hcross d hd save List.mem_cons_self (by rw [hsaving]; nofun)
        · exact hcross d hd e (List.mem_cons_of_mem _ he)
      · rw [h.started, hset, hsplit]
        simp [hsaving, Save.payload]
      · have hnone : after.filter (fun save => save.phase = .settled true) = [] :=
          filter_eq_nil_of fun d hd => by simp [hafter d hd]
        dsimp only
        rw [h.stored, hset, hsplit]
        cases saved <;> simp [hsaving, hnone, Save.payload]

/-- **Every event keeps the queue.** -/
theorem Queue.next (h : Queue s) (e : Event) : Queue (writer.next s e) := by
  cases e with
  | assign ref held => exact ⟨h.tail, h.source, h.ordered, h.started, h.stored⟩
  | queue name value =>
    rw [next_queue]
    cases queue_cases s name value with
    | invalid _ hnext => rwa [hnext]
    | valid snapshot _ hnext => rw [hnext]; exact h.queued _ _
  | run n => exact h.runHandler n
  | settle n saved => exact h.settleSave n saved

theorem run_queue (memory : Nat → Held) (es : List Event) :
    Queue (writer.run (start memory) es) :=
  EventSystem.run_inv_true (Queue.start memory) fun _ e h => h.next e

/-! ## What was started -/

/-- The started saves are the first ones. -/
theorem started_first {saves : List Save} (h : saves.Pairwise Follows) :
    (saves.filter fun save => save.phase ≠ .waiting) <+: saves := by
  induction saves with
  | nil => exact List.nil_prefix
  | cons save rest ih =>
    obtain ⟨hlater, hrest⟩ := List.pairwise_cons.mp h
    by_cases hwaiting : save.phase = .waiting
    · have hnone : (rest.filter fun save => save.phase ≠ .waiting) = [] := by
        refine filter_eq_nil_of fun d hd => ?_
        by_contra hd'
        have hsettled := hlater d hd (by simpa using hd')
        rw [hwaiting] at hsettled
        exact absurd hsettled nofun
      rw [List.filter_cons, if_neg (by simp [hwaiting]), hnone]
      exact List.nil_prefix
    · rw [List.filter_cons, if_pos (by simp [hwaiting])]
      exact List.cons_prefix_cons.mpr ⟨rfl, ih hrest⟩

/-- No two saves are under way. -/
theorem one_saving {saves : List Save} (h : saves.Pairwise Follows) :
    (saves.filter fun save => save.phase = .saving).length ≤ 1 := by
  have hpairs := h.sublist (List.filter_sublist (p := fun save => save.phase = .saving))
  have hsaving : ∀ save ∈ saves.filter (fun save => save.phase = .saving), save.phase = .saving :=
    fun save hsave => by simpa using (List.mem_filter.mp hsave).2
  rcases hfound : saves.filter (fun save => save.phase = .saving) with _ | ⟨d, _ | ⟨e, rest⟩⟩
  · exact hfound ▸ Nat.zero_le 1
  · exact hfound ▸ le_rfl
  · rw [hfound] at hpairs hsaving
    have hsettled := (List.pairwise_cons.mp hpairs).1 e List.mem_cons_self
      (by rw [hsaving e (by simp)]; nofun)
    rw [hsaving d (by simp)] at hsettled
    exact absurd hsettled nofun

theorem map_payload_set {saves : List Save} {n : Nat} {save : Save} (h : saves[n]? = some save)
    (phase : Phase) :
    (saves.set n { save with phase }).map Save.payload = saves.map Save.payload := by
  obtain ⟨before, after, hsplit, -, hset⟩ := split_set h
  rw [hset, hsplit]
  simp [Save.payload]

theorem runHandler_payloads (s : State) (n : Nat) :
    (runHandler s n).saves.map Save.payload = s.saves.map Save.payload := by
  unfold runHandler
  split
  case h_1 => rfl
  case h_2 save hsave =>
    split
    · exact map_payload_set hsave .saving
    · rfl

theorem settleSave_payloads (s : State) (n : Nat) (saved : Bool) :
    (settleSave s n saved).saves.map Save.payload = s.saves.map Save.payload := by
  unfold settleSave
  split
  case h_1 => rfl
  case h_2 save hsave =>
    split
    · exact map_payload_set hsave (.settled saved)
    · rfl

/-- An event queues the valid call it is, and nothing else. -/
theorem next_payloads (s : State) (e : Event) :
    (writer.next s e).saves.map Save.payload = s.saves.map Save.payload ++ validCall s e := by
  cases e with
  | assign ref held => exact (List.append_nil _).symm
  | queue name value =>
    rw [next_queue]
    cases queue_cases s name value with
    | invalid hcall hnext => rw [hnext, hcall, List.append_nil]
    | valid snapshot hcall hnext => rw [hnext, hcall, List.map_append]; rfl
  | run n => exact (runHandler_payloads s n).trans (List.append_nil _).symm
  | settle n saved => exact (settleSave_payloads s n saved).trans (List.append_nil _).symm

/-- **The saves are those of the valid calls**, each with the copy made at its call. -/
theorem run_payloads (memory : Nat → Held) (es : List Event) :
    (writer.run (start memory) es).saves.map Save.payload = validCalls memory es := by
  induction es using List.reverseRecOn with
  | nil => rfl
  | append_singleton es e ih =>
    rw [EventSystem.run_concat, next_payloads, ih, validCalls, validCalls,
      EventSystem.collect_concat]

theorem run_length (memory : Nat → Held) (es : List Event) :
    (writer.run (start memory) es).saves.length = (validCalls memory es).length := by
  rw [← run_payloads, List.length_map]

/-! ## The writer comes to rest -/

/-- The events of the writer itself. -/
def Event.inner : Event → Bool
  | .run _ | .settle _ _ => true
  | _ => false

/-- Nothing is under way: no handler can run and no call of `saveState` is open. -/
def AtRest (s : State) : Prop := ∀ e : Event, e.inner = true → writer.next s e = s

/-- The inner events that a save still has before it. -/
def Phase.ahead : Phase → Nat
  | .waiting => 2
  | .saving => 1
  | .settled _ => 0

def ahead (s : State) : Nat := (s.saves.map (·.phase.ahead)).sum

theorem sum_ahead_le (saves : List Save) :
    (saves.map (·.phase.ahead)).sum ≤ 2 * saves.length := by
  induction saves with
  | nil => exact le_rfl
  | cons save rest ih =>
    have hone : save.phase.ahead ≤ 2 := by cases save.phase <;> simp [Phase.ahead]
    simp only [List.map_cons, List.sum_cons, List.length_cons]
    omega

theorem sum_ahead_set {saves : List Save} {n : Nat} {save : Save} (h : saves[n]? = some save)
    {phase : Phase} (hphase : phase.ahead + 1 = save.phase.ahead) :
    ((saves.set n { save with phase }).map (·.phase.ahead)).sum + 1
      = (saves.map (·.phase.ahead)).sum := by
  obtain ⟨before, after, hsplit, -, hset⟩ := split_set h
  rw [hset, hsplit]
  simp only [List.map_append, List.map_cons, List.sum_append, List.sum_cons]
  omega

/-- An inner event that does something leaves one less. -/
theorem ahead_next (s : State) {e : Event} (he : e.inner = true) :
    writer.next s e = s ∨ ahead (writer.next s e) + 1 = ahead s := by
  cases e with
  | assign ref held => exact absurd he nofun
  | queue name value => exact absurd he nofun
  | run n =>
    show runHandler s n = s ∨ ahead (runHandler s n) + 1 = ahead s
    unfold runHandler
    split
    case h_1 => exact Or.inl rfl
    case h_2 save hsave =>
      split
      case isFalse => exact Or.inl rfl
      case isTrue hrun => exact Or.inr (sum_ahead_set hsave (by rw [hrun.1]; rfl))
  | settle n saved =>
    show settleSave s n saved = s ∨ ahead (settleSave s n saved) + 1 = ahead s
    unfold settleSave
    split
    case h_1 => exact Or.inl rfl
    case h_2 save hsave =>
      split
      case isFalse => exact Or.inl rfl
      case isTrue hsaving => exact Or.inr (sum_ahead_set hsave (by rw [hsaving]; rfl))

/-- The inner events that do something are counted by the saves. -/
theorem inner_length {fs : List Event}
    (h : writer.Along (fun s e => e.inner = true ∧ writer.next s e ≠ s) s fs) :
    fs.length ≤ ahead s := by
  induction fs generalizing s with
  | nil => exact Nat.zero_le _
  | cons e fs ih =>
    obtain ⟨⟨he, hmoves⟩, hrest⟩ := h
    have hless := (ahead_next s he).resolve_left hmoves
    have htail := ih hrest
    rw [List.length_cons]
    omega

theorem next_run {n : Nat} {save : Save} (hsave : s.saves[n]? = some save)
    (hwaiting : save.phase = .waiting) (hready : s.value save.source = some true) :
    writer.next s (.run n) = { s with
      saves := s.saves.set n { save with phase := .saving }
      started := s.started ++ [save.payload] } := by
  show runHandler s n = _
  simp [runHandler, hsave, hwaiting, hready]

theorem next_settle {n : Nat} {save : Save} {saved : Bool} (hsave : s.saves[n]? = some save)
    (hsaving : save.phase = .saving) :
    writer.next s (.settle n saved) = { s with
      saves := s.saves.set n { save with phase := .settled saved }
      stored := if saved then s.stored ++ [save.payload] else s.stored } := by
  show settleSave s n saved = _
  simp [settleSave, hsave, hsaving]

/-- **At rest every save is settled.** -/
theorem Queue.settled_of_rest (h : Queue s) (hrest : AtRest s) :
    ∀ n < s.saves.length, (s.outcome n).isSome := by
  intro n hn
  induction n using Nat.strong_induction_on with
  | _ n ih =>
    have hsave : s.saves[n]? = some s.saves[n] := List.getElem?_eq_getElem hn
    rw [State.outcome, hsave]
    show s.saves[n].phase.outcome.isSome
    cases hphase : s.saves[n].phase with
    | waiting =>
      -- Everything before it is settled, so its handler can run.
      have hready := (h.ready_iff hsave).mpr fun k hk => ih k hk (by omega)
      have hruns := congrArg (·.started.length) (hrest (.run n) rfl)
      rw [next_run hsave hphase hready] at hruns
      simp at hruns
    | saving =>
      have hsettles := congrArg (·.saves[n]?) (hrest (.settle n true) rfl)
      rw [next_settle hsave hphase, hsave] at hsettles
      simp only [List.getElem?_set_self hn, Option.some.injEq] at hsettles
      rw [← hsettles] at hphase
      exact absurd hphase nofun
    | settled saved => rfl

/-! ## The promises handed out -/

/-- The promise of the `n`-th valid call. -/
def promiseOf (n : Nat) : Promise := (Promise.chain n).caught.after n

/-- **A promise handed out is settled with its own save**, whatever became of the others. -/
theorem Queue.value_promiseOf (h : Queue s) (n : Nat) : s.value (promiseOf n) = s.outcome n := by
  refine Promise.value_after_chain fun hsettled k hk => ?_
  cases hsave : s.saves[n]? with
  | none =>
    rw [State.outcome, hsave] at hsettled
    exact absurd hsettled nofun
  | some save =>
    rw [State.outcome, hsave] at hsettled
    have hstarted : save.phase ≠ .waiting := fun hwaiting => by
      simp [hwaiting, Phase.outcome] at hsettled
    obtain ⟨hn, rfl⟩ := List.getElem?_eq_some_iff.mp hsave
    have hk' : k < s.saves.length := hk.trans hn
    rw [State.outcome, List.getElem?_eq_getElem hk']
    exact List.pairwise_iff_getElem.mp h.ordered k n hk' hn hk hstarted

/-- A call that asks for a save is handed the promise of that save; one that does not is handed
none. -/
theorem Queue.reply_queue (h : Queue s) (name : JsValue) (value : Option Nat) :
    writer.reply s (.queue name value) = .promise (promiseOf s.saves.length) ∨
      validCall s (.queue name value) = [] := by
  cases queue_cases s name value with
  | invalid hcall _ => exact Or.inr hcall
  | valid snapshot _ _ hreply =>
    refine Or.inl (hreply.trans ?_)
    rw [h.tail, promiseOf]

/-! ## The writer serializes -/

/-- The last value logged under a name. -/
def newest (name : String) (log : List (String × JsValue)) : Option JsValue :=
  ((log.filter fun entry => entry.1 = name).getLast?).map (·.2)

/-- What the writer keeps in a state it has reached, given the valid calls so far. -/
structure Serialized (calls : List (String × JsValue)) (s : State) : Prop where
  /-- The calls of `saveState` are those of the valid calls, in order, with the copies. -/
  inOrder : s.started <+: calls
  /-- Two are never under way. -/
  single : (s.saves.filter fun save => save.phase = .saving).length ≤ 1
  /-- The promise of a call is pending, fulfilled or rejected as its own save is. -/
  own : ∀ n < calls.length, s.value (promiseOf n) = s.outcome n
  /-- However the handlers run and the saves end, the writer comes to rest. -/
  drains : ∀ fs, writer.Along (fun s e => e.inner = true ∧ writer.next s e ≠ s) s fs →
    fs.length ≤ 2 * calls.length
  /-- It has then made one call of `saveState` for each valid call, and all are settled. -/
  once : AtRest s → s.started = calls ∧ ∀ n < calls.length, (s.outcome n).isSome
  /-- What is stored under a name is the newest value queued for it, once that is saved. -/
  written : ∀ before name value after, calls = before ++ (name, value) :: after →
    (∀ later ∈ after, later.1 ≠ name) → s.outcome before.length = some true →
      newest name s.stored = some value

theorem newest_append {name : String} {value : JsValue} {before after : List (String × JsValue)}
    (h : ∀ later ∈ after, later.1 ≠ name) :
    newest name (before ++ (name, value) :: after) = some value := by
  have hafter : after.filter (fun entry => entry.1 = name) = [] :=
    filter_eq_nil_of fun entry hentry => decide_eq_false (h entry hentry)
  rw [newest, List.filter_append, List.filter_cons, if_pos (decide_eq_true rfl), hafter,
    List.getLast?_concat]
  rfl

theorem Queue.written (h : Queue s) {before after : List (String × JsValue)} {name : String}
    {value : JsValue} (hcalls : s.saves.map Save.payload = before ++ (name, value) :: after)
    (hlast : ∀ later ∈ after, later.1 ≠ name) (hsaved : s.outcome before.length = some true) :
    newest name s.stored = some value := by
  obtain ⟨first, rest, hsplit, hfirst, hrest⟩ := List.map_eq_append_iff.mp hcalls
  obtain ⟨save, last, rfl, hsave, hlater⟩ := List.map_eq_cons_iff.mp hrest
  have hphase : save.phase = .settled true := by
    have hlength : before.length = first.length := by rw [← hfirst, List.length_map]
    rw [State.outcome, hsplit, hlength, List.getElem?_append_right le_rfl, Nat.sub_self] at hsaved
    cases hphase : save.phase <;> simp_all [Phase.outcome]
  rw [h.stored, hsplit, List.filter_append, List.filter_cons, if_pos (decide_eq_true hphase),
    List.map_append, List.map_cons, hsave]
  refine newest_append fun entry hentry => ?_
  obtain ⟨other, hother, rfl⟩ := List.mem_map.mp hentry
  refine hlast _ ?_
  rw [← hlater]
  exact List.mem_map_of_mem (List.mem_of_mem_filter hother)

/-- **State writes are serialized.** In every run of callers, handlers and saves, from any values of
the callers' variables, the writer has called `saveState` for the valid calls in their order, each
once and with the value of the time of its call, never two at a time; the promise handed to a caller
is settled as its own save is; and when the writer is at rest nothing is left out. -/
theorem saves_serialized (memory : Nat → Held) (es : List Event) :
    Serialized (validCalls memory es) (writer.run (start memory) es) ∧
      ∀ before name value after, es = before ++ .queue name value :: after →
        writer.reply (writer.run (start memory) before) (.queue name value)
            = .promise (promiseOf (validCalls memory before).length) ∨
          validCall (writer.run (start memory) before) (.queue name value) = [] := by
  have hqueue := run_queue memory es
  have hcalls := run_payloads memory es
  have hlength := run_length memory es
  refine ⟨⟨?_, one_saving hqueue.ordered, fun n _ => hqueue.value_promiseOf n, fun fs hfs => ?_,
    fun hrest => ?_, fun before name value after hsplit => ?_⟩, fun before name value after _ => ?_⟩
  · rw [hqueue.started, ← hcalls]
    exact (started_first hqueue.ordered).map Save.payload
  · have hfirst := inner_length hfs
    have hbound := sum_ahead_le (writer.run (start memory) es).saves
    rw [hlength] at hbound
    exact hfirst.trans hbound
  · have hsettled := hqueue.settled_of_rest hrest
    rw [hlength] at hsettled
    refine ⟨?_, hsettled⟩
    have hall : ∀ save ∈ (writer.run (start memory) es).saves, save.phase ≠ .waiting := by
      intro save hsave hwaiting
      obtain ⟨n, hn, rfl⟩ := List.mem_iff_getElem.mp hsave
      have hn' := hqueue.settled_of_rest hrest n hn
      simp [State.outcome, List.getElem?_eq_getElem hn, hwaiting, Phase.outcome] at hn'
    rw [hqueue.started, ← hcalls, List.filter_eq_self.mpr fun save hsave => by
      simpa using hall save hsave]
  · exact hqueue.written (hcalls.trans hsplit)
  · rw [← run_length]
    exact (run_queue memory before).reply_queue name value

/-- The campaigns are always queued by a valid call, when they are data and there is a database. -/
theorem persistCampaigns_valid {payload : Nat} {value : JsValue}
    (h : s.memory payload = .data value) :
    writer.collect validCall s (persistCampaigns true payload) = [("campaigns", value)] := by
  have hname : stateName (.string "campaigns") = "campaigns" := by decide +kernel
  simp [persistCampaigns, EventSystem.collect, validCall, hname, h, cloneState]

end LinkSuffix.StateWriter
