import LinkSuffix.Js.Value
import LinkSuffix.Lib.Run
import Mathlib.Logic.Function.Basic

/-!
# Health alerts

The alert table of `health-alert-store.ts`: one row a fingerprint, written by every evaluation and by
the operator. Times are microseconds of the database clock.

* `insertAlert`, `onConflict`: the upsert of `persistEvaluation`, column by column.
* `persistEvaluation`, `acknowledgeHealthAlert`, `resolveHealthAlert`: the writes. `system`: any
  sequence of them.
* `LifeCycle`: what a row says of the history. **`alert_life_cycle`**: it says so in every run.
-/

namespace LinkSuffix.Health

open Lib

/-! ## The table -/

/-- `HealthSeverity`. -/
inductive Severity where
  | warning | critical
  deriving DecidableEq

/-- `HealthAlertStatus`. -/
inductive Status where
  | observing | active | acknowledged | resolved
  deriving DecidableEq

/-- `AlertCandidate`. -/
structure Candidate where
  fingerprint : String
  severity : Severity
  component : String
  scope : String
  code : String
  title : String
  message : String
  remediation : String
  campaignRecordId : Option String := none
  shardId : Option String := none
  activationAfterMs : Nat := 0
  details : JsValue := .object []

/-- A row of `tah_health_alerts`: the columns of the candidate, and those the table keeps. -/
structure Row where
  alert : Candidate
  status : Status
  occurrenceCount : Nat
  firstSeenAt : Int
  lastSeenAt : Int
  openedAt : Option Int
  acknowledgedAt : Option Int := none
  acknowledgedBy : Option String := none
  resolvedAt : Option Int := none

/-- The rows by fingerprint, which is the primary key. -/
abbrev Table := String → Option Row

/-- The row `INSERT` makes. -/
def insertAlert (now : Int) (candidate : Candidate) : Row where
  alert := candidate
  status := if candidate.activationAfterMs = 0 then .active else .observing
  occurrenceCount := 1
  firstSeenAt := now
  lastSeenAt := now
  openedAt := if candidate.activationAfterMs = 0 then some now else none

/-- `NOW() - first_seen_at >= make_interval(secs => EXCLUDED.activation_after_ms / 1000.0)`. -/
def Due (now : Int) (old : Row) (candidate : Candidate) : Prop :=
  now - old.firstSeenAt ≥ candidate.activationAfterMs * 1000

instance (now : Int) (old : Row) (candidate : Candidate) : Decidable (Due now old candidate) :=
  inferInstanceAs (Decidable (_ ≥ _))

/-- The row `ON CONFLICT (fingerprint) DO UPDATE` makes of the old one. -/
def onConflict (now : Int) (old : Row) (candidate : Candidate) : Row where
  alert := candidate
  occurrenceCount := if old.status = .resolved then 1 else old.occurrenceCount + 1
  firstSeenAt := if old.status = .resolved then now else old.firstSeenAt
  lastSeenAt := now
  openedAt :=
    if old.status = .resolved ∧ candidate.activationAfterMs = 0 then some now
    else if old.status = .observing ∧ Due now old candidate then some now
    else old.openedAt
  status :=
    if old.status = .acknowledged then .acknowledged
    else if old.status = .resolved then
      if candidate.activationAfterMs = 0 then .active else .observing
    else if old.status = .observing ∧ Due now old candidate then .active
    else old.status
  acknowledgedAt := if old.status = .resolved then none else old.acknowledgedAt
  acknowledgedBy := if old.status = .resolved then none else old.acknowledgedBy
  resolvedAt := none

/-- The row a candidate leaves. -/
def seen (now : Int) (candidate : Candidate) : Option Row → Row
  | none => insertAlert now candidate
  | some old => onConflict now old candidate

def upsertAlert (now : Int) (table : Table) (candidate : Candidate) : Table :=
  Function.update table candidate.fingerprint
    (some (seen now candidate (table candidate.fingerprint)))

/-- A row that is resolved now, where it was not. -/
def Row.resolve (now : Int) (row : Row) : Row :=
  if row.status = .resolved then row else { row with status := .resolved, resolvedAt := some now }

/-- The candidates of an evaluation: the values of a map by fingerprint. -/
structure Evaluation where
  candidates : List Candidate
  distinct : (candidates.map (·.fingerprint)).Nodup

def Evaluation.fingerprints (evaluation : Evaluation) : List String :=
  evaluation.candidates.map (·.fingerprint)

/-- `UPDATE … SET status = 'resolved' … WHERE NOT (fingerprint = ANY($1))`. -/
def resolveMissing (now : Int) (fingerprints : List String) (table : Table) : Table :=
  fun fingerprint =>
    if fingerprint ∈ fingerprints then table fingerprint
    else (table fingerprint).map (Row.resolve now)

def persistEvaluation (now : Int) (evaluation : Evaluation) (table : Table) : Table :=
  resolveMissing now evaluation.fingerprints (evaluation.candidates.foldl (upsertAlert now) table)

/-- An active row, acknowledged. -/
def Row.acknowledge (now : Int) (actor : String) (row : Row) : Row :=
  if row.status = .active then
    { row with status := .acknowledged, acknowledgedAt := some now, acknowledgedBy := some actor }
  else row

def acknowledgeHealthAlert (now : Int) (fingerprint actor : String) (table : Table) : Table :=
  Function.update table fingerprint ((table fingerprint).map (Row.acknowledge now actor))

def resolveHealthAlert (now : Int) (fingerprint : String) (table : Table) : Table :=
  Function.update table fingerprint ((table fingerprint).map (Row.resolve now))

/-! ## Runs -/

inductive Action where
  | evaluate (evaluation : Evaluation)
  | acknowledge (fingerprint actor : String)
  | resolve (fingerprint : String)

/-- A transaction, at the time `NOW()` has in it. -/
structure Event where
  now : Int
  action : Action

def system : EventSystem Table Event Unit where
  step table event :=
    match event.action with
    | .evaluate evaluation => (persistEvaluation event.now evaluation table, ())
    | .acknowledge fingerprint actor =>
      (acknowledgeHealthAlert event.now fingerprint actor table, ())
    | .resolve fingerprint => (resolveHealthAlert event.now fingerprint table, ())

/-- The table before the first evaluation. -/
def empty : Table := fun _ => none

/-- The alert is a candidate of the event's evaluation. -/
def Event.names (event : Event) (fingerprint : String) : Bool :=
  match event.action with
  | .evaluate evaluation => fingerprint ∈ evaluation.fingerprints
  | _ => false

/-- The event leaves the alert open: no evaluation without it, and not its resolution. -/
def Event.Spares (event : Event) (fingerprint : String) : Prop :=
  match event.action with
  | .evaluate evaluation => fingerprint ∈ evaluation.fingerprints
  | .acknowledge _ _ => True
  | .resolve resolved => resolved ≠ fingerprint

/-! ## The life cycle -/

/-- The alert was opened in an evaluation of the episode whose candidate had waited long enough. -/
def Opened (episode : List Event) (fingerprint : String) (row : Row) : Prop :=
  ∃ event ∈ episode, ∃ evaluation, event.action = .evaluate evaluation ∧
    ∃ candidate ∈ evaluation.candidates, candidate.fingerprint = fingerprint ∧
      event.now - row.firstSeenAt ≥ candidate.activationAfterMs * 1000 ∧
      row.openedAt = some event.now

/-- The alert was acknowledged while it was active, and was spared ever since. -/
def Acknowledged (events : List Event) (fingerprint : String) (row : Row) : Prop :=
  ∃ before event after actor, events = before ++ event :: after ∧
    event.action = .acknowledge fingerprint actor ∧ row.acknowledgedAt = some event.now ∧
    row.acknowledgedBy = some actor ∧
    (∃ old, system.run empty before fingerprint = some old ∧ old.status = .active) ∧
    ∀ later ∈ after, later.Spares fingerprint

/-- The episode of a row: the events since the evaluation that saw the alert first. -/
structure Episode (events : List Event) (fingerprint : String) (row : Row)
    (first : Event) (since : List Event) : Prop where
  suffix : first :: since <:+ events
  seen : first.names fingerprint = true ∧ first.now = row.firstSeenAt
  count : row.occurrenceCount = ((first :: since).filter (·.names fingerprint)).length
  spared : row.status ≠ .resolved → ∀ event ∈ since, event.Spares fingerprint
  opened : row.status = .active ∨ row.status = .acknowledged →
    Opened (first :: since) fingerprint row
  acknowledged : row.status = .acknowledged → Acknowledged events fingerprint row
  unacknowledged : row.status = .observing ∨ row.status = .active →
    row.acknowledgedAt = none ∧ row.acknowledgedBy = none

/-- What a row says of the events so far. -/
def LifeCycle (events : List Event) (fingerprint : String) (row : Row) : Prop :=
  ∃ first since, Episode events fingerprint row first since

/-! ## One write, at one fingerprint -/

variable {now : Int} {table : Table} {fingerprint : String} {events since : List Event}
  {event first : Event} {row old : Row}

theorem upsertAlert_of_ne {candidate : Candidate} (h : candidate.fingerprint ≠ fingerprint) :
    upsertAlert now table candidate fingerprint = table fingerprint :=
  Function.update_of_ne (Ne.symm h) _ _

theorem foldl_upsertAlert_of_not_mem {candidates : List Candidate}
    (h : fingerprint ∉ candidates.map (·.fingerprint)) :
    candidates.foldl (upsertAlert now) table fingerprint = table fingerprint := by
  induction candidates generalizing table with
  | nil => rfl
  | cons candidate candidates ih =>
    obtain ⟨hne, hmem⟩ := List.ne_and_not_mem_of_not_mem_cons h
    rw [List.foldl_cons, ih hmem, upsertAlert_of_ne (Ne.symm hne)]

/-- A candidate writes its own row, once. -/
theorem foldl_upsertAlert_of_mem {candidates : List Candidate} {candidate : Candidate}
    (hdistinct : (candidates.map (·.fingerprint)).Nodup) (h : candidate ∈ candidates) :
    candidates.foldl (upsertAlert now) table candidate.fingerprint =
      some (seen now candidate (table candidate.fingerprint)) := by
  induction candidates generalizing table with
  | nil => cases h
  | cons other candidates ih =>
    rw [List.map_cons, List.nodup_cons] at hdistinct
    rw [List.foldl_cons]
    rcases List.mem_cons.mp h with rfl | hmem
    · rw [foldl_upsertAlert_of_not_mem hdistinct.1]
      exact Function.update_self ..
    · have hne : other.fingerprint ≠ candidate.fingerprint := fun heq =>
        hdistinct.1 (heq ▸ List.mem_map_of_mem hmem)
      rw [ih hdistinct.2 hmem, upsertAlert_of_ne hne]

theorem persistEvaluation_of_mem {evaluation : Evaluation} {candidate : Candidate}
    (h : candidate ∈ evaluation.candidates) :
    persistEvaluation now evaluation table candidate.fingerprint =
      some (seen now candidate (table candidate.fingerprint)) := by
  have hmem : candidate.fingerprint ∈ evaluation.fingerprints := List.mem_map_of_mem h
  unfold persistEvaluation resolveMissing
  rw [if_pos hmem, foldl_upsertAlert_of_mem evaluation.distinct h]

theorem persistEvaluation_of_not_mem {evaluation : Evaluation}
    (h : fingerprint ∉ evaluation.fingerprints) :
    persistEvaluation now evaluation table fingerprint =
      (table fingerprint).map (Row.resolve now) := by
  unfold persistEvaluation resolveMissing
  rw [if_neg h, foldl_upsertAlert_of_not_mem h]

theorem resolve_status (now : Int) (row : Row) : (row.resolve now).status = .resolved := by
  unfold Row.resolve
  split
  · assumption
  · rfl

/-! ## Episodes -/

theorem Opened.extend {episode later : List Event} {row' : Row}
    (h : Opened episode fingerprint row) (hfirst : row'.firstSeenAt = row.firstSeenAt)
    (hopened : row'.openedAt = row.openedAt) : Opened (episode ++ later) fingerprint row' := by
  obtain ⟨event, hmem, evaluation, haction, candidate, hcandidate, hname, hwaited, hat⟩ := h
  exact ⟨event, List.mem_append_left _ hmem, evaluation, haction, candidate, hcandidate, hname,
    hfirst ▸ hwaited, hopened.trans hat⟩

theorem Acknowledged.extend {row' : Row} (h : Acknowledged events fingerprint row)
    (hspares : event.Spares fingerprint) (hat : row'.acknowledgedAt = row.acknowledgedAt)
    (hby : row'.acknowledgedBy = row.acknowledgedBy) :
    Acknowledged (events ++ [event]) fingerprint row' := by
  obtain ⟨before, ack, after, actor, rfl, haction, hwhen, hwho, hactive, hafter⟩ := h
  refine ⟨before, ack, after ++ [event], actor, ?_, haction, hat.trans hwhen, hby.trans hwho,
    hactive, ?_⟩
  · rw [List.append_assoc, List.cons_append]
  · intro later hlater
    rcases List.mem_append.mp hlater with hmem | hmem
    · exact hafter later hmem
    · rw [List.mem_singleton.mp hmem]
      exact hspares

/-- An episode goes on with one event more. -/
theorem Episode.extend {row' : Row} (h : Episode events fingerprint row first since)
    (hfirst : row'.firstSeenAt = row.firstSeenAt)
    (hcount : row'.occurrenceCount =
      row.occurrenceCount + if event.names fingerprint then 1 else 0)
    (hspared : row'.status ≠ .resolved → row.status ≠ .resolved ∧ event.Spares fingerprint)
    (hopened : row'.status = .active ∨ row'.status = .acknowledged →
      Opened (first :: since ++ [event]) fingerprint row')
    (hacknowledged : row'.status = .acknowledged → Acknowledged (events ++ [event]) fingerprint row')
    (hunacknowledged : row'.status = .observing ∨ row'.status = .active →
      row'.acknowledgedAt = none ∧ row'.acknowledgedBy = none) :
    Episode (events ++ [event]) fingerprint row' first (since ++ [event]) where
  suffix := by
    obtain ⟨before, hevents⟩ := h.suffix
    exact ⟨before, by rw [← hevents, ← List.cons_append, List.append_assoc]⟩
  seen := ⟨h.seen.1, h.seen.2.trans hfirst.symm⟩
  count := by
    rw [hcount, h.count, ← List.cons_append, List.filter_append, List.length_append]
    congr 1
    cases hnames : event.names fingerprint <;> simp [hnames]
  spared := by
    intro hstatus later hlater
    obtain ⟨hopen, hspares⟩ := hspared hstatus
    rcases List.mem_append.mp hlater with hmem | hmem
    · exact h.spared hopen later hmem
    · rw [List.mem_singleton.mp hmem]
      exact hspares
  opened := hopened
  acknowledged := hacknowledged
  unacknowledged := hunacknowledged

/-- A row that an event leaves as it is. -/
theorem LifeCycle.unchanged (h : LifeCycle events fingerprint row)
    (hnames : event.names fingerprint = false) (hspares : event.Spares fingerprint) :
    LifeCycle (events ++ [event]) fingerprint row := by
  obtain ⟨first, since, h⟩ := h
  refine ⟨first, since ++ [event], h.extend rfl ?_ (fun hstatus => ⟨hstatus, hspares⟩)
    (fun hstatus => (h.opened hstatus).extend rfl rfl)
    (fun hstatus => (h.acknowledged hstatus).extend hspares rfl rfl) h.unacknowledged⟩
  rw [hnames]
  rfl

/-- A row that an event resolves. -/
theorem LifeCycle.resolve (h : LifeCycle events fingerprint row)
    (hnames : event.names fingerprint = false) :
    LifeCycle (events ++ [event]) fingerprint (row.resolve now) := by
  obtain ⟨first, since, h⟩ := h
  have hstatus := resolve_status now row
  have hfirst : (row.resolve now).firstSeenAt = row.firstSeenAt := by
    unfold Row.resolve
    split <;> rfl
  have hcount : (row.resolve now).occurrenceCount = row.occurrenceCount := by
    unfold Row.resolve
    split <;> rfl
  refine ⟨first, since ++ [event], h.extend hfirst ?_ (fun hopen => absurd hstatus hopen) ?_ ?_ ?_⟩
  · rw [hcount, hnames]
    rfl
  · rintro (hopen | hopen) <;> rw [hstatus] at hopen <;> cases hopen
  · intro hopen
    rw [hstatus] at hopen
    cases hopen
  · rintro (hopen | hopen) <;> rw [hstatus] at hopen <;> cases hopen

section Evaluated

variable {evaluation : Evaluation} {candidate : Candidate}

/-- An evaluation, and the candidate it has for the alert. -/
structure Evaluates (event : Event) (evaluation : Evaluation) (candidate : Candidate) : Prop where
  action : event.action = .evaluate evaluation
  mem : candidate ∈ evaluation.candidates

theorem Evaluates.names (h : Evaluates event evaluation candidate) :
    event.names candidate.fingerprint = true := by
  unfold Event.names
  rw [h.action]
  exact decide_eq_true (List.mem_map_of_mem h.mem)

theorem Evaluates.spares (h : Evaluates event evaluation candidate) :
    event.Spares candidate.fingerprint := by
  unfold Event.Spares
  rw [h.action]
  exact List.mem_map_of_mem h.mem

/-- The alert was opened by this evaluation. -/
theorem Evaluates.opened (h : Evaluates event evaluation candidate) (episode : List Event)
    (hwaited : event.now - row.firstSeenAt ≥ candidate.activationAfterMs * 1000)
    (hat : row.openedAt = some event.now) :
    Opened (episode ++ [event]) candidate.fingerprint row :=
  ⟨event, List.mem_append_right _ (List.mem_singleton_self event), evaluation, h.action, candidate,
    h.mem, rfl, hwaited, hat⟩

/-- An episode starts with a row that is new or was resolved. -/
theorem Evaluates.starts (h : Evaluates event evaluation candidate) (events : List Event)
    (hfirst : row.firstSeenAt = event.now) (hcount : row.occurrenceCount = 1)
    (hstatus : row.status = if candidate.activationAfterMs = 0 then .active else .observing)
    (hopened : candidate.activationAfterMs = 0 → row.openedAt = some event.now)
    (hat : row.acknowledgedAt = none) (hby : row.acknowledgedBy = none) :
    LifeCycle (events ++ [event]) candidate.fingerprint row := by
  have hnever : row.status ≠ .acknowledged := by
    rw [hstatus]
    split <;> exact nofun
  refine ⟨event, [], ?_⟩
  exact {
    suffix := ⟨events, rfl⟩
    seen := ⟨h.names, hfirst.symm⟩
    count := by
      rw [hcount, List.filter_singleton, h.names]
      rfl
    spared := fun _ => nofun
    opened := by
      rintro (hactive | hacknowledged)
      · have hzero : candidate.activationAfterMs = 0 := by
          rw [hstatus] at hactive
          split at hactive
          · assumption
          · cases hactive
        refine h.opened [] ?_ (hopened hzero)
        rw [hzero, hfirst]
        omega
      · exact absurd hacknowledged hnever
    acknowledged := fun hacknowledged => absurd hacknowledged hnever
    unacknowledged := fun _ => ⟨hat, hby⟩ }

/-- **A candidate's row**: a new episode, or the old one gone on. -/
theorem Evaluates.lifeCycle (h : Evaluates event evaluation candidate)
    (hold : ∀ old ∈ table candidate.fingerprint, LifeCycle events candidate.fingerprint old) :
    LifeCycle (events ++ [event]) candidate.fingerprint
      (seen event.now candidate (table candidate.fingerprint)) := by
  cases hrow : table candidate.fingerprint with
  | none => exact h.starts events rfl rfl rfl (fun hzero => if_pos hzero) rfl rfl
  | some old =>
    unfold seen
    dsimp only
    by_cases hresolved : old.status = .resolved
    · refine h.starts events (if_pos hresolved) (if_pos hresolved) ?_
        (fun hzero => if_pos ⟨hresolved, hzero⟩) (if_pos hresolved) (if_pos hresolved)
      unfold onConflict
      dsimp only
      rw [if_neg (by rw [hresolved]; exact nofun), if_pos hresolved]
    obtain ⟨first, since, hepisode⟩ := hold old hrow
    have hfirst : (onConflict event.now old candidate).firstSeenAt = old.firstSeenAt :=
      if_neg hresolved
    have hat : (onConflict event.now old candidate).acknowledgedAt = old.acknowledgedAt :=
      if_neg hresolved
    have hby : (onConflict event.now old candidate).acknowledgedBy = old.acknowledgedBy :=
      if_neg hresolved
    have hcount : (onConflict event.now old candidate).occurrenceCount = old.occurrenceCount + 1 :=
      if_neg hresolved
    have hnotNew : ¬(old.status = .resolved ∧ candidate.activationAfterMs = 0) := fun hnew =>
      hresolved hnew.1
    have hextend (hopened : (onConflict event.now old candidate).status = .active ∨
          (onConflict event.now old candidate).status = .acknowledged →
            Opened (first :: since ++ [event]) candidate.fingerprint
              (onConflict event.now old candidate))
        (hacknowledged : (onConflict event.now old candidate).status = .acknowledged →
          old.status = .acknowledged)
        (hobserving : (onConflict event.now old candidate).status = .observing ∨
          (onConflict event.now old candidate).status = .active →
            old.status = .observing ∨ old.status = .active) :
        LifeCycle (events ++ [event]) candidate.fingerprint (onConflict event.now old candidate) := by
      refine ⟨first, since ++ [event], hepisode.extend hfirst ?_ (fun _ => ⟨hresolved, h.spares⟩)
        hopened (fun hstatus => (hepisode.acknowledged (hacknowledged hstatus)).extend h.spares hat hby)
        fun hstatus => ?_⟩
      · rw [hcount, h.names]
        rfl
      · rw [hat, hby]
        exact hepisode.unacknowledged (hobserving hstatus)
    by_cases hdue : old.status = .observing ∧ Due event.now old candidate
    · have hstatus : (onConflict event.now old candidate).status = .active := by
        unfold onConflict
        dsimp only
        rw [if_neg (by rw [hdue.1]; exact nofun), if_neg hresolved, if_pos hdue]
      have hopenedAt : (onConflict event.now old candidate).openedAt = some event.now :=
        (if_neg hnotNew).trans (if_pos hdue)
      refine hextend (fun _ => h.opened _ (hfirst ▸ hdue.2) hopenedAt) (fun hother => ?_)
        fun _ => .inl hdue.1
      rw [hstatus] at hother
      cases hother
    · have hstatus : (onConflict event.now old candidate).status = old.status := by
        unfold onConflict
        dsimp only
        rw [if_neg hresolved, if_neg hdue]
        split
        · rename_i hacknowledged
          exact hacknowledged.symm
        · rfl
      have hopenedAt : (onConflict event.now old candidate).openedAt = old.openedAt :=
        (if_neg hnotNew).trans (if_neg hdue)
      rw [hstatus] at hextend
      exact hextend (fun hopen => (hepisode.opened hopen).extend hfirst hopenedAt) id id

end Evaluated

/-! ## Every run -/

/-- Every row tells the history. -/
def Told (events : List Event) : Prop :=
  ∀ fingerprint row, system.run empty events fingerprint = some row →
    LifeCycle events fingerprint row

theorem Told.evaluate (h : Told events) {evaluation : Evaluation}
    (haction : event.action = .evaluate evaluation)
    (hrow : persistEvaluation event.now evaluation (system.run empty events) fingerprint = some row) :
    LifeCycle (events ++ [event]) fingerprint row := by
  by_cases hmem : fingerprint ∈ evaluation.fingerprints
  · obtain ⟨candidate, hcandidate, rfl⟩ := List.mem_map.mp hmem
    rw [persistEvaluation_of_mem hcandidate] at hrow
    obtain rfl := Option.some.inj hrow
    exact Evaluates.lifeCycle ⟨haction, hcandidate⟩ fun old hold => h _ old hold
  · rw [persistEvaluation_of_not_mem hmem] at hrow
    obtain ⟨old, hold, rfl⟩ := Option.map_eq_some_iff.mp hrow
    refine (h _ old hold).resolve ?_
    unfold Event.names
    rw [haction]
    exact decide_eq_false hmem

theorem Told.acknowledge (h : Told events) {acknowledged actor : String}
    (haction : event.action = .acknowledge acknowledged actor)
    (hrow : acknowledgeHealthAlert event.now acknowledged actor (system.run empty events)
      fingerprint = some row) :
    LifeCycle (events ++ [event]) fingerprint row := by
  have hnames : event.names fingerprint = false := by
    unfold Event.names
    rw [haction]
  have hspares : event.Spares fingerprint := by
    unfold Event.Spares
    rw [haction]
    trivial
  unfold acknowledgeHealthAlert at hrow
  by_cases hself : fingerprint = acknowledged
  · subst hself
    rw [Function.update_self] at hrow
    obtain ⟨old, hold, rfl⟩ := Option.map_eq_some_iff.mp hrow
    unfold Row.acknowledge
    by_cases hactive : old.status = .active
    · rw [if_pos hactive]
      obtain ⟨first, since, hepisode⟩ := h _ old hold
      refine ⟨first, since ++ [event], hepisode.extend rfl ?_ ?_ ?_ ?_ ?_⟩
      · rw [hnames]
        rfl
      · intro _
        rw [hactive]
        exact ⟨nofun, hspares⟩
      · exact fun _ => (hepisode.opened (.inl hactive)).extend rfl rfl
      · exact fun _ => ⟨events, event, [], actor, rfl, haction, rfl, rfl, ⟨old, hold, hactive⟩,
          nofun⟩
      · rintro (hother | hother) <;> cases hother
    · rw [if_neg hactive]
      exact (h _ old hold).unchanged hnames hspares
  · rw [Function.update_of_ne hself] at hrow
    exact (h _ row hrow).unchanged hnames hspares

theorem Told.resolve (h : Told events) {resolved : String}
    (haction : event.action = .resolve resolved)
    (hrow : resolveHealthAlert event.now resolved (system.run empty events) fingerprint = some row) :
    LifeCycle (events ++ [event]) fingerprint row := by
  have hnames : event.names fingerprint = false := by
    unfold Event.names
    rw [haction]
  unfold resolveHealthAlert at hrow
  by_cases hself : fingerprint = resolved
  · subst hself
    rw [Function.update_self] at hrow
    obtain ⟨old, hold, rfl⟩ := Option.map_eq_some_iff.mp hrow
    exact (h _ old hold).resolve hnames
  · rw [Function.update_of_ne hself] at hrow
    refine (h _ row hrow).unchanged hnames ?_
    unfold Event.Spares
    rw [haction]
    exact Ne.symm hself

theorem told_next (h : Told events) (event : Event) : Told (events ++ [event]) := by
  intro fingerprint row hrow
  rw [EventSystem.run_concat] at hrow
  unfold EventSystem.next system at hrow
  dsimp only at hrow
  cases haction : event.action with
  | evaluate evaluation =>
    rw [haction] at hrow
    exact h.evaluate haction hrow
  | acknowledge acknowledged actor =>
    rw [haction] at hrow
    exact h.acknowledge haction hrow
  | resolve resolved =>
    rw [haction] at hrow
    exact h.resolve haction hrow

theorem told_run (events : List Event) : Told events := by
  induction events using List.reverseRecOn with
  | nil =>
    rintro fingerprint row (hrow : empty fingerprint = some row)
    cases hrow
  | append_singleton events event ih => exact told_next ih event

/-- **The life cycle of an alert**, in every run; and an evaluation without it resolves it. -/
theorem alert_life_cycle (events : List Event) :
    (∀ fingerprint row, system.run empty events fingerprint = some row →
      LifeCycle events fingerprint row) ∧
    ∀ now evaluation fingerprint row, fingerprint ∉ Evaluation.fingerprints evaluation →
      system.next (system.run empty events) ⟨now, .evaluate evaluation⟩ fingerprint = some row →
      row.status = .resolved := by
  refine ⟨told_run events, ?_⟩
  intro now evaluation fingerprint row hmem hrow
  have hmissing := @persistEvaluation_of_not_mem now (system.run empty events) fingerprint
    evaluation hmem
  obtain ⟨old, -, rfl⟩ := Option.map_eq_some_iff.mp (hmissing.symm.trans hrow)
  exact resolve_status now old

end LinkSuffix.Health
