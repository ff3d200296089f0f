import LinkSuffix.Control.WorkerPool
import LinkSuffix.Lib.Run

/-!
# The tables of the worker pool over a run

`createOrchestratorWorkerPool` with what `WorkerPool` leaves out: the handlers that a `start` gives,
the `onExit` they are called with, and the await of the channel, which may fail
(`orchestrator-worker-pool.mjs`). A start enters its run in both tables before that await, and takes
it out of neither when the await throws.

* `tables`: the event system. Every order of starts, callbacks, messages and exits is a run.
* `Booked`: the tables agree and stay within bounds, and nobody is told twice of an exit.
* `Restored`: a start that rejects leaves nothing of its own in the tables.
* **`pool_restored_iff`**: a run is booked, and restored by every start that rejects if and only if
  no send fails before its worker has exited, or has reported the exit of the run.
* `send_failure_kept`.
-/

namespace LinkSuffix.PoolTables

open Lib

/-- A start that awaits its send. -/
structure Sending where
  /-- Which start it is. -/
  start : Nat
  runId : RunId
  worker : Nat
  /-- Its worker has exited since, or has reported the exit of the run. -/
  released : Bool := false
  deriving DecidableEq

structure Tables where
  pool : WorkerPool := {}
  /-- The handlers that the task of a run has, by the start that gave them. -/
  handlers : RunId → Nat := fun _ => 0
  /-- How many starts have entered their run. -/
  starts : Nat := 0
  /-- The starts whose `onExit` was called. -/
  exits : List Nat := []
  sending : List Sending := []

inductive PoolEvent
  | start (runId : RunId)
  /-- The callback of the send of a start. -/
  | sent (start : Nat) (failed : Bool)
  | stop (runId : RunId)
  /-- A message of a worker: the exit of a run, or another. -/
  | message (worker : Nat) (exit : Option RunId)
  /-- The exit of a worker process. -/
  | lost (worker : Nat)
  | shutdown

inductive PoolReply
  | pending
  | resolved
  | rejected (message : String)
  | stopped (sent : Bool)
  | done
  deriving DecidableEq

/-- What is noted of the starts that still await their send. -/
def release (gone : Sending → Bool) (sending : List Sending) : List Sending :=
  sending.map fun s => { s with released := s.released || gone s }

section Steps

variable (options : PoolOptions) (t : Tables)

/-- `start(job, handlers)` up to the await of the channel. -/
def start (runId : RunId) : Tables × PoolReply :=
  match t.pool.start options runId with
  | .error message => (t, .rejected message)
  | .ok (pool, worker) =>
    ({ t with
        pool := pool
        handlers := Function.update t.handlers runId t.starts
        starts := t.starts + 1
        sending := t.sending ++ [{ start := t.starts, runId := runId, worker := worker.id }] },
      .pending)

/-- The await is over. -/
def sent (number : Nat) (failed : Bool) : Tables × PoolReply :=
  if t.sending.any fun s => s.start = number then
    ({ t with sending := t.sending.filter fun s => s.start ≠ number },
      if failed then .rejected "send" else .resolved)
  else (t, .done)

/-- An `exit` message. -/
def exited (worker : Nat) (runId : RunId) : Tables :=
  match t.pool.exited worker runId with
  | none => t
  | some pool =>
    { t with
      pool := pool
      exits := t.exits ++ [t.handlers runId]
      sending := release (fun s => s.worker = worker ∧ s.runId = runId) t.sending }

/-- The exit of a worker process. -/
def lost (worker : Nat) : Tables :=
  { t with
    pool := (t.pool.lost worker).1
    exits := t.exits ++ (t.pool.lost worker).2.map t.handlers
    sending := release (fun s => s.worker = worker) t.sending }

/-- The tables, as the events come. -/
def tables : EventSystem Tables PoolEvent PoolReply where
  step t
    | .start runId => start options t runId
    | .sent number failed => sent t number failed
    | .stop runId => (t, .stopped (t.pool.stop runId))
    | .message _ none => (t, .done)
    | .message worker (some runId) => (exited t worker runId, .done)
    | .lost worker => (lost t worker, .done)
    | .shutdown => ({ t with pool := { t.pool with closing := true } }, .done)

end Steps

/-! ## What is asked -/

/-- The tables agree, no worker has more tasks than slots, there are no more workers than processes,
and no `onExit` was called twice. -/
structure Booked (options : PoolOptions) (t : Tables) : Prop where
  sound : t.pool.Sound
  slots : ∀ w ∈ t.pool.workers, w.tasks.length ≤ options.slotsPerProcess
  processes : t.pool.workers.length ≤ options.processCount
  exits : t.exits.Nodup

/-- The task of a start is in the tables. -/
def Tables.Held (t : Tables) (s : Sending) : Prop :=
  t.pool.taskOwners s.runId = some s.worker ∧ t.handlers s.runId = s.start

/-- A start that rejects leaves nothing of its own in the tables: one that is refused changes
nothing, and one whose send fails has no task. -/
def Restored (options : PoolOptions) (t : Tables) : PoolEvent → Prop
  | .start runId => ∀ message, ((tables options).reply t (.start runId)) = .rejected message →
    (tables options).next t (.start runId) = t
  | .sent number failed => failed = true → ∀ s ∈ t.sending, s.start = number →
    ¬((tables options).next t (.sent number failed)).Held s
  | _ => True

/-- No send fails before its worker has exited, or has reported the exit of the run. -/
def Released (t : Tables) : PoolEvent → Prop
  | .sent number failed => failed = true → ∀ s ∈ t.sending, s.start = number → s.released = true
  | _ => True

/-- What every run keeps. -/
structure Kept (options : PoolOptions) (t : Tables) : Prop extends Booked options t where
  exited_lt : ∀ n ∈ t.exits, n < t.starts
  handlers_lt : ∀ runId owner, t.pool.taskOwners runId = some owner → t.handlers runId < t.starts
  handlers_new : ∀ runId owner, t.pool.taskOwners runId = some owner → t.handlers runId ∉ t.exits
  handlers_inj : ∀ runId other owner owner', t.pool.taskOwners runId = some owner →
    t.pool.taskOwners other = some owner' → t.handlers runId = t.handlers other → runId = other
  sending_lt : ∀ s ∈ t.sending, s.start < t.starts
  held_iff : ∀ s ∈ t.sending, t.Held s ↔ s.released = false

section Invariant

variable {options : PoolOptions} {t : Tables} {runId : RunId}

theorem tables_empty : Kept options {} where
  sound := WorkerPool.sound_empty
  slots := nofun
  processes := Nat.zero_le _
  exits := List.nodup_nil
  exited_lt := nofun
  handlers_lt := nofun
  handlers_new := nofun
  handlers_inj := nofun
  sending_lt := nofun
  held_iff := nofun

/-! ## A run that starts -/

/-- The selected worker has a slot left, and the bounds hold of the pool it was selected in. -/
theorem selectWorker_room (hslots : 0 < options.slotsPerProcess) (h : Booked options t)
    {selected : WorkerPool} {worker : Worker}
    (hsel : t.pool.selectWorker options = some (selected, worker)) :
    worker.tasks.length < options.slotsPerProcess ∧
      (∀ w ∈ selected.workers, w.tasks.length ≤ options.slotsPerProcess) ∧
      selected.workers.length ≤ options.processCount := by
  unfold WorkerPool.selectWorker at hsel
  split at hsel
  · rename_i w hhead
    obtain ⟨rfl, rfl⟩ := Prod.mk.inj (Option.some.inj hsel)
    have hmem : w ∈ t.pool.available options := List.mem_of_mem_head? (Option.mem_def.mpr hhead)
    rw [WorkerPool.available, List.mem_insertionSort] at hmem
    exact ⟨of_decide_eq_true (List.mem_filter.mp hmem).2, h.slots, h.processes⟩
  · split at hsel
    · rename_i hroom
      obtain ⟨rfl, rfl⟩ := Prod.mk.inj (Option.some.inj hsel)
      refine ⟨hslots, fun w hw => ?_, ?_⟩
      · rcases List.mem_append.mp hw with hold | hnew
        · exact h.slots w hold
        · rw [List.mem_singleton.mp hnew]
          exact Nat.zero_le _
      · change (t.pool.workers ++ [_]).length ≤ options.processCount
        rw [List.length_append, List.length_singleton]
        exact hroom
    · cases hsel

/-- A job that was handed over leaves the bounds as they are. -/
theorem start_bounds (hslots : 0 < options.slotsPerProcess) (h : Booked options t)
    {started : WorkerPool} {worker : Worker}
    (hstart : t.pool.start options runId = .ok (started, worker)) :
    (∀ w ∈ started.workers, w.tasks.length ≤ options.slotsPerProcess) ∧
      started.workers.length ≤ options.processCount := by
  obtain ⟨-, selected, hsel, rfl⟩ := WorkerPool.start_spec hstart
  obtain ⟨hroom, hbounds, hprocesses⟩ := selectWorker_room hslots h hsel
  obtain ⟨hsound, hmem, -⟩ := WorkerPool.selectWorker_spec h.sound hsel
  constructor
  · intro w hw
    obtain ⟨v, hv, rfl⟩ := WorkerPool.mem_assign.mp hw
    split
    · rename_i hid
      rw [WorkerPool.eq_of_id hsound hv hmem hid, List.length_append, List.length_singleton]
      exact hroom
    · exact hbounds v hv
  · change (selected.workers.map _).length ≤ options.processCount
    rw [List.length_map]
    exact hprocesses

theorem kept_start (hslots : 0 < options.slotsPerProcess) (h : Kept options t) :
    Kept options (start options t runId).1 := by
  unfold start
  split
  · exact h
  · rename_i started worker hstart
    obtain ⟨hnew, -⟩ := WorkerPool.start_spec hstart
    obtain ⟨hslots', hprocesses⟩ := start_bounds hslots h.toBooked hstart
    have howners := WorkerPool.start_taskOwners h.sound hstart
    have hassigned : ∀ other owner, started.taskOwners other = some owner → other ≠ runId →
        t.pool.taskOwners other = some owner := by
      intro other owner hother hne
      rwa [howners, Function.update_of_ne hne] at hother
    constructor
    · exact ⟨WorkerPool.start_sound h.sound hstart, hslots', hprocesses, h.exits⟩
    · exact fun n hn => Nat.lt_succ_of_lt (h.exited_lt n hn)
    · intro other owner hother
      by_cases hne : other = runId
      · subst hne
        change Function.update t.handlers other t.starts other < t.starts + 1
        rw [Function.update_self]
        exact Nat.lt_succ_self _
      · change Function.update t.handlers runId t.starts other < t.starts + 1
        rw [Function.update_of_ne hne]
        exact Nat.lt_succ_of_lt (h.handlers_lt other owner (hassigned other owner hother hne))
    · intro other owner hother
      by_cases hne : other = runId
      · subst hne
        change Function.update t.handlers other t.starts other ∉ t.exits
        rw [Function.update_self]
        exact fun hmem => Nat.lt_irrefl _ (h.exited_lt _ hmem)
      · change Function.update t.handlers runId t.starts other ∉ t.exits
        rw [Function.update_of_ne hne]
        exact h.handlers_new other owner (hassigned other owner hother hne)
    · intro one other owner owner' hone hother hsame
      change Function.update t.handlers runId t.starts one =
        Function.update t.handlers runId t.starts other at hsame
      by_cases hne : one = runId
      · by_cases hne' : other = runId
        · rw [hne, hne']
        · have hlt := h.handlers_lt other owner' (hassigned other owner' hother hne')
          rw [hne, Function.update_self, Function.update_of_ne hne'] at hsame
          omega
      · have hlt := h.handlers_lt one owner (hassigned one owner hone hne)
        by_cases hne' : other = runId
        · rw [hne', Function.update_self, Function.update_of_ne hne] at hsame
          omega
        · rw [Function.update_of_ne hne, Function.update_of_ne hne'] at hsame
          exact h.handlers_inj one other owner owner' (hassigned one owner hone hne)
            (hassigned other owner' hother hne') hsame
    · intro s hs
      rcases List.mem_append.mp hs with hold | hlast
      · exact Nat.lt_succ_of_lt (h.sending_lt s hold)
      · rw [List.mem_singleton.mp hlast]
        exact Nat.lt_succ_self _
    · intro s hs
      unfold Tables.Held
      dsimp only
      rw [howners]
      rcases List.mem_append.mp hs with hold | hlast
      · by_cases hne : s.runId = runId
        · -- the tables had no task of the run, and the new one has other handlers
          rw [hne, Function.update_self, Function.update_self]
          have hlt := h.sending_lt s hold
          have hgone : ¬t.Held s := fun hheld => by
            rw [Tables.Held, hne, hnew] at hheld
            cases hheld.1
          exact iff_of_false (fun hheld => by omega) fun hnot => hgone ((h.held_iff s hold).mpr hnot)
        · rw [Function.update_of_ne hne, Function.update_of_ne hne]
          exact h.held_iff s hold
      · rw [List.mem_singleton.mp hlast]
        dsimp only
        rw [Function.update_self, Function.update_self]
        exact iff_of_true ⟨rfl, rfl⟩ rfl

/-! ## Runs that end -/

/-- Runs leave both tables together, and their handlers are told. -/
theorem kept_gone {pool : WorkerPool} {gone : List RunId} {told : Sending → Bool}
    (h : Kept options t) (hsound : pool.Sound)
    (hslots : ∀ w ∈ pool.workers, w.tasks.length ≤ options.slotsPerProcess)
    (hprocesses : pool.workers.length ≤ options.processCount) (hnodup : gone.Nodup)
    (hgone : ∀ runId ∈ gone, ∃ owner, t.pool.taskOwners runId = some owner)
    (howners : ∀ runId, pool.taskOwners runId =
      if runId ∈ gone then none else t.pool.taskOwners runId)
    (htold : ∀ s ∈ t.sending, t.Held s → (told s = true ↔ s.runId ∈ gone)) :
    Kept options { t with
      pool := pool
      exits := t.exits ++ gone.map t.handlers
      sending := release told t.sending } := by
  have hassigned : ∀ runId owner, pool.taskOwners runId = some owner →
      runId ∉ gone ∧ t.pool.taskOwners runId = some owner := by
    intro runId owner howner
    rw [howners] at howner
    split at howner
    · cases howner
    · rename_i hnot
      exact ⟨hnot, howner⟩
  constructor
  · refine ⟨hsound, hslots, hprocesses, List.nodup_append.mpr ⟨h.exits, ?_, ?_⟩⟩
    · refine List.Nodup.map_on (fun one hone other hother hsame => ?_) hnodup
      obtain ⟨owner, howner⟩ := hgone one hone
      obtain ⟨owner', howner'⟩ := hgone other hother
      exact h.handlers_inj one other owner owner' howner howner' hsame
    · rintro n hn _ hmem rfl
      obtain ⟨runId, hrun, rfl⟩ := List.mem_map.mp hmem
      obtain ⟨owner, howner⟩ := hgone runId hrun
      exact h.handlers_new runId owner howner hn
  · intro n hn
    rcases List.mem_append.mp hn with hold | hnew
    · exact h.exited_lt n hold
    · obtain ⟨runId, hrun, rfl⟩ := List.mem_map.mp hnew
      obtain ⟨owner, howner⟩ := hgone runId hrun
      exact h.handlers_lt runId owner howner
  · exact fun runId owner howner => h.handlers_lt runId owner (hassigned runId owner howner).2
  · intro runId owner howner hmem
    obtain ⟨hnot, hold⟩ := hassigned runId owner howner
    rcases List.mem_append.mp hmem with hexits | hnew
    · exact h.handlers_new runId owner hold hexits
    · obtain ⟨other, hother, hsame⟩ := List.mem_map.mp hnew
      obtain ⟨owner', howner'⟩ := hgone other hother
      exact hnot (h.handlers_inj other runId owner' owner howner' hold hsame ▸ hother)
  · exact fun one other owner owner' hone hother =>
      h.handlers_inj one other owner owner' (hassigned one owner hone).2
        (hassigned other owner' hother).2
  · intro s hs
    obtain ⟨old, hold, rfl⟩ := List.mem_map.mp hs
    exact h.sending_lt old hold
  · intro s hs
    obtain ⟨old, hold, rfl⟩ := List.mem_map.mp hs
    unfold Tables.Held
    dsimp only
    rw [howners, Bool.or_eq_false_iff, ← h.held_iff old hold]
    constructor
    · rintro ⟨howner, hhandlers⟩
      split at howner
      · cases howner
      · rename_i hnot
        refine ⟨⟨howner, hhandlers⟩, Bool.eq_false_iff.mpr fun hsome => hnot ?_⟩
        exact (htold old hold ⟨howner, hhandlers⟩).mp hsome
    · rintro ⟨hheld, hnone⟩
      rw [if_neg]
      · exact hheld
      · intro hmem
        rw [(htold old hold hheld).mpr hmem] at hnone
        cases hnone

theorem kept_exited {worker : Nat} (h : Kept options t) :
    Kept options (exited t worker runId) := by
  unfold exited
  split
  · exact h
  · rename_i pool hexit
    obtain ⟨⟨w, hw, hid, hrun⟩, hworkers, howners, -⟩ := WorkerPool.exited_spec hexit
    have howner : t.pool.taskOwners runId = some worker :=
      (h.sound.owner runId worker).mpr ⟨w, hw, hid, hrun⟩
    refine @kept_gone options t pool [runId] _ h (WorkerPool.exited_sound h.sound hexit) ?_ ?_
      (List.nodup_singleton _) ?_ ?_ ?_
    · intro v hv
      rw [hworkers] at hv
      obtain ⟨old, hold, rfl⟩ := List.mem_map.mp hv
      split
      · exact Nat.le_trans List.erase_sublist.length_le (h.slots old hold)
      · exact h.slots old hold
    · rw [hworkers, List.length_map]
      exact h.processes
    · intro other hother
      rw [List.mem_singleton.mp hother]
      exact ⟨worker, howner⟩
    · intro other
      rw [howners, Function.update_apply]
      simp only [List.mem_singleton]
    · intro s _ hheld
      rw [decide_eq_true_iff, List.mem_singleton]
      refine ⟨And.right, fun hsame => ⟨?_, hsame⟩⟩
      have hsender := hheld.1
      rw [hsame, howner] at hsender
      exact (Option.some.inj hsender).symm

/-- The tasks of a worker that is gone are those of different runs. -/
theorem lost_nodup (h : t.pool.Sound) (worker : Nat) : (t.pool.lost worker).2.Nodup := by
  refine List.nodup_flatMap.mpr ⟨fun w hw => h.tasks w (List.mem_filter.mp hw).1, ?_⟩
  have hids : (t.pool.workers.filter (·.id = worker)).Pairwise fun v w => v.id ≠ w.id :=
    (List.pairwise_map.mp h.ids).filter _
  refine hids.imp_of_mem fun {v w} hv hw hne => absurd ?_ hne
  rw [of_decide_eq_true (List.mem_filter.mp hv).2, of_decide_eq_true (List.mem_filter.mp hw).2]

theorem kept_lost {worker : Nat} (h : Kept options t) : Kept options (lost t worker) := by
  have howner : ∀ runId, runId ∈ (t.pool.lost worker).2 ↔
      t.pool.taskOwners runId = some worker := fun runId => by
    rw [WorkerPool.mem_lost, h.sound.owner]
  refine kept_gone h (WorkerPool.lost_sound h.sound worker) ?_ ?_ (lost_nodup h.sound worker) ?_
    (fun _ => rfl) ?_
  · exact fun w hw => h.slots w (List.mem_filter.mp hw).1
  · exact Nat.le_trans (List.length_filter_le _ _) h.processes
  · exact fun runId hrun => ⟨worker, (howner runId).mp hrun⟩
  · intro s _ hheld
    rw [decide_eq_true_iff, howner, hheld.1, Option.some.injEq]

/-! ## Every event -/

theorem kept_sent {number : Nat} {failed : Bool} (h : Kept options t) :
    Kept options (sent t number failed).1 := by
  unfold sent
  split
  · exact { h with
      sending_lt := fun s hs => h.sending_lt s (List.mem_filter.mp hs).1
      held_iff := fun s hs => h.held_iff s (List.mem_filter.mp hs).1 }
  · exact h

theorem kept_shutdown (h : Kept options t) :
    Kept options { t with pool := { t.pool with closing := true } } :=
  { h with sound := ⟨h.sound.ids, h.sound.issued, h.sound.tasks, h.sound.owner⟩ }

theorem kept_next (hslots : 0 < options.slotsPerProcess) (h : Kept options t) (event : PoolEvent) :
    Kept options ((tables options).next t event) := by
  cases event with
  | start runId => exact kept_start hslots h
  | sent number failed => exact kept_sent h
  | stop runId => exact h
  | message worker exit =>
    cases exit with
    | none => exact h
    | some runId => exact kept_exited h
  | lost worker => exact kept_lost h
  | shutdown => exact kept_shutdown h

theorem kept_run (hslots : 0 < options.slotsPerProcess) (events : List PoolEvent) :
    Kept options ((tables options).run {} events) :=
  EventSystem.run_inv_true tables_empty fun _ event h => kept_next hslots h event

/-- A start that rejects is restored if and only if its run was released before. -/
theorem restored_iff (h : Kept options t) (event : PoolEvent) :
    Restored options t event ↔ Released t event := by
  cases event with
  | start runId =>
    refine iff_of_true (fun message hreply => ?_) trivial
    change (start options t runId).2 = .rejected message at hreply
    change (start options t runId).1 = t
    unfold start at hreply ⊢
    split at hreply
    · rfl
    · cases hreply
  | sent number failed =>
    have hsame : ∀ s, ((tables options).next t (.sent number failed)).Held s ↔ t.Held s := by
      intro s
      change (sent t number failed).1.Held s ↔ t.Held s
      unfold sent
      split
      · exact Iff.rfl
      · exact Iff.rfl
    refine imp_congr_right fun _ => forall_congr' fun s => imp_congr_right fun hs =>
      imp_congr_right fun _ => ?_
    rw [hsame, h.held_iff s hs, Bool.not_eq_false]
  | stop runId => exact Iff.rfl
  | message worker exit => exact Iff.rfl
  | lost worker => exact Iff.rfl
  | shutdown => exact Iff.rfl

end Invariant

/-- **The tables of a run** are booked throughout; and every start that rejects restores them if and
only if no send fails before its run is released. -/
theorem pool_restored_iff (options : PoolOptions) (hslots : 0 < options.slotsPerProcess)
    (events : List PoolEvent) :
    (∀ past rest, events = past ++ rest → Booked options ((tables options).run {} past) ∧
      ∀ event ∈ rest.head?, Restored options ((tables options).run {} past) event) ↔
    (tables options).Along Released {} events := by
  constructor
  · intro h
    refine EventSystem.along_of_split fun past event rest hsplit => ?_
    exact (restored_iff (kept_run hslots past) event).mp ((h past _ hsplit).2 event rfl)
  · rintro h past rest rfl
    refine ⟨(kept_run hslots past).toBooked, fun event hevent => ?_⟩
    cases rest with
    | nil => cases hevent
    | cons first rest =>
      obtain rfl := Option.some.inj hevent
      exact (restored_iff (kept_run hslots past) first).mpr h.at

section Sample

/-- One start that is handed over, and one whose worker had exited before its send failed. -/
theorem pool_restored_iff_exited :
    (∀ past rest, [.start 1, .sent 0 false, .start 2, .lost 1, .sent 1 true] = past ++ rest →
      Booked ⟨1, 2⟩ ((tables ⟨1, 2⟩).run {} past) ∧
        ∀ event ∈ rest.head?, Restored ⟨1, 2⟩ ((tables ⟨1, 2⟩).run {} past) event) ↔
    (tables ⟨1, 2⟩).Along Released {} [.start 1, .sent 0 false, .start 2, .lost 1, .sent 1 true] :=
  pool_restored_iff ⟨1, 2⟩ (by decide) _

/-- The channel refuses the job, and the run stays with the worker. -/
theorem send_failure_kept : ¬∀ past rest, [.start 1, .sent 0 true] = past ++ rest →
    Booked ⟨1, 2⟩ ((tables ⟨1, 2⟩).run {} past) ∧
      ∀ event ∈ rest.head?, Restored ⟨1, 2⟩ ((tables ⟨1, 2⟩).run {} past) event := by
  intro h
  have hrestored := (h [.start 1] _ rfl).2 (.sent 0 true) rfl rfl
    { start := 0, runId := 1, worker := 1 }
  refine hrestored ?_ rfl ⟨?_, ?_⟩
  · decide
  · decide
  · decide

end Sample

end LinkSuffix.PoolTables
