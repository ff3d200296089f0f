import Mathlib.Data.List.Sort
import Mathlib.Logic.Function.Basic

/-!
# The shared worker pool

`createOrchestratorWorkerPool`: worker processes with a table of tasks each, and `taskOwners`, which
names the worker of a run. `start` picks a worker with a free slot, or forks one, and enters the run
in both tables before it hands the job over; a task leaves both when the worker reports its exit, or
when the worker is gone.

* `WorkerPool.Sound`: both tables say the same, and every owner is a worker that is alive.
* `start_sound`, `exited_sound`, `lost_sound`: every operation keeps it.
* **`stop_of_has`**: a run that has a worker can be told to stop.
-/

namespace LinkSuffix

/-- A run, by the number `++sequence` gave it. -/
abbrev RunId := Nat

/-- The two settings of the pool. -/
structure PoolOptions where
  processCount : Nat
  slotsPerProcess : Nat
  deriving DecidableEq

/-- `capacity()`. -/
def PoolOptions.capacity (options : PoolOptions) : Nat :=
  options.processCount * options.slotsPerProcess

/-- A worker process that has not exited, and its tasks. -/
structure Worker where
  id : Nat
  tasks : List RunId := []
  deriving DecidableEq

/-- The pool. -/
structure WorkerPool where
  workers : List Worker := []
  taskOwners : RunId → Option Nat := fun _ => none
  workerSequence : Nat := 0
  closing : Bool := false

namespace WorkerPool

variable (options : PoolOptions) (pool : WorkerPool)

/-- `has(runId)`. -/
def has (runId : RunId) : Bool := (pool.taskOwners runId).isSome

/-- `spawnWorker()`. -/
def spawnWorker : WorkerPool × Worker :=
  let worker : Worker := { id := pool.workerSequence + 1 }
  ({ pool with
    workers := pool.workers ++ [worker]
    workerSequence := pool.workerSequence + 1 }, worker)

/-- The workers with a free slot, the ones with the fewest tasks first. -/
def available : List Worker :=
  (pool.workers.filter (·.tasks.length < options.slotsPerProcess)).insertionSort
    fun a b => a.tasks.length ≤ b.tasks.length

/-- `selectWorker()`. -/
def selectWorker : Option (WorkerPool × Worker) :=
  match (pool.available options).head? with
  | some worker => some (pool, worker)
  | none =>
    if pool.workers.length < options.processCount then some pool.spawnWorker else none

/-- `worker.tasks.set(runId, …)` and `taskOwners.set(runId, worker.id)`. -/
def assign (runId : RunId) (worker : Worker) : WorkerPool :=
  { pool with
    workers := pool.workers.map fun w =>
      if w.id = worker.id then { w with tasks := w.tasks ++ [runId] } else w
    taskOwners := Function.update pool.taskOwners runId (some worker.id) }

/-- `start(job)` up to the await of the channel: the worker the job is handed to. -/
def start (runId : RunId) : Except String (WorkerPool × Worker) :=
  if pool.closing then .error "Shared orchestrator pool is shutting down"
  else if pool.has runId then
    .error "Campaign task is already assigned to a shared worker"
  else
    match pool.selectWorker options with
    | none => .error s!"Shared orchestrator capacity reached ({options.capacity} tasks)"
    | some (selected, worker) => .ok (selected.assign runId worker, worker)

/-- `stop(runId)`: the stop message went out. -/
def stop (runId : RunId) : Bool :=
  match pool.taskOwners runId with
  | none => false
  | some owner => pool.workers.any (·.id = owner)

/-- An `exit` message of a worker about a run, when the worker has the task. -/
def exited (owner : Nat) (runId : RunId) : Option WorkerPool :=
  if pool.workers.any fun w => w.id = owner ∧ runId ∈ w.tasks then
    some { pool with
      workers := pool.workers.map fun w =>
        if w.id = owner then { w with tasks := w.tasks.erase runId } else w
      taskOwners := Function.update pool.taskOwners runId none }
  else none

/-- The exit of a worker process: the pool without it, and the tasks it had. -/
def lost (owner : Nat) : WorkerPool × List RunId :=
  let tasks := (pool.workers.filter (·.id = owner)).flatMap (·.tasks)
  ({ pool with
    workers := pool.workers.filter (·.id ≠ owner)
    taskOwners := fun runId => if runId ∈ tasks then none else pool.taskOwners runId }, tasks)

/-! ## The two tables -/

/-- `taskOwners` names exactly the worker whose table has the run. -/
structure Sound : Prop where
  ids : (pool.workers.map (·.id)).Nodup
  issued : ∀ w ∈ pool.workers, w.id ≤ pool.workerSequence
  tasks : ∀ w ∈ pool.workers, w.tasks.Nodup
  owner : ∀ runId owner, pool.taskOwners runId = some owner ↔
    ∃ w ∈ pool.workers, w.id = owner ∧ runId ∈ w.tasks

theorem sound_empty : Sound {} := by
  constructor
  · exact List.nodup_nil
  · simp
  · simp
  · simp

variable {options pool}
variable {runId : RunId}

theorem eq_of_id (h : pool.Sound) {v w : Worker} (hv : v ∈ pool.workers) (hw : w ∈ pool.workers)
    (hid : v.id = w.id) : v = w :=
  List.inj_on_of_nodup_map h.ids hv hw hid

theorem spawnWorker_sound (h : pool.Sound) : pool.spawnWorker.1.Sound := by
  have hfresh : ∀ w ∈ pool.workers, w.id ≠ pool.workerSequence + 1 := fun w hw => by
    have := h.issued w hw
    omega
  constructor
  · show ((pool.workers ++ [_]).map Worker.id).Nodup
    rw [List.map_append, List.nodup_append]
    refine ⟨h.ids, List.nodup_singleton _, fun a ha b hb => ?_⟩
    obtain ⟨w, hw, rfl⟩ := List.mem_map.mp ha
    rw [List.mem_singleton.mp hb]
    exact hfresh w hw
  · intro w hw
    rcases List.mem_append.mp hw with hw | hw
    · exact Nat.le_succ_of_le (h.issued w hw)
    · rw [List.mem_singleton.mp hw]
      exact Nat.le_refl _
  · intro w hw
    rcases List.mem_append.mp hw with hw | hw
    · exact h.tasks w hw
    · rw [List.mem_singleton.mp hw]
      exact List.nodup_nil
  · intro runId owner
    refine (h.owner runId owner).trans ⟨fun ⟨w, hw, hrest⟩ => ?_, fun ⟨w, hw, hid, hmem⟩ => ?_⟩
    · exact ⟨w, List.mem_append_left _ hw, hrest⟩
    · rcases List.mem_append.mp hw with hw | hw
      · exact ⟨w, hw, hid, hmem⟩
      · rw [List.mem_singleton.mp hw] at hmem
        exact absurd hmem List.not_mem_nil

/-- The selected worker is one of the pool's. -/
theorem selectWorker_spec (h : pool.Sound) {selected : WorkerPool} {worker : Worker}
    (hsel : pool.selectWorker options = some (selected, worker)) :
    selected.Sound ∧ worker ∈ selected.workers ∧ selected.taskOwners = pool.taskOwners := by
  unfold selectWorker at hsel
  split at hsel
  · rename_i w hhead
    obtain ⟨rfl, rfl⟩ := Prod.mk.inj (Option.some.inj hsel)
    have hmem : w ∈ pool.available options := List.mem_of_mem_head? (Option.mem_def.mpr hhead)
    rw [available, List.mem_insertionSort] at hmem
    exact ⟨h, (List.mem_filter.mp hmem).1, rfl⟩
  · split at hsel
    · obtain ⟨rfl, rfl⟩ := Prod.mk.inj (Option.some.inj hsel)
      exact ⟨spawnWorker_sound h, List.mem_append_right _ (List.mem_singleton.mpr rfl), rfl⟩
    · exact absurd hsel (by simp)

theorem mem_assign {w : Worker} {worker : Worker} : w ∈ (pool.assign runId worker).workers ↔
    ∃ v ∈ pool.workers, w = if v.id = worker.id then { v with tasks := v.tasks ++ [runId] } else v := by
  simp only [assign, List.mem_map, eq_comm]

theorem assign_sound (h : pool.Sound) {worker : Worker} (hw : worker ∈ pool.workers)
    (hnew : pool.taskOwners runId = none) : (pool.assign runId worker).Sound := by
  have hfree : ∀ w ∈ pool.workers, runId ∉ w.tasks := fun w hw hmem => by
    have := (h.owner runId w.id).mpr ⟨w, hw, rfl, hmem⟩
    rw [hnew] at this
    exact absurd this (by simp)
  constructor
  · have hids : (pool.assign runId worker).workers.map (·.id) = pool.workers.map (·.id) := by
      simp only [assign, List.map_map]
      refine List.map_congr_left fun v _ => ?_
      simp only [Function.comp_apply]
      split
      · rfl
      · rfl
    rw [hids]
    exact h.ids
  · intro w hmem
    obtain ⟨v, hv, rfl⟩ := mem_assign.mp hmem
    split
    · exact h.issued v hv
    · exact h.issued v hv
  · intro w hmem
    obtain ⟨v, hv, rfl⟩ := mem_assign.mp hmem
    split
    · refine List.nodup_append.mpr ⟨h.tasks v hv, List.nodup_singleton _, fun a ha b hb => ?_⟩
      rw [List.mem_singleton.mp hb]
      exact fun heq => hfree v hv (heq ▸ ha)
    · exact h.tasks v hv
  · intro r owner
    by_cases hr : r = runId
    · subst hr
      show Function.update pool.taskOwners r (some worker.id) r = some owner ↔ _
      rw [Function.update_self]
      constructor
      · intro howner
        have hid : worker.id = owner := Option.some.inj howner
        refine ⟨_, mem_assign.mpr ⟨worker, hw, rfl⟩, ?_, ?_⟩
        · simp [hid]
        · simp
      · rintro ⟨w, hmem, hid, hrun⟩
        obtain ⟨v, hv, rfl⟩ := mem_assign.mp hmem
        split at hid
        · rename_i hvw
          rw [← hid, hvw]
        · rename_i hvw
          rw [if_neg hvw] at hrun
          exact absurd hrun (hfree v hv)
    · show Function.update pool.taskOwners runId (some worker.id) r = some owner ↔ _
      rw [Function.update_of_ne hr, h.owner]
      constructor
      · rintro ⟨v, hv, hid, hrun⟩
        refine ⟨_, mem_assign.mpr ⟨v, hv, rfl⟩, ?_, ?_⟩
        · split
          · exact hid
          · exact hid
        · split
          · exact List.mem_append_left _ hrun
          · exact hrun
      · rintro ⟨w, hmem, hid, hrun⟩
        obtain ⟨v, hv, rfl⟩ := mem_assign.mp hmem
        split at hid
        · rename_i hvw
          rw [if_pos hvw] at hrun
          have hold : r ∈ v.tasks := by
            rcases List.mem_append.mp hrun with hrun | hrun
            · exact hrun
            · exact absurd (List.mem_singleton.mp hrun) hr
          exact ⟨v, hv, hid, hold⟩
        · rename_i hvw
          rw [if_neg hvw] at hrun
          exact ⟨v, hv, hid, hrun⟩

/-- What a job that was handed over leaves. -/
theorem start_spec {started : WorkerPool} {worker : Worker}
    (hstart : pool.start options runId = .ok (started, worker)) :
    pool.taskOwners runId = none ∧ ∃ selected, pool.selectWorker options = some (selected, worker) ∧
      started = selected.assign runId worker := by
  unfold start at hstart
  split at hstart
  · cases hstart
  · split at hstart
    · cases hstart
    · rename_i hhas
      split at hstart
      · cases hstart
      · rename_i selected w hsel
        obtain ⟨rfl, rfl⟩ := Prod.mk.inj (Except.ok.inj hstart)
        refine ⟨?_, selected, hsel, rfl⟩
        simpa [has] using hhas

theorem start_sound (h : pool.Sound) {started : WorkerPool} {worker : Worker}
    (hstart : pool.start options runId = .ok (started, worker)) : started.Sound := by
  obtain ⟨hnew, selected, hsel, rfl⟩ := start_spec hstart
  obtain ⟨hsound, hmem, howners⟩ := selectWorker_spec h hsel
  exact assign_sound hsound hmem (howners ▸ hnew)

theorem start_taskOwners (h : pool.Sound) {started : WorkerPool} {worker : Worker}
    (hstart : pool.start options runId = .ok (started, worker)) :
    started.taskOwners = Function.update pool.taskOwners runId (some worker.id) := by
  obtain ⟨-, selected, hsel, rfl⟩ := start_spec hstart
  obtain ⟨-, -, howners⟩ := selectWorker_spec h hsel
  show Function.update selected.taskOwners runId (some worker.id) = _
  rw [howners]

theorem exited_spec {owner : Nat} {left : WorkerPool} (hexit : pool.exited owner runId = some left) :
    (∃ w ∈ pool.workers, w.id = owner ∧ runId ∈ w.tasks) ∧
      left.workers = pool.workers.map (fun w =>
        if w.id = owner then { w with tasks := w.tasks.erase runId } else w) ∧
      left.taskOwners = Function.update pool.taskOwners runId none ∧
      left.workerSequence = pool.workerSequence := by
  unfold exited at hexit
  split at hexit
  · rename_i hany
    obtain rfl := Option.some.inj hexit
    simp only [List.any_eq_true, decide_eq_true_eq] at hany
    exact ⟨hany, rfl, rfl, rfl⟩
  · cases hexit

theorem exited_sound (h : pool.Sound) {owner : Nat} {left : WorkerPool}
    (hexit : pool.exited owner runId = some left) : left.Sound := by
  obtain ⟨⟨u, hu, huid, hurun⟩, hworkers, howners, hseq⟩ := exited_spec hexit
  have hmem : ∀ {w : Worker}, w ∈ left.workers ↔ ∃ v ∈ pool.workers,
      w = if v.id = owner then { v with tasks := v.tasks.erase runId } else v := by
    intro w
    rw [hworkers, List.mem_map]
    simp only [eq_comm]
  constructor
  · have hids : left.workers.map (·.id) = pool.workers.map (·.id) := by
      rw [hworkers, List.map_map]
      refine List.map_congr_left fun v _ => ?_
      simp only [Function.comp_apply]
      split
      · rfl
      · rfl
    rw [hids]
    exact h.ids
  · intro w hw
    obtain ⟨v, hv, rfl⟩ := hmem.mp hw
    rw [hseq]
    split
    · exact h.issued v hv
    · exact h.issued v hv
  · intro w hw
    obtain ⟨v, hv, rfl⟩ := hmem.mp hw
    split
    · exact (h.tasks v hv).erase _
    · exact h.tasks v hv
  · intro r o
    rw [howners]
    by_cases hr : r = runId
    · subst hr
      rw [Function.update_self]
      constructor
      · intro hnone
        exact absurd hnone (by simp)
      · rintro ⟨w, hw, hid, hrun⟩
        obtain ⟨v, hv, rfl⟩ := hmem.mp hw
        split at hrun
        · exact absurd hrun (fun hin => (h.tasks v hv).not_mem_erase hin)
        · rename_i hvo
          -- the run is in two tables, so they are one
          have hone : pool.taskOwners r = some v.id := (h.owner r v.id).mpr ⟨v, hv, rfl, hrun⟩
          have htwo : pool.taskOwners r = some u.id := (h.owner r u.id).mpr ⟨u, hu, rfl, hurun⟩
          rw [htwo] at hone
          exact absurd ((Option.some.inj hone).symm.trans huid) hvo
    · rw [Function.update_of_ne hr, h.owner]
      constructor
      · rintro ⟨v, hv, hid, hrun⟩
        refine ⟨_, hmem.mpr ⟨v, hv, rfl⟩, ?_, ?_⟩
        · split
          · exact hid
          · exact hid
        · split
          · exact (List.mem_erase_of_ne hr).mpr hrun
          · exact hrun
      · rintro ⟨w, hw, hid, hrun⟩
        obtain ⟨v, hv, rfl⟩ := hmem.mp hw
        split at hid
        · rename_i hvo
          rw [if_pos hvo] at hrun
          exact ⟨v, hv, hid, List.mem_of_mem_erase hrun⟩
        · rename_i hvo
          rw [if_neg hvo] at hrun
          exact ⟨v, hv, hid, hrun⟩

theorem mem_lost {owner : Nat} : runId ∈ (pool.lost owner).2 ↔
    ∃ w ∈ pool.workers, w.id = owner ∧ runId ∈ w.tasks := by
  simp only [lost, List.mem_flatMap, List.mem_filter, decide_eq_true_eq, and_assoc]

theorem lost_sound (h : pool.Sound) (owner : Nat) : (pool.lost owner).1.Sound := by
  constructor
  · exact (List.Sublist.map _ List.filter_sublist).nodup h.ids
  · intro w hw
    exact h.issued w (List.mem_filter.mp hw).1
  · intro w hw
    exact h.tasks w (List.mem_filter.mp hw).1
  · intro r o
    show (if r ∈ (pool.lost owner).2 then none else pool.taskOwners r) = some o ↔
      ∃ w ∈ pool.workers.filter (·.id ≠ owner), w.id = o ∧ r ∈ w.tasks
    by_cases hr : r ∈ (pool.lost owner).2
    · rw [if_pos hr]
      obtain ⟨u, hu, huid, hurun⟩ := mem_lost.mp hr
      constructor
      · intro hnone
        exact absurd hnone (by simp)
      · rintro ⟨w, hw, hid, hrun⟩
        obtain ⟨hw, hne⟩ := List.mem_filter.mp hw
        have hone : pool.taskOwners r = some w.id := (h.owner r w.id).mpr ⟨w, hw, rfl, hrun⟩
        have htwo : pool.taskOwners r = some u.id := (h.owner r u.id).mpr ⟨u, hu, rfl, hurun⟩
        rw [htwo] at hone
        have heq : w.id = owner := (Option.some.inj hone).symm.trans huid
        simp [heq] at hne
    · rw [if_neg hr, h.owner]
      constructor
      · rintro ⟨w, hw, hid, hrun⟩
        have hne : w.id ≠ owner := fun heq => hr (mem_lost.mpr ⟨w, hw, heq, hrun⟩)
        exact ⟨w, List.mem_filter.mpr ⟨hw, by simpa using hne⟩, hid, hrun⟩
      · rintro ⟨w, hw, hid, hrun⟩
        exact ⟨w, (List.mem_filter.mp hw).1, hid, hrun⟩

/-- **A run that has a worker can be told to stop**: its owner is alive. -/
theorem stop_of_has (h : pool.Sound) (hhas : pool.has runId = true) : pool.stop runId = true := by
  unfold has at hhas
  obtain ⟨owner, howner⟩ := Option.isSome_iff_exists.mp hhas
  obtain ⟨w, hw, hid, -⟩ := (h.owner runId owner).mp howner
  unfold stop
  rw [howner]
  exact List.any_eq_true.mpr ⟨w, hw, by simpa using hid⟩

end WorkerPool

end LinkSuffix
