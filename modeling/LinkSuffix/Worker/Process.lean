import LinkSuffix.Control.WorkerPool
import LinkSuffix.Lib.Run
import Mathlib.Data.List.Perm.Subperm

/-!
# The pool and its worker processes

Control's pool and a worker process each keep a table of tasks, and talk over two FIFO channels. The
pool frees the slot of a run when it handles the `exit` message; the worker sends that message first
and frees its own slot only after it has released the proxy leases of the run.

* `sharedPool`: the pool, its processes and the messages between them.
* `Accounted`: every run that is on its way to a process, running there, or on its way back holds a
  slot of the pool.
* **`starts_accepted_iff`**: the processes refuse no start exactly when no start arrives at a full
  process that is still releasing leases.
* **`start_refused`**: a start that arrives while the only other task releases its leases.
-/

namespace LinkSuffix

open Lib

/-! ## A worker process -/

/-- A task of a process; it is `closing` from the `exit` message until its leases are released. -/
structure WorkerTask where
  runId : RunId
  aborted : Bool := false
  closing : Bool := false
  deriving DecidableEq

/-- `WorkerMessage`, from the pool. -/
inductive PoolMessage where
  | start (runId : RunId)
  | stop (runId : RunId)
  | shutdown
  deriving DecidableEq

/-- What a process sends that bears on its tasks. -/
inductive WorkerReport where
  | started (runId : RunId)
  | exit (runId : RunId) (code : Nat) (error : Option String)
  | poolStats (activeTasks : Nat)
  deriving DecidableEq

/-- How `runScenario` failed, beside the lease failure that aborted it. -/
structure ScenarioFailure where
  message : String
  abortError : Bool
  proxyLeaseFailure : Option String
  deriving DecidableEq

/-- `maxTasks`, from `TAH_SHARED_WORKER_SLOTS`. -/
def PoolOptions.maxTasks (options : PoolOptions) : Nat := min 5000 (max 1 options.slotsPerProcess)

/-- The tasks of a process, and the two channels. -/
structure WorkerProcess where
  tasks : List WorkerTask := []
  inbox : List PoolMessage := []
  outbox : List WorkerReport := []
  deriving DecidableEq

namespace WorkerProcess

/-- `tasks.has(runId)`. -/
def has (process : WorkerProcess) (runId : RunId) : Bool := process.tasks.any (·.runId = runId)

/-- `send(message)`. -/
def send (process : WorkerProcess) (report : WorkerReport) : WorkerProcess :=
  { process with outbox := process.outbox ++ [report] }

/-- `start(job)`. -/
def start (options : PoolOptions) (process : WorkerProcess) (runId : RunId) : WorkerProcess :=
  if process.has runId then process
  else if options.maxTasks ≤ process.tasks.length then
    process.send (.exit runId 75 (some s!"Shared worker task ceiling ({options.maxTasks}) reached"))
  else
    let tasks := process.tasks ++ [{ runId := runId }]
    send { process with tasks := tasks } (.started runId)

/-- `controller.abort()` of the tasks that `p` selects. -/
def abort (process : WorkerProcess) (p : RunId → Bool) : WorkerProcess :=
  { process with
    tasks := process.tasks.map fun task =>
      if p task.runId then { task with aborted := true } else task }

/-- `process.on('message')`. -/
def handle (options : PoolOptions) (process : WorkerProcess) : PoolMessage → WorkerProcess
  | .start runId => process.start options runId
  | .stop runId => process.abort (· = runId)
  | .shutdown => process.abort fun _ => true

/-- The next message of the channel from the pool. -/
def deliver (options : PoolOptions) (process : WorkerProcess) : WorkerProcess :=
  match process.inbox with
  | [] => process
  | message :: inbox => handle options { process with inbox := inbox } message

/-- The `exit` message of a task. -/
def exitReport (task : WorkerTask) : Option ScenarioFailure → WorkerReport
  | none => .exit task.runId 0 none
  | some failure =>
    if failure.proxyLeaseFailure = none ∧ (task.aborted ∨ failure.abortError) then
      .exit task.runId 143 none
    else .exit task.runId 99 (some (failure.proxyLeaseFailure.getD failure.message))

/-- The task of the run while it runs. -/
def running (process : WorkerProcess) (runId : RunId) : Option WorkerTask :=
  process.tasks.find? fun task => task.runId = runId && !task.closing

/-- `runScenario` is over: the `exit` message goes out, and the leases are being released. -/
def settle (process : WorkerProcess) (runId : RunId) (failure : Option ScenarioFailure) :
    WorkerProcess :=
  match process.running runId with
  | none => process
  | some task =>
    let tasks := process.tasks.map fun task =>
      if task.runId = runId then { task with closing := true } else task
    send { process with tasks := tasks } (exitReport task failure)

/-- The leases of the run are released: `tasks.delete(runId)`. -/
def close (process : WorkerProcess) (runId : RunId) : WorkerProcess :=
  if process.tasks.any fun task => task.runId = runId ∧ task.closing then
    let tasks := process.tasks.filter (·.runId ≠ runId)
    send { process with tasks := tasks } (.poolStats tasks.length)
  else process

/-- `statsTimer`. -/
def report (process : WorkerProcess) : WorkerProcess :=
  process.send (.poolStats process.tasks.length)

end WorkerProcess

/-! ## The pool and the processes -/

/-- The pool, and the processes by the ids of its workers. -/
structure SharedPool where
  pool : WorkerPool
  processes : Nat → WorkerProcess

/-- What happens: a call of the pool, a message handled at either end, or a step of a task. -/
inductive PoolEvent where
  | start (runId : RunId)
  | stop (runId : RunId)
  | shutdown
  | deliver (id : Nat)
  | settle (id : Nat) (runId : RunId) (failure : Option ScenarioFailure)
  | close (id : Nat) (runId : RunId)
  | report (id : Nat)
  | receive (id : Nat)
  | lost (id : Nat)

namespace SharedPool

/-- The pool with no worker. -/
def fresh : SharedPool where
  pool := {}
  processes := fun _ => {}

/-- One process changed. -/
def onProcess (s : SharedPool) (id : Nat) (f : WorkerProcess → WorkerProcess) : SharedPool :=
  { s with processes := Function.update s.processes id (f (s.processes id)) }

/-- `worker.child.send(message)`. -/
def post (s : SharedPool) (id : Nat) (message : PoolMessage) : SharedPool :=
  s.onProcess id fun process => { process with inbox := process.inbox ++ [message] }

/-- `start(job)` of the pool. -/
def start (options : PoolOptions) (s : SharedPool) (runId : RunId) : SharedPool :=
  match s.pool.start options runId with
  | .error _ => s
  | .ok (pool, worker) => post { s with pool := pool } worker.id (.start runId)

/-- `stop(runId)` of the pool. -/
def stop (s : SharedPool) (runId : RunId) : SharedPool :=
  match s.pool.taskOwners runId with
  | none => s
  | some owner =>
    if s.pool.workers.any (·.id = owner) then s.post owner (.stop runId) else s

/-- `shutdown()` of the pool, up to its timeout. -/
def shutdown (s : SharedPool) : SharedPool where
  pool := { s.pool with closing := true }
  processes id :=
    if s.pool.workers.any (·.id = id) then
      { s.processes id with inbox := (s.processes id).inbox ++ [.shutdown] }
    else s.processes id

/-- The pool's handler of a message of a worker. -/
def handle (s : SharedPool) (id : Nat) : WorkerReport → SharedPool
  | .exit runId _ _ => { s with pool := (s.pool.exited id runId).getD s.pool }
  | .started _ => s
  | .poolStats _ => s

/-- The next message of the channel from a process. -/
def receive (s : SharedPool) (id : Nat) : SharedPool :=
  match (s.processes id).outbox with
  | [] => s
  | report :: outbox =>
    (s.onProcess id fun process => { process with outbox := outbox }).handle id report

/-- A process is gone, with the messages on its channels. -/
def lost (s : SharedPool) (id : Nat) : SharedPool where
  pool := (s.pool.lost id).1
  processes := Function.update s.processes id {}

def step (options : PoolOptions) (s : SharedPool) : PoolEvent → SharedPool
  | .start runId => s.start options runId
  | .stop runId => s.stop runId
  | .shutdown => s.shutdown
  | .deliver id => s.onProcess id (·.deliver options)
  | .settle id runId failure => s.onProcess id (·.settle runId failure)
  | .close id runId => s.onProcess id (·.close runId)
  | .report id => s.onProcess id (·.report)
  | .receive id => s.receive id
  | .lost id => s.lost id

end SharedPool

/-- The pool and its processes. -/
def sharedPool (options : PoolOptions) : EventSystem SharedPool PoolEvent Unit where
  step s e := (s.step options e, ())

/-- The event does not make a process refuse a start at its task ceiling. -/
def Accepts (options : PoolOptions) (s : SharedPool) : PoolEvent → Prop
  | .deliver id => ∀ runId, (s.processes id).inbox.head? = some (.start runId) →
      ∀ error, ((s.processes id).deliver options).outbox ≠
        (s.processes id).outbox ++ [.exit runId 75 error]
  | _ => True

/-- A start that arrives at a full process finds the run there already, or no task that is still
releasing its leases. -/
def Released (options : PoolOptions) (s : SharedPool) : PoolEvent → Prop
  | .deliver id => ∀ runId, (s.processes id).inbox.head? = some (.start runId) →
      options.slotsPerProcess ≤ (s.processes id).tasks.length →
      (s.processes id).has runId = true ∨ ∀ task ∈ (s.processes id).tasks, task.closing = false
  | _ => True

/-! ## What a process has on its way -/

/-- The run that a message starts. -/
def PoolMessage.starts : PoolMessage → Option RunId
  | .start runId => some runId
  | _ => none

/-- The run that a message reports the exit of. -/
def WorkerReport.exits : WorkerReport → Option RunId
  | .exit runId _ _ => some runId
  | _ => none

namespace WorkerProcess

variable {options : PoolOptions} {process : WorkerProcess} {runId : RunId}

/-- The runs whose task runs. -/
def runningIds (tasks : List WorkerTask) : List RunId :=
  (tasks.filter (!·.closing)).map (·.runId)

/-- The runs on their way to the process, running there, or on their way back. -/
def pending (process : WorkerProcess) : List RunId :=
  process.inbox.filterMap PoolMessage.starts ++ runningIds process.tasks ++
    process.outbox.filterMap WorkerReport.exits

/-- A process within its ceiling, whose runs are on their way once. -/
structure Sound (options : PoolOptions) (process : WorkerProcess) : Prop where
  tasks : (process.tasks.map (·.runId)).Nodup
  ceiling : process.tasks.length ≤ options.maxTasks
  pending : process.pending.Nodup

theorem sound_empty : Sound options {} where
  tasks := List.nodup_nil
  ceiling := Nat.zero_le _
  pending := List.nodup_nil

/-- `process'` has nothing on its way that `process` had not. -/
def Within (process' process : WorkerProcess) : Prop :=
  ∀ runId, process'.pending.count runId ≤ process.pending.count runId

theorem Within.mem {process' : WorkerProcess} (h : Within process' process)
    (hmem : runId ∈ process'.pending) : runId ∈ process.pending := by
  have hpos : 0 < process'.pending.count runId := List.count_pos_iff.mpr hmem
  exact List.count_pos_iff.mp (Nat.lt_of_lt_of_le hpos (h runId))

theorem Within.nodup {process' : WorkerProcess} (h : Within process' process)
    (hnodup : process.pending.Nodup) : process'.pending.Nodup := by
  rw [List.nodup_iff_count_le_one] at hnodup ⊢
  exact fun runId => (h runId).trans (hnodup runId)

theorem runningIds_map {f : WorkerTask → WorkerTask} (hid : ∀ task, (f task).runId = task.runId)
    (hclosing : ∀ task, (f task).closing = task.closing) (tasks : List WorkerTask) :
    runningIds (tasks.map f) = runningIds tasks := by
  unfold runningIds
  rw [List.filter_map, List.map_map]
  have hfilter : (fun task : WorkerTask => !task.closing) ∘ f = fun task => !task.closing := by
    funext task
    simp [hclosing]
  rw [hfilter]
  exact List.map_congr_left fun task _ => hid task

/-- The tasks of one run leave the running ones. -/
theorem count_runningIds_closing (runId other : RunId) (tasks : List WorkerTask) :
    (runningIds (tasks.map fun task =>
        if task.runId = runId then { task with closing := true } else task)).count other =
      if other = runId then 0 else (runningIds tasks).count other := by
  unfold runningIds
  induction tasks with
  | nil => simp
  | cons task tasks ih =>
    rw [List.map_cons]
    by_cases hrun : task.runId = runId
    · by_cases hother : other = runId
      · simpa [hrun, hother] using ih
      · cases hclosing : task.closing with
        | true => simpa [hrun, hother, hclosing] using ih
        | false => simpa [hrun, hother, hclosing, Ne.symm hother] using ih
    · cases hclosing : task.closing with
      | true => simpa [hrun, hclosing] using ih
      | false =>
        by_cases hother : other = runId
        · have hne : ¬task.runId = other := fun h => hrun (h.trans hother)
          simpa [hrun, hclosing, hother, hne, List.count_cons] using ih
        · simp only [hrun, if_false, hclosing, Bool.not_false, List.filter_cons_of_pos,
            List.map_cons, List.count_cons, if_neg hother] at ih ⊢
          rw [ih]

theorem abort_spec (h : process.Sound options) (p : RunId → Bool) :
    (process.abort p).Sound options ∧ Within (process.abort p) process := by
  have hmap : ∀ task : WorkerTask,
      (if p task.runId then { task with aborted := true } else task).runId = task.runId := by
    intro task
    split <;> rfl
  have hclosing : ∀ task : WorkerTask,
      (if p task.runId then { task with aborted := true } else task).closing = task.closing := by
    intro task
    split <;> rfl
  have hpending : (process.abort p).pending = process.pending := by
    show _ ++ runningIds (process.tasks.map _) ++ _ = _
    rw [runningIds_map hmap hclosing]
    rfl
  have hwithin : Within (process.abort p) process := fun runId => by rw [hpending]
  refine ⟨⟨?_, ?_, hwithin.nodup h.pending⟩, hwithin⟩
  · show ((process.tasks.map _).map _).Nodup
    rw [List.map_map]
    have hids : (·.runId) ∘ (fun task : WorkerTask =>
        if p task.runId then { task with aborted := true } else task) = (·.runId) :=
      funext hmap
    rw [hids]
    exact h.tasks
  · simpa [abort] using h.ceiling

/-- The process without the first message of its inbox. -/
theorem rest_spec {message : PoolMessage} {inbox : List PoolMessage}
    (h : process.Sound options) (hinbox : process.inbox = message :: inbox) :
    Sound options { process with inbox := inbox } ∧
      Within { process with inbox := inbox } process := by
  have hwithin : Within { process with inbox := inbox } process := by
    intro runId
    simp only [pending, hinbox, List.count_append, List.filterMap_cons]
    cases message.starts with
    | none => simp
    | some started =>
      simp only [List.count_cons]
      omega
  exact ⟨⟨h.tasks, h.ceiling, hwithin.nodup h.pending⟩, hwithin⟩

/-- A start that is handled: the run is on its way back, or running, or was dropped. -/
theorem start_spec {inbox : List PoolMessage} (h : process.Sound options)
    (hinbox : process.inbox = .start runId :: inbox) :
    (WorkerProcess.start options { process with inbox := inbox } runId).Sound options ∧
      Within (WorkerProcess.start options { process with inbox := inbox } runId) process := by
  obtain ⟨hrest, hwithin⟩ := rest_spec h hinbox
  unfold WorkerProcess.start
  split
  · exact ⟨hrest, hwithin⟩
  · rename_i hnew
    split
    · have hrefused : Within (send { process with inbox := inbox } (.exit runId 75
          (some s!"Shared worker task ceiling ({options.maxTasks}) reached"))) process := by
        intro other
        simp only [pending, send, hinbox, List.count_append, List.filterMap_append,
          List.filterMap_cons, PoolMessage.starts, WorkerReport.exits, List.filterMap_nil,
          List.count_cons, List.count_nil]
        omega
      exact ⟨⟨h.tasks, h.ceiling, hrefused.nodup h.pending⟩, hrefused⟩
    · rename_i hroom
      have haccepted : Within (send { process with inbox := inbox
                                                   tasks := process.tasks ++ [{ runId := runId }] }
          (.started runId)) process := by
        intro other
        simp only [pending, send, hinbox, List.count_append, List.filterMap_append,
          List.filterMap_cons, PoolMessage.starts, WorkerReport.exits, List.filterMap_nil,
          List.count_cons, List.count_nil, runningIds, List.filter_append, List.map_append,
          List.filter_cons, Bool.not_false, if_true, List.filter_nil, List.map_cons, List.map_nil]
        omega
      refine ⟨⟨?_, ?_, haccepted.nodup h.pending⟩, haccepted⟩
      · show ((process.tasks ++ [_]).map _).Nodup
        rw [List.map_append]
        refine List.nodup_append.mpr ⟨h.tasks, List.nodup_singleton _, ?_⟩
        rintro _ hold _ hstarted rfl
        obtain ⟨task, htask, hid⟩ := List.mem_map.mp hold
        refine hnew (List.any_eq_true.mpr ⟨task, htask, ?_⟩)
        simpa using hid.trans (List.mem_singleton.mp hstarted)
      · show (process.tasks ++ [_]).length ≤ _
        rw [List.length_append, List.length_singleton]
        simp only at hroom
        omega

theorem deliver_spec (h : process.Sound options) :
    (process.deliver options).Sound options ∧ Within (process.deliver options) process := by
  unfold deliver
  split
  · exact ⟨h, fun _ => Nat.le_refl _⟩
  · rename_i message inbox hinbox
    obtain ⟨hrest, hwithin⟩ := rest_spec h hinbox
    cases message with
    | start runId => exact start_spec h hinbox
    | stop runId =>
      obtain ⟨hsound, habort⟩ := abort_spec hrest (· = runId)
      exact ⟨hsound, fun other => (habort other).trans (hwithin other)⟩
    | shutdown =>
      obtain ⟨hsound, habort⟩ := abort_spec hrest fun _ => true
      exact ⟨hsound, fun other => (habort other).trans (hwithin other)⟩

theorem exits_exitReport (task : WorkerTask) (failure : Option ScenarioFailure) :
    (exitReport task failure).exits = some task.runId := by
  unfold exitReport
  cases failure with
  | none => rfl
  | some failure =>
    simp only
    split <;> rfl

/-- The `exit` message takes the place of the running task. -/
theorem settle_spec (h : process.Sound options) (runId : RunId)
    (failure : Option ScenarioFailure) :
    (process.settle runId failure).Sound options ∧
      Within (process.settle runId failure) process := by
  unfold settle
  split
  · exact ⟨h, fun _ => Nat.le_refl _⟩
  · rename_i task htask
    have hmem : task ∈ process.tasks := List.mem_of_find?_eq_some htask
    have hfound := List.find?_some htask
    simp only [Bool.and_eq_true, decide_eq_true_eq, Bool.not_eq_true'] at hfound
    obtain ⟨hid, hrunning⟩ := hfound
    have hcount : 1 ≤ (runningIds process.tasks).count runId := by
      refine List.count_pos_iff.mpr (List.mem_map.mpr ⟨task, ?_, hid⟩)
      exact List.mem_filter.mpr ⟨hmem, by simp [hrunning]⟩
    have hwithin : Within (send { process with
        tasks := process.tasks.map fun task =>
          if task.runId = runId then { task with closing := true } else task }
        (exitReport task failure)) process := by
      intro other
      simp only [pending, send, List.count_append, List.filterMap_append, List.filterMap_cons,
        List.filterMap_nil, exits_exitReport, hid, count_runningIds_closing, List.count_cons,
        List.count_nil, beq_iff_eq]
      by_cases hother : other = runId
      · subst hother
        simp only [if_true]
        omega
      · rw [if_neg hother, if_neg (Ne.symm hother)]
        omega
    refine ⟨⟨?_, ?_, hwithin.nodup h.pending⟩, hwithin⟩
    · show ((process.tasks.map _).map _).Nodup
      rw [List.map_map]
      have hids : (·.runId) ∘ (fun task : WorkerTask =>
          if task.runId = runId then { task with closing := true } else task) = (·.runId) := by
        funext task
        simp only [Function.comp_apply]
        split <;> rfl
      rw [hids]
      exact h.tasks
    · simpa [send] using h.ceiling

/-- The slot is free: nothing is on its way because of it. -/
theorem close_spec (h : process.Sound options) (runId : RunId) :
    (process.close runId).Sound options ∧ Within (process.close runId) process := by
  unfold close
  split
  · have hsub : (process.tasks.filter (·.runId ≠ runId)).Sublist process.tasks :=
      List.filter_sublist
    have hwithin : Within (send { process with tasks := process.tasks.filter (·.runId ≠ runId) }
        (.poolStats (process.tasks.filter (·.runId ≠ runId)).length)) process := by
      intro other
      have hrunning : (runningIds (process.tasks.filter (·.runId ≠ runId))).count other ≤
          (runningIds process.tasks).count other :=
        ((hsub.filter _).map _).count_le other
      simp only [pending, send, List.count_append, List.filterMap_append, List.filterMap_cons,
        List.filterMap_nil, WorkerReport.exits, List.append_nil]
      omega
    exact ⟨⟨h.tasks.sublist (hsub.map _), hsub.length_le.trans h.ceiling,
      hwithin.nodup h.pending⟩, hwithin⟩
  · exact ⟨h, fun _ => Nat.le_refl _⟩

theorem report_spec (h : process.Sound options) :
    process.report.Sound options ∧ Within process.report process := by
  have hwithin : Within process.report process := by
    intro other
    simp [pending, report, send, List.filterMap_append, List.filterMap_cons, WorkerReport.exits]
  exact ⟨⟨h.tasks, h.ceiling, hwithin.nodup h.pending⟩, hwithin⟩

/-- A process that is full has a task that is still releasing leases, if a start is on its way to
it and the pool has given it no more runs than it has slots. -/
theorem closing_of_full {inbox : List PoolMessage} (hinbox : process.inbox = .start runId :: inbox)
    (hpending : process.pending.length ≤ options.slotsPerProcess)
    (hfull : options.slotsPerProcess ≤ process.tasks.length) :
    ∃ task ∈ process.tasks, task.closing = true := by
  by_contra hnone
  have hrunning : runningIds process.tasks = process.tasks.map (·.runId) := by
    unfold runningIds
    rw [List.filter_eq_self.mpr]
    intro task htask
    have hopen : task.closing ≠ true := fun hclosing => hnone ⟨task, htask, hclosing⟩
    simpa using hopen
  simp only [pending, hinbox, List.filterMap_cons, PoolMessage.starts, hrunning, List.length_append,
    List.length_cons, List.length_map] at hpending
  omega

end WorkerProcess

/-! ## What the pool accounts for -/

/-- Every run on its way holds a slot of the pool, at the worker it is on its way to or from. -/
structure Accounted (options : PoolOptions) (s : SharedPool) : Prop where
  pool : s.pool.Sound
  slots : ∀ w ∈ s.pool.workers, w.tasks.length ≤ options.slotsPerProcess
  process : ∀ id, (s.processes id).Sound options
  owned : ∀ id, ∀ runId ∈ (s.processes id).pending, s.pool.taskOwners runId = some id

section Accounts

variable {options : PoolOptions} {s : SharedPool}

theorem accounted_fresh : Accounted options .fresh where
  pool := WorkerPool.sound_empty
  slots := by simp [SharedPool.fresh]
  process _ := WorkerProcess.sound_empty
  owned := by simp [SharedPool.fresh, WorkerProcess.pending, WorkerProcess.runningIds]

/-- The runs on their way fit the slots of the pool. -/
theorem Accounted.pending_le (h : Accounted options s) {id : Nat} {runId : RunId}
    (hrun : runId ∈ (s.processes id).pending) :
    (s.processes id).pending.length ≤ options.slotsPerProcess := by
  obtain ⟨w, hw, hid, -⟩ := (h.pool.owner runId id).mp (h.owned id runId hrun)
  have hsubset : (s.processes id).pending ⊆ w.tasks := by
    intro other hother
    obtain ⟨v, hv, hvid, hmem⟩ := (h.pool.owner other id).mp (h.owned id other hother)
    rwa [WorkerPool.eq_of_id h.pool hv hw (hvid.trans hid.symm)] at hmem
  exact (List.subperm_of_subset (h.process id).pending hsubset).length_le.trans (h.slots w hw)

/-- A step of one process, with nothing new on its way. -/
theorem accounted_onProcess (h : Accounted options s) {id : Nat}
    {f : WorkerProcess → WorkerProcess}
    (hf : (f (s.processes id)).Sound options ∧
      WorkerProcess.Within (f (s.processes id)) (s.processes id)) :
    Accounted options (s.onProcess id f) := by
  refine ⟨h.pool, h.slots, fun other => ?_, fun other runId hrun => ?_⟩
  · show (Function.update s.processes id (f (s.processes id)) other).Sound options
    by_cases hother : other = id
    · subst hother
      rw [Function.update_self]
      exact hf.1
    · rw [Function.update_of_ne hother]
      exact h.process other
  · have hrun' : runId ∈ (Function.update s.processes id (f (s.processes id)) other).pending := hrun
    by_cases hother : other = id
    · subst hother
      rw [Function.update_self] at hrun'
      exact h.owned other runId (hf.2.mem hrun')
    · rw [Function.update_of_ne hother] at hrun'
      exact h.owned other runId hrun'

/-- What the pool selects has a free slot. -/
theorem selectWorker_slots {pool selected : WorkerPool} {worker : Worker}
    (hone : 1 ≤ options.slotsPerProcess)
    (hslots : ∀ w ∈ pool.workers, w.tasks.length ≤ options.slotsPerProcess)
    (hsel : pool.selectWorker options = some (selected, worker)) :
    worker.tasks.length < options.slotsPerProcess ∧
      ∀ w ∈ selected.workers, w.tasks.length ≤ options.slotsPerProcess := by
  unfold WorkerPool.selectWorker at hsel
  split at hsel
  · rename_i w hhead
    obtain ⟨rfl, rfl⟩ := Prod.mk.inj (Option.some.inj hsel)
    have hmem : w ∈ pool.available options := List.mem_of_mem_head? (Option.mem_def.mpr hhead)
    rw [WorkerPool.available, List.mem_insertionSort] at hmem
    exact ⟨by simpa using (List.mem_filter.mp hmem).2, hslots⟩
  · split at hsel
    · obtain ⟨rfl, rfl⟩ := Prod.mk.inj (Option.some.inj hsel)
      refine ⟨hone, fun w hw => ?_⟩
      rcases List.mem_append.mp hw with hw | hw
      · exact hslots w hw
      · rw [List.mem_singleton.mp hw]
        exact Nat.zero_le _
    · exact absurd hsel (by simp)

/-- A message on its way that starts no run. -/
theorem accounted_post (h : Accounted options s) {message : PoolMessage}
    (hmessage : message.starts = none) (id : Nat) : Accounted options (s.post id message) := by
  refine accounted_onProcess h ?_
  have hpending : WorkerProcess.pending
      { s.processes id with inbox := (s.processes id).inbox ++ [message] } =
        (s.processes id).pending := by
    simp [WorkerProcess.pending, List.filterMap_append, hmessage]
  have hwithin : WorkerProcess.Within
      { s.processes id with inbox := (s.processes id).inbox ++ [message] } (s.processes id) :=
    fun runId => by rw [hpending]
  exact ⟨⟨(h.process id).tasks, (h.process id).ceiling,
    hwithin.nodup (h.process id).pending⟩, hwithin⟩

/-- A start takes a slot of the pool, and is on its way. -/
theorem accounted_start (hone : 1 ≤ options.slotsPerProcess) (h : Accounted options s)
    (runId : RunId) : Accounted options (s.start options runId) := by
  unfold SharedPool.start
  cases hstart : s.pool.start options runId with
  | error error => exact h
  | ok started =>
    obtain ⟨pool, worker⟩ := started
    obtain ⟨hnew, selected, hsel, hpool⟩ := WorkerPool.start_spec hstart
    obtain ⟨hselected, hmember, -⟩ := WorkerPool.selectWorker_spec h.pool hsel
    obtain ⟨hfree, hslots⟩ := selectWorker_slots hone h.slots hsel
    have howners := WorkerPool.start_taskOwners h.pool hstart
    have habsent : ∀ id, runId ∉ (s.processes id).pending := by
      intro id hmem
      have howner := h.owned id runId hmem
      rw [hnew] at howner
      exact absurd howner (by simp)
    have hcount : ∀ other, (WorkerProcess.pending { s.processes worker.id with
        inbox := (s.processes worker.id).inbox ++ [.start runId] }).count other =
          (s.processes worker.id).pending.count other + if runId = other then 1 else 0 := by
      intro other
      simp only [WorkerProcess.pending, List.filterMap_append, List.filterMap_cons,
        List.filterMap_nil, PoolMessage.starts, List.count_append, List.count_cons, List.count_nil,
        beq_iff_eq]
      omega
    refine ⟨WorkerPool.start_sound h.pool hstart, fun w hw => ?_, fun id => ?_, fun id other hmem => ?_⟩
    · have hw' : w ∈ (selected.assign runId worker).workers := hpool ▸ hw
      obtain ⟨v, hv, rfl⟩ := WorkerPool.mem_assign.mp hw'
      split
      · rename_i hid
        rw [WorkerPool.eq_of_id hselected hv hmember hid]
        simp only [List.length_append, List.length_singleton]
        omega
      · exact hslots v hv
    · show (Function.update s.processes worker.id _ id).Sound options
      by_cases hid : id = worker.id
      · subst hid
        rw [Function.update_self]
        refine ⟨(h.process worker.id).tasks, (h.process worker.id).ceiling,
          List.nodup_iff_count_le_one.mpr fun other => ?_⟩
        rw [hcount other]
        by_cases hother : runId = other
        · subst hother
          rw [List.count_eq_zero.mpr (habsent worker.id), if_pos rfl]
        · rw [if_neg hother]
          exact List.nodup_iff_count_le_one.mp (h.process worker.id).pending other
      · rw [Function.update_of_ne hid]
        exact h.process id
    · have hmem' : other ∈ (Function.update s.processes worker.id { s.processes worker.id with
          inbox := (s.processes worker.id).inbox ++ [.start runId] } id).pending := hmem
      show pool.taskOwners other = some id
      rw [howners]
      by_cases hother : other = runId
      · subst hother
        by_cases hid : id = worker.id
        · rw [hid, Function.update_self]
        · rw [Function.update_of_ne hid] at hmem'
          exact absurd hmem' (habsent id)
      · rw [Function.update_of_ne hother]
        refine h.owned id other ?_
        by_cases hid : id = worker.id
        · subst hid
          rw [Function.update_self] at hmem'
          have hpos := List.count_pos_iff.mpr hmem'
          rw [hcount other, if_neg (Ne.symm hother)] at hpos
          exact List.count_pos_iff.mp hpos
        · rwa [Function.update_of_ne hid] at hmem'

/-- A stop is on its way, or goes nowhere. -/
theorem accounted_stop (h : Accounted options s) (runId : RunId) :
    Accounted options (s.stop runId) := by
  unfold SharedPool.stop
  split
  · exact h
  · split
    · exact accounted_post h rfl _
    · exact h

theorem accounted_shutdown (h : Accounted options s) : Accounted options s.shutdown := by
  have hpending : ∀ id, (s.shutdown.processes id).pending = (s.processes id).pending := by
    intro id
    show WorkerProcess.pending (if _ then _ else _) = _
    split
    · simp [WorkerProcess.pending, List.filterMap_append, List.filterMap_cons, PoolMessage.starts]
    · rfl
  have htasks : ∀ id, (s.shutdown.processes id).tasks = (s.processes id).tasks := by
    intro id
    show WorkerProcess.tasks (if _ then _ else _) = _
    split <;> rfl
  refine ⟨⟨h.pool.ids, h.pool.issued, h.pool.tasks, h.pool.owner⟩, h.slots, fun id => ?_,
    fun id runId hrun => ?_⟩
  · refine ⟨?_, ?_, ?_⟩
    · rw [htasks]
      exact (h.process id).tasks
    · rw [htasks]
      exact (h.process id).ceiling
    · rw [hpending]
      exact (h.process id).pending
  · rw [hpending] at hrun
    exact h.owned id runId hrun

/-- An `exit` message frees the slot of its run, and nothing else is on its way for it. -/
theorem accounted_receive (h : Accounted options s) (id : Nat) :
    Accounted options (s.receive id) := by
  unfold SharedPool.receive
  split
  · exact h
  · rename_i report outbox houtbox
    have hcount : ∀ other, (s.processes id).pending.count other =
        (WorkerProcess.pending { s.processes id with outbox := outbox }).count other +
          if report.exits = some other then 1 else 0 := by
      intro other
      simp only [WorkerProcess.pending, houtbox, List.count_append, List.filterMap_cons]
      cases report.exits with
      | none => simp
      | some runId =>
        simp only [List.count_cons, beq_iff_eq, Option.some.injEq]
        omega
    have hrest : Accounted options
        (s.onProcess id fun process => { process with outbox := outbox }) := by
      refine accounted_onProcess h ?_
      have hwithin : WorkerProcess.Within { s.processes id with outbox := outbox }
          (s.processes id) := fun other => by
        rw [hcount other]
        omega
      exact ⟨⟨(h.process id).tasks, (h.process id).ceiling,
        hwithin.nodup (h.process id).pending⟩, hwithin⟩
    cases report with
    | started runId => exact hrest
    | poolStats activeTasks => exact hrest
    | exit runId code error =>
      show Accounted options { s.onProcess id _ with pool := (s.pool.exited id runId).getD s.pool }
      cases hexit : s.pool.exited id runId with
      | none => exact hrest
      | some left =>
        obtain ⟨-, hworkers, howners, -⟩ := WorkerPool.exited_spec hexit
        refine ⟨WorkerPool.exited_sound h.pool hexit, fun w hw => ?_, hrest.process,
          fun other run hrun => ?_⟩
        · have hw' : w ∈ left.workers := hw
          rw [hworkers] at hw'
          obtain ⟨v, hv, rfl⟩ := List.mem_map.mp hw'
          split
          · exact (List.length_erase_le).trans (h.slots v hv)
          · exact h.slots v hv
        · show left.taskOwners run = some other
          have howned : s.pool.taskOwners run = some other := hrest.owned other run hrun
          rw [howners]
          by_cases hsame : run = runId
          · -- the run was on its way once, and its exit has arrived
            subst hsame
            have hexits : (WorkerReport.exit run code error).exits = some run := rfl
            have hthere : run ∈ (s.processes id).pending := by
              refine List.count_pos_iff.mp ?_
              rw [hcount run, if_pos hexits]
              omega
            have hid : other = id :=
              Option.some.inj (howned.symm.trans (h.owned id run hthere))
            subst hid
            have hrun' : run ∈ (Function.update s.processes other
                { s.processes other with outbox := outbox } other).pending := hrun
            rw [Function.update_self] at hrun'
            have hpos := List.count_pos_iff.mpr hrun'
            have hone := List.nodup_iff_count_le_one.mp (h.process other).pending run
            rw [hcount run, if_pos hexits] at hone
            omega
          · rw [Function.update_of_ne hsame]
            exact howned

/-- A process that is gone has nothing on its way. -/
theorem accounted_lost (h : Accounted options s) (id : Nat) : Accounted options (s.lost id) := by
  refine ⟨WorkerPool.lost_sound h.pool id, fun w hw => h.slots w (List.mem_filter.mp hw).1,
    fun other => ?_, fun other runId hrun => ?_⟩
  · show (Function.update s.processes id {} other).Sound options
    by_cases hother : other = id
    · subst hother
      rw [Function.update_self]
      exact WorkerProcess.sound_empty
    · rw [Function.update_of_ne hother]
      exact h.process other
  · have hrun' : runId ∈ (Function.update s.processes id {} other).pending := hrun
    by_cases hother : other = id
    · subst hother
      rw [Function.update_self] at hrun'
      exact absurd hrun' List.not_mem_nil
    · rw [Function.update_of_ne hother] at hrun'
      have howner := h.owned other runId hrun'
      have hkept : runId ∉ (s.pool.lost id).2 := by
        intro hlost
        obtain ⟨w, hw, hid, hmem⟩ := WorkerPool.mem_lost.mp hlost
        have htwo := (h.pool.owner runId id).mpr ⟨w, hw, hid, hmem⟩
        exact hother (Option.some.inj (howner.symm.trans htwo))
      show (if runId ∈ (s.pool.lost id).2 then none else s.pool.taskOwners runId) = some other
      rw [if_neg hkept]
      exact howner

/-- **Step lemma**. -/
theorem accounted_step (hone : 1 ≤ options.slotsPerProcess) (s : SharedPool) (e : PoolEvent)
    (h : Accounted options s) : Accounted options ((sharedPool options).next s e) := by
  show Accounted options (s.step options e)
  cases e with
  | start runId => exact accounted_start hone h runId
  | stop runId => exact accounted_stop h runId
  | shutdown => exact accounted_shutdown h
  | deliver id => exact accounted_onProcess h (WorkerProcess.deliver_spec (h.process id))
  | settle id runId failure =>
    exact accounted_onProcess (f := (·.settle runId failure)) h
      (WorkerProcess.settle_spec (h.process id) runId failure)
  | close id runId =>
    exact accounted_onProcess (f := (·.close runId)) h
      (WorkerProcess.close_spec (h.process id) runId)
  | report id => exact accounted_onProcess h (WorkerProcess.report_spec (h.process id))
  | receive id => exact accounted_receive h id
  | lost id => exact accounted_lost h id

/-- A process sends a refusal exactly when it is full and has no task of the run. -/
theorem accepts_iff (e : PoolEvent) : Accepts options s e ↔
    match e with
    | .deliver id => ∀ runId, (s.processes id).inbox.head? = some (.start runId) →
        options.maxTasks ≤ (s.processes id).tasks.length → (s.processes id).has runId = true
    | _ => True := by
  cases e with
  | deliver id =>
    unfold Accepts
    refine forall_congr' fun runId => forall_congr' fun hhead => ?_
    obtain ⟨inbox, hinbox⟩ := List.head?_eq_some_iff.mp hhead
    have hdeliver : ((s.processes id).deliver options).outbox =
        (WorkerProcess.start options { s.processes id with inbox := inbox } runId).outbox := by
      simp [WorkerProcess.deliver, hinbox, WorkerProcess.handle]
    rw [hdeliver]
    unfold WorkerProcess.start
    constructor
    · intro haccepts hfull
      by_contra hnew
      have hnew' : ¬WorkerProcess.has { s.processes id with inbox := inbox } runId = true := hnew
      rw [if_neg hnew', if_pos hfull] at haccepts
      exact haccepts _ rfl
    · intro hfull error
      split
      · simp
      · rename_i hnew
        split
        · rename_i hmax
          exact absurd (hfull hmax) hnew
        · simp [WorkerProcess.send]
  | start runId => simp [Accepts]
  | stop runId => simp [Accepts]
  | shutdown => simp [Accepts]
  | settle id runId failure => simp [Accepts]
  | close id runId => simp [Accepts]
  | report id => simp [Accepts]
  | receive id => simp [Accepts]
  | lost id => simp [Accepts]

/-- With one slot count on both sides, only a task that is still releasing leases can make a process
refuse a start. -/
theorem accepts_iff_released (hsame : options.maxTasks = options.slotsPerProcess)
    (h : Accounted options s) (e : PoolEvent) : Accepts options s e ↔ Released options s e := by
  rw [accepts_iff]
  cases e with
  | deliver id =>
    show (∀ runId, _ → options.maxTasks ≤ _ → _) ↔ Released options s (.deliver id)
    unfold Released
    refine forall_congr' fun runId => forall_congr' fun hhead => ?_
    rw [hsame]
    refine forall_congr' fun hfull => ?_
    constructor
    · exact Or.inl
    · rintro (hhas | hnone)
      · exact hhas
      · exfalso
        obtain ⟨inbox, hinbox⟩ := List.head?_eq_some_iff.mp hhead
        have hmem : runId ∈ (s.processes id).pending := by
          simp [WorkerProcess.pending, hinbox, PoolMessage.starts]
        obtain ⟨task, htask, hclosing⟩ :=
          WorkerProcess.closing_of_full hinbox (h.pending_le hmem) hfull
        rw [hnone task htask] at hclosing
        exact absurd hclosing (by simp)
  | start runId => simp [Released]
  | stop runId => simp [Released]
  | shutdown => simp [Released]
  | settle id runId failure => simp [Released]
  | close id runId => simp [Released]
  | report id => simp [Released]
  | receive id => simp [Released]
  | lost id => simp [Released]

/-- **Run lemma**. -/
theorem accounted_run (hone : 1 ≤ options.slotsPerProcess) (es : List PoolEvent) :
    Accounted options ((sharedPool options).run .fresh es) :=
  EventSystem.run_inv_true accounted_fresh (accounted_step hone)

theorem slots_pos (hsame : options.maxTasks = options.slotsPerProcess) :
    1 ≤ options.slotsPerProcess := by
  rw [← hsame]
  unfold PoolOptions.maxTasks
  omega

theorem along_accepts_iff (hsame : options.maxTasks = options.slotsPerProcess)
    (es : List PoolEvent) :
    (sharedPool options).Along (Accepts options) .fresh es ↔
      (sharedPool options).Along (Released options) .fresh es :=
  EventSystem.along_iff_of_inv accounted_fresh
    (fun s e h _ => accounted_step (slots_pos hsame) s e h)
    fun _ e h => accepts_iff_released hsame h e

end Accounts

/-- **The processes refuse no start and hold no more tasks than slots**, in any order of messages
with one slot count on both sides, exactly when no start arrives at a full process while a task there
is still releasing its leases. -/
theorem starts_accepted_iff (options : PoolOptions)
    (hsame : options.maxTasks = options.slotsPerProcess) (es : List PoolEvent) :
    ((sharedPool options).Along (Accepts options) .fresh es ∧
        ∀ id, (((sharedPool options).run .fresh es).processes id).tasks.length ≤
          options.slotsPerProcess) ↔
      (sharedPool options).Along (Released options) .fresh es := by
  have hiff := along_accepts_iff hsame es
  refine ⟨fun h => hiff.mp h.1, fun h => ⟨hiff.mpr h, fun id => ?_⟩⟩
  exact hsame ▸ ((accounted_run (slots_pos hsame) es).process id).ceiling

/-! ## A start that crosses a release -/

namespace Crossing

/-- One process, with one slot. -/
def options : PoolOptions where
  processCount := 1
  slotsPerProcess := 1

/-- Run 1 ends, and the pool hears of it while the process is still releasing its leases. -/
def ending : List PoolEvent :=
  [.start 1, .deliver 1, .settle 1 1 none, .receive 1, .receive 1]

/-- Run 2 takes the slot that the pool has freed. -/
def crossing : List PoolEvent := ending ++ [.start 2, .deliver 1]

/-- Run 2 starts once the leases are released. -/
def inOrder : List PoolEvent := ending ++ [.close 1 1, .start 2, .deliver 1]

end Crossing

instance (options : PoolOptions) (s : SharedPool) (e : PoolEvent) :
    Decidable (Released options s e) := by
  cases e <;> unfold Released
  case deliver id =>
    exact decidable_of_iff
      (∀ message ∈ (s.processes id).inbox.head?, ∀ runId ∈ message.starts,
        options.slotsPerProcess ≤ (s.processes id).tasks.length →
        (s.processes id).has runId = true ∨
          ∀ task ∈ (s.processes id).tasks, task.closing = false)
      ⟨fun h runId hhead => h _ hhead runId rfl, fun h message hmessage runId hruns => by
        cases message with
        | start run =>
          obtain rfl : run = runId := Option.some.inj hruns
          exact h run hmessage
        | stop run => cases hruns
        | shutdown => cases hruns⟩
  all_goals infer_instance

/-- A start after the release is accepted. -/
theorem starts_accepted_iff_inOrder :
    (sharedPool Crossing.options).Along (Accepts Crossing.options) .fresh Crossing.inOrder :=
  ((starts_accepted_iff Crossing.options (by decide) Crossing.inOrder).mpr (by decide)).1

/-- **A start that the pool admits is refused** by the worker, which is still releasing the leases
of the run whose slot the pool has freed. -/
theorem start_refused :
    ¬∀ (options : PoolOptions), options.maxTasks = options.slotsPerProcess → ∀ es,
      (sharedPool options).Along (Accepts options) .fresh es ∧
        ∀ id, (((sharedPool options).run .fresh es).processes id).tasks.length ≤
          options.slotsPerProcess := by
  intro hall
  have haccepts := (hall Crossing.options (by decide) Crossing.crossing).1
  exact absurd ((along_accepts_iff (by decide) Crossing.crossing).mp haccepts) (by decide)

end LinkSuffix
