import Mathlib.Logic.Function.Basic
import LinkSuffix.Lib.Run

/-!
# The cross-process lock

`withCrossProcessLock` (`cross-process-lock.ts`) on one key: the calls of a process wait for one
another, the first of them takes an advisory lock of the database, and where that fails, or there is
no database, a lock file.

* `Phase`: the call that a call of the lock awaits.
* `State`: the calls, the queues of the processes, the advisory lock, the lock file.
* `move`: how a call goes on from what it awaits. `lockSystem`: the event system.

Every order of the events is a run. What the database, the file system and the work answer are
inputs, and so is the clock. No process crashes; a connection can be lost at any time.
-/

namespace LinkSuffix.ProcessLock

open Lib

variable {ε α : Type}

/-- The settings of a process. -/
structure Settings where
  /-- `DATABASE_URL` is set. -/
  database : Bool := true
  /-- `TAH_DISTRIBUTED_REQUIRED` is `1`. -/
  required : Bool := false
  timeoutMs : Int := 30000
  staleMs : Int := 120000

/-- A client of the pool of a process: a session of the database. -/
structure Session where
  process : Nat
  client : Nat
  deriving DecidableEq

/-- Why a call rejects. -/
inductive Failure (ε : Type) where
  | work (error : ε)
  | database (error : ε)
  | file (error : ε)
  | timedOut
  deriving DecidableEq

/-- What a call awaits. -/
inductive Phase (ε α : Type) where
  | idle
  /-- The calls of the process before it. -/
  | queued
  /-- `currentPool.connect()`. -/
  | connecting
  /-- `pg_advisory_lock`. -/
  | locking (session : Session)
  /-- `work()`, under the lock of a session or under the lock file. -/
  | working (session : Option Session)
  /-- `pg_advisory_unlock`; what the `try` before it came to. -/
  | unlocking (session : Session) (result : Except (Failure ε) α)
  /-- `mkdir`. -/
  | preparing
  /-- `open(lockPath, "wx")`. -/
  | opening (deadline : Int)
  /-- `handle.writeFile`. -/
  | writing
  /-- `readFile(lockPath)`. -/
  | reading (deadline : Int)
  /-- `rm(lockPath)` of an abandoned lock; a second time once the first has thrown. -/
  | removing (deadline : Int) (again : Bool)
  | delaying (deadline : Int)
  /-- `handle.close()`. -/
  | closing (result : Except ε α)
  /-- `rm(lockPath)` of the lock of the call. -/
  | clearing (result : Except ε α)
  | settled (result : Except (Failure ε) α)

/-- The lock file: the call that created it, and the time in it, once it is written. -/
structure LockFile where
  owner : Nat
  createdAt : Option Int
  deriving DecidableEq

/-- The calls, and what they share. -/
structure State (ε α : Type) where
  process : Nat → Nat
  phase : Nat → Phase ε α
  /-- `localTails`: the calls of a process that have not settled, in their order. -/
  queue : Nat → List Nat
  /-- The session that holds the advisory lock, and how often. -/
  held : Option (Session × Nat)
  file : Option LockFile

/-- The answer to an awaited call. -/
inductive Answer (ε α : Type) where
  | done (now : Int)
  | failed (error : ε)
  | connected (client : Nat)
  | worked (result : Except ε α)

namespace Phase

/-- The call has been admitted and has not settled. -/
def isActive : Phase ε α → Bool
  | .idle => false
  | .queued => false
  | .settled _ => false
  | _ => true

def isSettled : Phase ε α → Bool
  | .settled _ => true
  | _ => false

/-- `work()` is executing. -/
def isWorking : Phase ε α → Bool
  | .working _ => true
  | _ => false

/-- The call has turned to the lock file. -/
def onFile : Phase ε α → Bool
  | .preparing => true
  | .opening _ => true
  | .writing => true
  | .reading _ => true
  | .removing _ _ => true
  | .delaying _ => true
  | .working none => true
  | .closing _ => true
  | .clearing _ => true
  | _ => false

/-- The call has created a lock file and not removed it. -/
def holdsFile : Phase ε α → Bool
  | .writing => true
  | .working none => true
  | .closing _ => true
  | .clearing _ => true
  | _ => false

end Phase

/-! ## How a call goes on -/

/-- What a step makes of the phase of a call, of the advisory lock and of the lock file. -/
structure Move (ε α : Type) where
  phase : Phase ε α
  held : Option (Session × Nat)
  file : Option LockFile

/-- The advisory lock can be granted to a session: an advisory lock is reentrant. -/
def grantable (held : Option (Session × Nat)) (session : Session) : Bool :=
  held.all fun holder => holder.1 = session

/-- The advisory lock, granted once more. -/
def granted (held : Option (Session × Nat)) (session : Session) : Option (Session × Nat) :=
  some (session, (held.map (·.2)).getD 0 + 1)

/-- The advisory lock, released once by a session. -/
def unlocked (held : Option (Session × Nat)) (session : Session) : Option (Session × Nat) :=
  match held with
  | none => none
  | some (holder, count) =>
    if holder ≠ session then some (holder, count)
    else if count ≤ 1 then none else some (holder, count - 1)

/-- The database lock has failed: the call turns to the lock file, where it may. -/
def fellBack (settings : Settings) (failure : Failure ε) : Phase ε α :=
  if settings.required then .settled (.error failure) else .preparing

/-- The metadata of a lock file is that of an abandoned lock. -/
def isAbandoned (settings : Settings) (now createdAt : Int) : Bool :=
  createdAt = 0 || settings.staleMs < now - createdAt

/-- The result of the work, as that of the call. -/
def workResult (result : Except ε α) : Except (Failure ε) α := result.mapError .work

section Move

variable (settings : Settings) (s : State ε α) (call : Nat)

/-- The end of `withDatabaseLock`, once the client is released. -/
def unlockedPhase (result : Except (Failure ε) α) : Phase ε α :=
  match result with
  | .ok value => .settled (.ok value)
  | .error failure => fellBack settings failure

/-- What is read of the lock file. -/
def readPhase (now deadline : Int) : Phase ε α :=
  match s.file with
  | none => .removing deadline true
  | some file =>
    match file.createdAt with
    | none => .removing deadline true
    | some createdAt =>
      if isAbandoned settings now createdAt then .removing deadline false
      else if deadline ≤ now then .settled (.error .timedOut) else .delaying deadline

/-- The metadata of a lock file, where it is still the one that the call created. -/
def writtenFile (now : Int) : Option LockFile :=
  s.file.map fun file => if file.owner = call then { file with createdAt := some now } else file

/-- How a call goes on. -/
def move (answer : Answer ε α) : Move ε α :=
  match s.phase call, answer with
  | .queued, .done _ =>
    if (s.queue (s.process call)).head? = some call then
      ⟨if settings.database then .connecting else .preparing, s.held, s.file⟩
    else ⟨.queued, s.held, s.file⟩
  | .connecting, .connected client => ⟨.locking ⟨s.process call, client⟩, s.held, s.file⟩
  | .connecting, .failed error => ⟨fellBack settings (.database error), s.held, s.file⟩
  | .locking session, .done _ =>
    if grantable s.held session then ⟨.working (some session), granted s.held session, s.file⟩
    else ⟨.locking session, s.held, s.file⟩
  | .locking session, .failed error =>
    ⟨.unlocking session (.error (.database error)), s.held, s.file⟩
  | .working (some session), .worked result =>
    ⟨.unlocking session (workResult result), s.held, s.file⟩
  | .unlocking session result, .done _ =>
    ⟨unlockedPhase settings result, unlocked s.held session, s.file⟩
  | .unlocking _ result, .failed _ => ⟨unlockedPhase settings result, s.held, s.file⟩
  | .preparing, .done now => ⟨.opening (now + settings.timeoutMs), s.held, s.file⟩
  | .preparing, .failed error => ⟨.settled (.error (.file error)), s.held, s.file⟩
  | .opening deadline, .done _ =>
    match s.file with
    | none => ⟨.writing, s.held, some ⟨call, none⟩⟩
    | some file => ⟨.reading deadline, s.held, some file⟩
  | .opening _, .failed error => ⟨.settled (.error (.file error)), s.held, s.file⟩
  | .writing, .done now => ⟨.working none, s.held, writtenFile s call now⟩
  | .writing, .failed error => ⟨.settled (.error (.file error)), s.held, s.file⟩
  | .reading deadline, .done now => ⟨readPhase settings s now deadline, s.held, s.file⟩
  | .reading deadline, .failed _ => ⟨.removing deadline true, s.held, s.file⟩
  | .removing deadline _, .done _ => ⟨.opening deadline, s.held, none⟩
  | .removing deadline again, .failed error =>
    ⟨if again then .settled (.error (.file error)) else .removing deadline true, s.held, s.file⟩
  | .delaying deadline, .done _ => ⟨.opening deadline, s.held, s.file⟩
  | .working none, .worked result => ⟨.closing result, s.held, s.file⟩
  | .closing result, .done _ => ⟨.clearing result, s.held, s.file⟩
  | .closing result, .failed _ => ⟨.clearing result, s.held, s.file⟩
  | .clearing result, .done _ => ⟨.settled (workResult result), s.held, none⟩
  | .clearing result, .failed _ => ⟨.settled (workResult result), s.held, s.file⟩
  | phase, _ => ⟨phase, s.held, s.file⟩

/-- A step of a call. A call that settles leaves the queue of its process. -/
def State.moved (moved : Move ε α) : State ε α :=
  { s with
    phase := Function.update s.phase call moved.phase
    queue := if moved.phase.isSettled ∧ ¬(s.phase call).isSettled then
      Function.update s.queue (s.process call) ((s.queue (s.process call)).erase call) else s.queue
    held := moved.held
    file := moved.file }

/-- A process calls `withCrossProcessLock`. -/
def called (process : Nat) : State ε α :=
  match s.phase call with
  | .idle =>
    { s with
      process := Function.update s.process call process
      phase := Function.update s.phase call .queued
      queue := Function.update s.queue process (s.queue process ++ [call]) }
  | _ => s

/-- A connection is lost: its session holds nothing any more. -/
def sessionLost (session : Session) : State ε α :=
  { s with held := s.held.filter fun holder => holder.1 ≠ session }

end Move

/-! ## The event system -/

inductive Event (ε α : Type) where
  | call (process call : Nat)
  | answer (call : Nat) (answer : Answer ε α)
  | lost (session : Session)

/-- No call yet, no lock. -/
def start : State ε α := ⟨fun _ => 0, fun _ => .idle, fun _ => [], none, none⟩

/-- The calls of all processes. -/
def lockSystem (settings : Nat → Settings) : EventSystem (State ε α) (Event ε α) Unit where
  step s
    | .call process call => (called s call process, ())
    | .answer call answer =>
      (s.moved call (move (settings (s.process call)) s call answer), ())
    | .lost session => (sessionLost s session, ())

end LinkSuffix.ProcessLock
