import LinkSuffix.Js.Case
import LinkSuffix.Lib.Run
import Mathlib.Data.Finset.Basic
import Mathlib.Data.List.Sort

/-!
# Local proxy sessions

`proxy-session-manager.ts`: every session is a tunnel process that listens on a local port of its
own. A start finds a free port, spawns the tunnel, and waits for it to be ready; sessions are stopped
by callers, by the garbage collection and for want of room, and tunnels exit by themselves. Sessions
are numbered as they are started.

* `startSession`, `assignSession`, `stopSession`, `maybeGcSessions`: the code up to its first await.
* `step`: an input, or one await that comes back.
-/

namespace LinkSuffix.LocalProxy

open Lib

/-! ## Sessions -/

/-- The constants that are read from the environment. -/
structure Config where
  maxSessions : Nat := 40
  sessionTtlMs : Int := 15 * 60000
  gcIntervalMs : Int := 30000
  portMin : Nat := 12000
  portMax : Nat := 64000

inductive Status where
  | starting
  | ready
  | error
  | stopped
  deriving DecidableEq

/-- `ProxySession`, with what became of its process. -/
structure Session where
  localPort : Nat
  country : String
  state : String
  city : String
  status : Status := .starting
  startedAt : Int
  lastUsedAt : Int
  error : Option String := none
  exited : Bool := false
  deriving DecidableEq

/-- Where a call of `startSession` is: at the probe of a port for the `attempt`-th time, with a port
that was in the set already or not; with a port of its own; at `await ready`; past it; or rejected. -/
inductive Stage where
  | probing (attempt port : Nat) (taken : Bool)
  | reserved (port : Nat)
  | starting (session : Session)
  | running (session : Session)
  | failed (session : Option Session) (message : String)
  deriving DecidableEq

/-- A call of `startSession`; `key` when `assignSession` made it, and whether its `finally` has run. -/
structure Start where
  key : Option String
  country : String
  state : String
  city : String
  stage : Stage
  cleaned : Bool := false

/-- The session of a call. -/
def Stage.session : Stage → Option Session
  | .starting x => some x
  | .running x => some x
  | .failed x _ => x
  | _ => none

/-- The call has no session yet, and will put one into the table. -/
def Stage.pending : Stage → Bool
  | .probing .. => true
  | .reserved _ => true
  | _ => false

/-- The promise of the call is settled. -/
def Stage.settled : Stage → Bool
  | .running _ => true
  | .failed .. => true
  | _ => false

def Stage.map (f : Session → Session) : Stage → Stage
  | .starting x => .starting (f x)
  | .running x => .running (f x)
  | .failed x message => .failed (x.map f) message
  | stage => stage

/-- The module's variables: the calls, the keys of `sessions` in their order, and the rest. -/
structure State where
  now : Int := 0
  starts : List Start := []
  sessions : List Nat := []
  startingSessions : List (String × Nat) := []
  reservedPorts : Finset Nat := ∅
  nextLocalPort : Nat
  nextGc : Int := 0

namespace State

def stage (s : State) (n : Nat) : Option Stage := s.starts[n]?.map (·.stage)

/-- The session numbered `n`, in the table or not. -/
def session (s : State) (n : Nat) : Option Session := (s.stage n).bind (·.session)

def setStage (s : State) (n : Nat) (stage : Stage) : State :=
  { s with starts := s.starts.modify n fun call => { call with stage } }

/-- An assignment to fields of a session. -/
def update (s : State) (n : Nat) (f : Session → Session) : State :=
  { s with starts := s.starts.modify n fun call => { call with stage := call.stage.map f } }

/-- A property of the status of a session in the table. -/
def has (s : State) (p : Session → Bool) (n : Nat) : Bool := (s.session n).any p

/-- `.sort((a, b) => a.lastUsedAt - b.lastUsedAt)`. -/
def byLastUse (s : State) (ns : List Nat) : List Nat :=
  ns.mergeSort fun a b =>
    ((s.session a).map (·.lastUsedAt)).getD 0 ≤ ((s.session b).map (·.lastUsedAt)).getD 0

end State

/-! ## Stopping -/

/-- `stopSession(id)`. -/
def stopSession (s : State) (n : Nat) : State :=
  match s.session n with
  | none => s
  | some x =>
    if n ∉ s.sessions ∨ x.status = .stopped then s
    else
      { s.update n fun x => { x with status := .stopped } with
        sessions := s.sessions.erase n
        reservedPorts := s.reservedPorts.erase x.localPort }

/-- `session.status === "ready" || session.status === "error"`. -/
def Session.idle (x : Session) : Bool := x.status = .ready || x.status = .error

section Code

variable (cfg : Config)

/-- What the first loop of `pruneSessions` stops. A stop changes nothing of the other sessions. -/
def expired (s : State) : List Nat :=
  s.sessions.filter (s.has fun x => x.idle && cfg.sessionTtlMs < s.now - x.lastUsedAt)

/-- `pruneSessions(now)`. -/
def pruneSessions (s : State) : State :=
  let s := (expired cfg s).foldl stopSession s
  if s.sessions.length ≤ cfg.maxSessions then s
  else ((s.byLastUse (s.sessions.filter (s.has Session.idle))).take
    (s.sessions.length - cfg.maxSessions)).foldl stopSession s

/-- `maybeGcSessions()`. -/
def maybeGcSessions (s : State) : State :=
  if s.now < s.nextGc then s
  else pruneSessions cfg { s with nextGc := s.now + cfg.gcIntervalMs }

/-! ## Starting -/

/-- The `attempt`-th turn of the loop of `reservePort`, up to its await: the port is taken from the
counter, and looked up. -/
def reservePort (s : State) (attempt : Nat) : State × Stage :=
  if attempt < cfg.portMax + 1 - cfg.portMin then
    ({ s with nextLocalPort :=
        if cfg.portMax ≤ s.nextLocalPort then cfg.portMin else s.nextLocalPort + 1 },
      .probing attempt s.nextLocalPort (s.nextLocalPort ∈ s.reservedPorts))
  else
    (s, .failed none ("No local proxy ports are available in " ++ toString cfg.portMin ++ "-"
      ++ toString cfg.portMax))

/-- `normalize(value)`. -/
def normalize (value : String) : String := String.ofList (toLowerCase (trim value).toList)

/-- `normalize(value).toUpperCase()`. -/
def countryCode (value : String) : String := String.ofList (toUpperCase (normalize value).toList)

/-- `sessionKey`. -/
def sessionKey (country state city : String) : String :=
  countryCode country ++ "|" ++ normalize state ++ "|" ++ normalize city

/-- The session that is stopped when there is no room. -/
def oldest (s : State) : Option Nat :=
  (s.byLastUse (s.sessions.filter (s.has fun x => x.status ≠ .starting))).head?

/-- `sessions.size + startingSessions.size >= MAX_SESSIONS`. -/
def full (s : State) : Bool :=
  cfg.maxSessions ≤ s.sessions.length + s.startingSessions.length

/-- A call of `startSession` is appended to those of the state. -/
def State.call (s : State) (key : Option String) (country state city : String) (stage : Stage) :
    State :=
  { s with starts := s.starts ++ [{
      key
      country := countryCode (if country = "" then "US" else country)
      state := trim state
      city := trim city
      stage }] }

/-- `startSession` up to its first await, called by `assignSession` for a key or not. -/
def startSession (s : State) (key : Option String) (country state city : String) : State :=
  let s := maybeGcSessions cfg s
  if full cfg s then
    match oldest s with
    | none => s.call key country state city (.failed none
        ("Proxy session capacity reached (" ++ toString cfg.maxSessions ++ ")"))
    | some n =>
      let (s, stage) := reservePort cfg (stopSession s n) 0
      s.call key country state city stage
  else
    let (s, stage) := reservePort cfg s 0
    s.call key country state city stage

/-- The session `assignSession` reuses. -/
def candidate (s : State) (country state city : String) : Option Nat :=
  (s.byLastUse (s.sessions.filter (s.has fun x =>
    x.status = .ready && (country = "" || x.country = countryCode country)
      && (state = "" || normalize x.state = normalize state)
      && (city = "" || normalize x.city = normalize city)))).head?

/-- `startingSessions.get(key)`. -/
def starting (s : State) (key : String) : Option Nat :=
  (s.startingSessions.find? fun entry => entry.1 = key).map (·.2)

/-- `assignSession` up to its first await, and the call whose session the caller gets. -/
def assignSession (s : State) (country state city : String) : State × Option Nat :=
  let s := maybeGcSessions cfg s
  match candidate s country state city with
  | some n => (s.update n fun x => { x with lastUsedAt := s.now }, some n)
  | none =>
    let key := sessionKey country state city
    match starting s key with
    | some n => (s, some n)
    | none =>
      let next := startSession cfg s (some key) (if country = "" then "US" else country) state city
      ({ next with startingSessions := next.startingSessions ++ [(key, s.starts.length)] },
        some s.starts.length)

/-! ## Awaits that come back -/

/-- The probe of a port: a port that is free is reserved, after any other the next one is tried. -/
def probe (s : State) (n : Nat) (free : Bool) : State :=
  match s.stage n with
  | some (.probing attempt port taken) =>
    if free && !taken then
      { s.setStage n (.reserved port) with reservedPorts := insert port s.reservedPorts }
    else
      let (s, stage) := reservePort cfg s (attempt + 1)
      s.setStage n stage
  | _ => s

/-- An argument with a null character is refused by `spawn`, which may throw otherwise too. -/
def spawnThrows (call : Start) (thrown : Bool) : Bool :=
  thrown || [call.country, call.state, call.city].any fun text => '\u0000' ∈ text.toList

/-- The port is reserved: the tunnel is spawned, and the session put into the table. -/
def spawn (s : State) (n : Nat) (thrown : Bool) : State :=
  match s.starts[n]? with
  | some call => match call.stage with
    | .reserved port =>
      if spawnThrows call thrown then s.setStage n (.failed none "spawn failed")
      else
        { s.setStage n (.starting
            { localPort := port, country := call.country, state := call.state, city := call.city
              startedAt := s.now, lastUsedAt := s.now }) with
          sessions := s.sessions ++ [n] }
    | _ => s
  | none => s

/-- `await ready`: the tunnel is ready, or failed, exited or ran out of time. -/
def settle (s : State) (n : Nat) (failure : Option String) : State :=
  match s.stage n with
  | some (.starting x) => match failure with
    | none => s.setStage n (.running { x with status := .ready })
    | some message =>
      { s.setStage n (.failed (some { x with status := .error, error := some message }) message) with
        sessions := s.sessions.erase n
        reservedPorts := s.reservedPorts.erase x.localPort }
  | _ => s

/-- The tunnel of a session that was ready exits. -/
def exit (s : State) (n : Nat) (code : String) : State :=
  match s.stage n with
  | some (.running x) =>
    if x.exited then s
    else
      { s.setStage n (.running (if x.status = .stopped then { x with exited := true } else
          { x with
            exited := true, status := .error
            error := some ("Tunnel exited with code " ++ code) })) with
        reservedPorts := s.reservedPorts.erase x.localPort }
  | _ => s

/-- An error event of the process of a session that was ready. -/
def processError (s : State) (n : Nat) (message : String) : State :=
  match s.stage n with
  | some (.running x) => s.setStage n (.running { x with status := .error, error := some message })
  | _ => s

/-- `.finally(() => startingSessions.delete(key))`. -/
def cleanup (s : State) (n : Nat) : State :=
  match s.starts[n]? with
  | some call =>
    match call.key with
    | some key =>
      if call.stage.settled && !call.cleaned then
        { s with
          starts := s.starts.modify n fun call => { call with cleaned := true }
          startingSessions := s.startingSessions.filter fun entry => entry.1 ≠ key }
      else s
    | none => s
  | none => s

/-- The clock is set, a function is called, or an await comes back. -/
inductive Event where
  | clock (now : Int)
  | start (country state city : String)
  | assign (country state city : String)
  | stop (n : Nat)
  | probe (n : Nat) (free : Bool)
  | spawn (n : Nat) (thrown : Bool)
  | settle (n : Nat) (failure : Option String)
  | exit (n : Nat) (code : String)
  | processError (n : Nat) (message : String)
  | cleanup (n : Nat)

/-- One event, and the call whose session it answers with. -/
def step (s : State) : Event → State × Option Nat
  | .clock now => ({ s with now }, none)
  | .start country state city =>
    (startSession cfg s none country state city, some s.starts.length)
  | .assign country state city => assignSession cfg s country state city
  | .stop n => (stopSession s n, none)
  | .probe n free => (LocalProxy.probe cfg s n free, none)
  | .spawn n thrown => (LocalProxy.spawn s n thrown, none)
  | .settle n failure => (LocalProxy.settle s n failure, none)
  | .exit n code => (LocalProxy.exit s n code, none)
  | .processError n message => (LocalProxy.processError s n message, none)
  | .cleanup n => (LocalProxy.cleanup s n, none)

/-- The session manager. -/
def manager : EventSystem State Event (Option Nat) where
  step := step cfg

/-- The module as it is loaded. -/
def start : State where
  nextLocalPort := cfg.portMin

end Code

end LinkSuffix.LocalProxy
