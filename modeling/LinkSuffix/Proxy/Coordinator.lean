import LinkSuffix.Lib.Calls
import LinkSuffix.Lib.ExpiringLock
import LinkSuffix.Proxy.Lease

/-!
# The lease coordinators

The coordinators of all processes share one repository, one Redis and the clock. An operation of a
coordinator is a few steps, each on one of the two stores; it is suspended before each of them, and
time passes.

* `LeaseCall`: an operation, by the step it takes next.
* `resumeLease`: that step. `reserve` is two statements, and each is a step.
* `coordinators`: any number of coordinators, step by step. An `ownerId` names one.
-/

namespace LinkSuffix

open Lib

/-- The two stores, and the clock. -/
structure LeaseStores where
  now : Nat
  table : LeaseTable
  locks : ExpiringLocks String String

/-- `${lease.providerId}:${lease.endpointKey}`. -/
def Reservation.lockKey (lease : Reservation) : String := lease.providerId ++ ":" ++ lease.endpointKey

/-- `${lease.leaseId}:${lease.ownerId}:${lease.fencingToken}`. -/
def ProxyLease.lockValue (lease : ProxyLease) : String :=
  toString lease.leaseId ++ ":" ++ lease.ownerId ++ ":" ++ toString lease.fencingToken

/-- How an operation ends. -/
inductive LeaseResult where
  | acquired (lease : ProxyLease)
  | unavailable (message : String)
  | renewed (lease : Option ProxyLease)
  | released (done : Bool)
  | reaped (count : Nat)
  deriving DecidableEq

/-- An operation, by its next step. -/
inductive LeaseCall where
  /-- `reserve`: the sweep of the expired rows. -/
  | sweep (request : Reservation) (ttlMs : Nat) (endpointKeys : List String)
  /-- `reserve`: the insert. -/
  | insert (request : Reservation) (ttlMs : Nat) (endpointKeys : List String)
  | lock (lease : ProxyLease) (ttlMs : Nat) (endpointKeys : List String)
  /-- The release of a row whose lock is taken. -/
  | undo (lease : ProxyLease) (ttlMs : Nat) (endpointKeys : List String)
  | renewRow (ownerId : String) (lease : ProxyLease) (ttlMs : Nat)
  | renewLock (ownerId : String) (lease renewed : ProxyLease) (ttlMs : Nat)
  /-- The expiry of a row whose lock was lost. -/
  | renewUndo (ownerId : String) (lease : ProxyLease)
  | releaseRow (ownerId : String) (lease : ProxyLease) (state : LeaseState)
  | releaseLock (lease : ProxyLease)
  | reap
  | done (result : LeaseResult)
  deriving DecidableEq

/-- The loop of `acquire`, at the next endpoint. -/
def nextEndpoint (request : Reservation) (ttlMs : Nat) : List String → LeaseCall
  | [] => .done (.unavailable "No proxy endpoint is currently available")
  | endpointKey :: endpointKeys =>
    .sweep { request with endpointKey := endpointKey } ttlMs endpointKeys

/-- The next step of an operation. -/
def resumeLease (s : LeaseStores) : LeaseCall → LeaseStores × LeaseCall
  | .sweep request ttlMs endpointKeys =>
    ({ s with table := s.table.reapExpired s.now }, .insert request ttlMs endpointKeys)
  | .insert request ttlMs endpointKeys =>
    match s.table.insertLease request ttlMs s.now with
    | (table, none) => ({ s with table := table }, nextEndpoint request ttlMs endpointKeys)
    | (table, some lease) => ({ s with table := table }, .lock lease ttlMs endpointKeys)
  | .lock lease ttlMs endpointKeys =>
    match s.locks.acquire lease.lockKey lease.lockValue ttlMs s.now with
    | (locks, true) => ({ s with locks := locks }, .done (.acquired lease))
    | (locks, false) => ({ s with locks := locks }, .undo lease ttlMs endpointKeys)
  | .undo lease ttlMs endpointKeys =>
    ({ s with table := (s.table.release lease.ownerId lease.leaseId lease.fencingToken .released).1 },
      nextEndpoint lease.toReservation ttlMs endpointKeys)
  | .renewRow ownerId lease ttlMs =>
    match s.table.renew ownerId lease.leaseId lease.fencingToken ttlMs s.now with
    | (table, none) => ({ s with table := table }, .done (.renewed none))
    | (table, some renewed) => ({ s with table := table }, .renewLock ownerId lease renewed ttlMs)
  | .renewLock ownerId lease renewed ttlMs =>
    match s.locks.renew lease.lockKey lease.lockValue ttlMs s.now with
    | (locks, true) => ({ s with locks := locks }, .done (.renewed (some renewed)))
    | (locks, false) => ({ s with locks := locks }, .renewUndo ownerId lease)
  | .renewUndo ownerId lease =>
    ({ s with table := (s.table.release ownerId lease.leaseId lease.fencingToken .expired).1 },
      .done (.renewed none))
  | .releaseRow ownerId lease state =>
    match s.table.release ownerId lease.leaseId lease.fencingToken state with
    | (table, true) => ({ s with table := table }, .releaseLock lease)
    | (table, false) => ({ s with table := table }, .done (.released false))
  | .releaseLock lease =>
    ({ s with locks := (s.locks.release lease.lockKey lease.lockValue s.now).1 },
      .done (.released true))
  | .reap =>
    ({ s with table := s.table.reapExpired s.now }, .done (.reaped
      (s.table.leases.countP fun lease => lease.state = .active ∧ lease.expiresAt ≤ s.now)))
  | .done result => (s, .done result)

/-- The input of `acquire`. -/
structure AcquireInput where
  providerId : String
  poolId : String
  campaignId : String
  endpointKeys : List String
  sessionId : Option String
  rotationMode : String
  ttlMs : Option Int

/-- An operation is called, or time passes. Whoever renews or releases a lease was given it by the
`n`-th call. -/
inductive LeaseInput where
  | tick (ms : Nat)
  | acquire (ownerId : String) (input : AcquireInput)
  | renew (ownerId : String) (n : Nat) (ttlMs : Option Int)
  | release (ownerId : String) (n : Nat) (state : LeaseState)
  | reapExpired

/-- `acquire`, before its first step. -/
def startAcquire (ownerId : String) (input : AcquireInput) : LeaseCall :=
  let endpointKeys := input.endpointKeys.eraseDups
  if endpointKeys = [] then .done (.unavailable "Proxy pool contains no endpoints")
  else nextEndpoint {
    providerId := input.providerId
    poolId := input.poolId
    campaignId := input.campaignId
    endpointKey := ""
    ownerId := ownerId
    sessionId := input.sessionId
    rotationMode := input.rotationMode } (boundedTtl input.ttlMs) endpointKeys

/-- The lease the `n`-th call has returned. -/
def leaseAt (calls : List LeaseCall) (n : Nat) : Option ProxyLease :=
  match calls[n]? with
  | some (.done (.acquired lease)) => some lease
  | _ => none

/-- The coordinators over their two stores. -/
def coordinators : CallSystem LeaseStores LeaseCall LeaseInput where
  accept s
    | .tick ms => ({ s.shared with now := s.shared.now + ms }, none)
    | .acquire ownerId input => (s.shared, some (startAcquire ownerId input))
    | .renew ownerId n ttlMs =>
      (s.shared, (leaseAt s.calls n).map fun lease => .renewRow ownerId lease (boundedTtl ttlMs))
    | .release ownerId n state =>
      (s.shared, (leaseAt s.calls n).map fun lease => .releaseRow ownerId lease state)
    | .reapExpired => (s.shared, some .reap)
  resume := resumeLease

/-- The coordinators and their calls. -/
abbrev Leasing : Type := InFlight LeaseStores LeaseCall

/-- Empty stores, and no call. -/
def Leasing.initial : Leasing := ⟨⟨0, .empty, .empty⟩, []⟩

end LinkSuffix
