import LinkSuffix.Lib.Run
import Mathlib.Data.List.Perm.Basic
import Mathlib.Logic.Function.Basic

/-!
# The browser pool

`acquireBrowserLease` (`browserPool.ts`) within one generation of the pool: one entry for each
engine and display, whose browser is launched by the first acquisition that finds none, joined by
those that come during the launch, and shut down by a timer after its last lease is released. Every
event is a piece of code that runs without being suspended; a settled launch and the acquisitions
that wait for it are events of their own.

* `Entry`, `Pool`, `Event`, `browserPool`.
* `Safe`: no leased browser was shut down, leases and routes match, and the contexts are counted.
* `Unhurried`: an entry's last lease is not released while an acquisition waits for a launch.
* **`pool_safe`**; **`leased_browser_shut_down`**: a lease of a browser that crashed, released
  during the launch of the next one, arms a timer that nothing clears.
-/

namespace LinkSuffix.BrowserPool

open Lib

/-! ## The pool -/

/-- Browsers, launches, timers and calls are numbered as they come. -/
structure Entry where
  browser : Option Nat := none
  launching : Option Nat := none
  /-- The browser that `shutdown()` closes. -/
  shutdown : Option Nat := none
  activeContexts : Nat := 0
  idleTimer : Option Nat := none

structure Browser (K : Type) where
  key : K
  connected : Bool

inductive LaunchState where
  | pending
  | completed
  | failed
  deriving DecidableEq

structure Launch (K : Type) where
  key : K
  state : LaunchState

/-- A pending `setTimeout` of an entry. -/
structure Timer (K : Type) where
  id : Nat
  key : K

/-- An acquisition that waits for a launch. -/
structure Waiter (K R : Type) where
  id : Nat
  key : K
  route : Option R
  launch : Nat
  deriving DecidableEq

/-- A lease that has not been released. -/
structure Lease (K R : Type) where
  id : Nat
  key : K
  route : Option R
  browser : Nat
  deriving DecidableEq

/-- The entries by engine and display, the routes by identity. An entry that is not there yet is a
fresh one. -/
structure Pool (K R : Type) where
  entries : K → Entry
  activeProxyRoutes : List R
  launches : Nat → Option (Launch K)
  browsers : Nat → Option (Browser K)
  timers : List (Timer K)
  waiting : List (Waiter K R)
  leases : List (Lease K R)
  /-- The browsers that a timer shut down. -/
  idleShutdowns : List Nat
  nextId : Nat

variable {K R : Type}

namespace Pool

/-- The pool of a new generation. -/
def initial : Pool K R where
  entries := fun _ => {}
  activeProxyRoutes := []
  launches := fun _ => none
  browsers := fun _ => none
  timers := []
  waiting := []
  leases := []
  idleShutdowns := []
  nextId := 0

variable [DecidableEq K] (s : Pool K R)

def setEntry (key : K) (change : Entry → Entry) : Pool K R :=
  { s with entries := Function.update s.entries key (change (s.entries key)) }

/-- `browser?.isConnected()` -/
def isConnected (browser : Option Nat) : Bool := (browser.bind s.browsers).any (·.connected)

/-- The lease of a connected browser. -/
def grant (id : Nat) (key : K) (route : Option R) (browser : Nat) : Pool K R :=
  { s.setEntry key fun entry => { entry with activeContexts := entry.activeContexts + 1 } with
    leases := { id := id, key := key, route := route, browser := browser } :: s.leases }

/-- `activeProxyRoutes.delete(proxyRoute)` -/
def freeRoute [DecidableEq R] (route : Option R) : Pool K R :=
  { s with activeProxyRoutes := route.elim s.activeProxyRoutes s.activeProxyRoutes.erase }

/-- What an acquisition does before it looks for the browser. -/
def reserve (key : K) (route : Option R) : Pool K R :=
  { s.setEntry key fun entry => { entry with idleTimer := none } with
    activeProxyRoutes := route.toList ++ s.activeProxyRoutes
    timers := s.timers.filter fun timer => (s.entries key).idleTimer ≠ some timer.id }

/-- An acquisition that waits for the entry's launch, or starts one. -/
def await (key : K) (route : Option R) : Pool K R :=
  match (s.entries key).launching with
  | some launch =>
    { s with
      waiting := { id := s.nextId, key := key, route := route, launch := launch } :: s.waiting
      nextId := s.nextId + 1 }
  | none =>
    { s.setEntry key fun entry => { entry with launching := some (s.nextId + 1) } with
      launches := Function.update s.launches (s.nextId + 1) (some ⟨key, .pending⟩)
      waiting :=
        { id := s.nextId, key := key, route := route, launch := s.nextId + 1 } :: s.waiting
      nextId := s.nextId + 2 }

/-- `acquireBrowserLease`, up to where it waits. -/
def acquireBrowserLease [DecidableEq R] (key : K) (route : Option R) : Pool K R :=
  if route.any (· ∈ s.activeProxyRoutes) then s
  else
    let reserved := s.reserve key route
    match (reserved.entries key).browser with
    | some browser =>
      if reserved.isConnected (some browser) then
        { reserved.grant s.nextId key route browser with nextId := s.nextId + 1 }
      else reserved.await key route
    | none => reserved.await key route

/-- `launchBrowser`, with the browser that was launched. -/
def launchBrowser (launch : Nat) (key : K) : Pool K R :=
  { s.setEntry key fun entry =>
      { entry with browser := some s.nextId, shutdown := some s.nextId } with
    launches := Function.update s.launches launch (some ⟨key, .completed⟩)
    browsers := Function.update s.browsers s.nextId (some ⟨key, true⟩)
    nextId := s.nextId + 1 }

/-- A launch that settles: with a browser, or not. -/
def settle (launch : Nat) (launched : Bool) : Pool K R :=
  match s.launches launch with
  | some ⟨key, .pending⟩ =>
    if launched then s.launchBrowser launch key
    else { s with launches := Function.update s.launches launch (some ⟨key, .failed⟩) }
  | _ => s

/-- The entry no longer launches what has settled. -/
def landed [DecidableEq R] (waiter : Waiter K R) : Pool K R :=
  { s.setEntry waiter.key fun entry =>
      { entry with
        launching := if entry.launching = some waiter.launch then none else entry.launching } with
    waiting := s.waiting.erase waiter }

/-- The rest of an acquisition whose launch has settled. -/
def proceed [DecidableEq R] (waiter : Waiter K R) (state : LaunchState) : Pool K R :=
  let after := s.landed waiter
  match state with
  | .pending => s
  | .failed => after.freeRoute waiter.route
  | .completed =>
    match (after.entries waiter.key).browser with
    | some browser =>
      if after.isConnected (some browser) then
        after.grant waiter.id waiter.key waiter.route browser
      else after.freeRoute waiter.route
    | none => after.freeRoute waiter.route

def resume [DecidableEq R] (id : Nat) : Pool K R :=
  match s.waiting.find? (·.id = id) with
  | some waiter => s.proceed waiter ((s.launches waiter.launch).elim .pending (·.state))
  | none => s

/-- `browser.once("disconnected", …)` -/
def disconnect (browser : Nat) : Pool K R :=
  match s.browsers browser with
  | some ⟨key, true⟩ =>
    { s.setEntry key fun entry =>
        { entry with browser := if entry.browser = some browser then none else entry.browser } with
      browsers := Function.update s.browsers browser (some ⟨key, false⟩) }
  | _ => s

/-- The timer of an entry without contexts. -/
def arm (key : K) : Pool K R :=
  { s.setEntry key fun entry => { entry with idleTimer := some s.nextId } with
    timers := ⟨s.nextId, key⟩ :: s.timers
    nextId := s.nextId + 1 }

/-- A lease that is counted no more. -/
def dropLease [DecidableEq R] (lease : Lease K R) : Pool K R :=
  { s.freeRoute lease.route with leases := s.leases.erase lease }.setEntry lease.key fun entry =>
    { entry with activeContexts := entry.activeContexts - 1 }

/-- A lease given back. -/
def giveBack [DecidableEq R] (lease : Lease K R) : Pool K R :=
  let dropped := s.dropLease lease
  if (dropped.entries lease.key).activeContexts = 0 then dropped.arm lease.key else dropped

/-- `release()`; of a lease that was released before, nothing. -/
def release [DecidableEq R] (id : Nat) : Pool K R :=
  match s.leases.find? (·.id = id) with
  | some lease => s.giveBack lease
  | none => s

/-- An idle timer that fires. -/
def expire (id : Nat) : Pool K R :=
  match s.timers.find? (·.id = id) with
  | some timer =>
    { s.setEntry timer.key fun entry =>
        { entry with browser := none, shutdown := none, idleTimer := none } with
      timers := s.timers.filter (·.id ≠ id)
      idleShutdowns := (s.entries timer.key).shutdown.toList ++ s.idleShutdowns }
  | none => s

end Pool

/-! ## Runs -/

inductive Event (K R : Type) where
  | acquire (key : K) (route : Option R)
  | launched (launch : Nat)
  | launchFailed (launch : Nat)
  | resume (call : Nat)
  | disconnected (browser : Nat)
  | release (call : Nat)
  | expire (timer : Nat)

def browserPool [DecidableEq K] [DecidableEq R] :
    EventSystem (Pool K R) (Event K R) Unit where
  step s event :=
    match event with
    | .acquire key route => (s.acquireBrowserLease key route, ())
    | .launched launch => (s.settle launch true, ())
    | .launchFailed launch => (s.settle launch false, ())
    | .resume call => (s.resume call, ())
    | .disconnected browser => (s.disconnect browser, ())
    | .release call => (s.release call, ())
    | .expire timer => (s.expire timer, ())

/-- The leases of an entry. -/
def leasesOf [DecidableEq K] (s : Pool K R) (key : K) : List (Lease K R) := s.leases.filter (·.key = key)

/-- Leases, routes and contexts agree. -/
structure Accounted [DecidableEq K] (s : Pool K R) : Prop where
  /-- One lease at most has a route. -/
  exclusive : (s.leases.filterMap (·.route)).Nodup
  /-- A route is taken while its acquisition waits or its lease is held, and only then. -/
  taken : ∀ route, route ∈ s.activeProxyRoutes ↔
    (∃ waiter ∈ s.waiting, waiter.route = some route) ∨ ∃ lease ∈ s.leases, lease.route = some route
  contexts : ∀ key, (s.entries key).activeContexts = (leasesOf s key).length

/-- No leased browser was shut down by an idle timer. -/
def Unshut (s : Pool K R) : Prop := ∀ lease ∈ s.leases, lease.browser ∉ s.idleShutdowns

/-- The last lease of an entry is not released while an acquisition of it waits for a launch. -/
def Unhurried (s : Pool K R) (event : Event K R) : Prop :=
  match event with
  | .release call => ∀ lease ∈ s.leases, lease.id = call →
      (s.entries lease.key).activeContexts = 1 → ∀ waiter ∈ s.waiting, waiter.key ≠ lease.key
  | _ => True

instance [DecidableEq K] (s : Pool K R) (event : Event K R) : Decidable (Unhurried s event) :=
  match event with
  | .release call => inferInstanceAs (Decidable (∀ lease ∈ s.leases, lease.id = call →
      (s.entries lease.key).activeContexts = 1 → ∀ waiter ∈ s.waiting, waiter.key ≠ lease.key))
  | .acquire _ _ => isTrue trivial
  | .launched _ => isTrue trivial
  | .launchFailed _ => isTrue trivial
  | .resume _ => isTrue trivial
  | .disconnected _ => isTrue trivial
  | .expire _ => isTrue trivial

/-! ## Entries -/

variable [DecidableEq K]

namespace Pool

variable {s : Pool K R} {key : K} {change : Entry → Entry}

@[simp] theorem setEntry_self : (s.setEntry key change).entries key = change (s.entries key) :=
  Function.update_self ..

theorem setEntry_of_ne {other : K} (h : other ≠ key) :
    (s.setEntry key change).entries other = s.entries other := Function.update_of_ne h ..

end Pool

open Pool

/-! ## Leases, routes and contexts -/

/-- The routes of the acquisitions that wait and of the leases. -/
def heldRoutes (s : Pool K R) : List R :=
  s.waiting.filterMap (·.route) ++ s.leases.filterMap (·.route)

/-- Every route that is taken is held, but for one that an acquisition has at hand. -/
structure Tallied (extra : Option R) (s : Pool K R) : Prop where
  routes : (extra.toList ++ heldRoutes s).Perm s.activeProxyRoutes
  distinct : s.activeProxyRoutes.Nodup
  contexts : ∀ key, (s.entries key).activeContexts = (leasesOf s key).length

section Tallied

variable {s s' : Pool K R} {extra route : Option R} {key : K}

/-- A change of nothing that is tallied. -/
theorem Tallied.congr (h : Tallied extra s) (hroutes : s'.activeProxyRoutes = s.activeProxyRoutes)
    (hwaiting : s'.waiting = s.waiting) (hleases : s'.leases = s.leases)
    (hcontexts : ∀ key, (s'.entries key).activeContexts = (s.entries key).activeContexts) :
    Tallied extra s' where
  routes := by
    unfold heldRoutes
    rw [hroutes, hwaiting, hleases]
    exact h.routes
  distinct := hroutes ▸ h.distinct
  contexts := fun key => by
    unfold leasesOf
    rw [hcontexts, hleases]
    exact h.contexts key

/-- What a change of an entry leaves as it was in every entry. -/
theorem update_same {α : Type} (f : Entry → α) {entries : K → Entry} {entry : Entry}
    (h : f entry = f (entries key)) (other : K) :
    f (Function.update entries key entry other) = f (entries other) := by
  by_cases hother : other = key
  · subst hother
    rw [Function.update_self, h]
  · rw [Function.update_of_ne hother]

theorem toList_cons_filterMap {α : Type} (f : α → Option R) (a : α) (as : List α) :
    (a :: as).filterMap f = (f a).toList ++ as.filterMap f := by
  rw [List.filterMap_cons]
  cases f a <;> rfl

theorem Tallied.reserve (h : Tallied none s) (hroute : ∀ r ∈ route, r ∉ s.activeProxyRoutes) :
    Tallied route (s.reserve key route) where
  routes := List.Perm.append_left _ h.routes
  distinct := by
    cases route with
    | none => exact h.distinct
    | some r => exact List.nodup_cons.mpr ⟨hroute r rfl, h.distinct⟩
  contexts := fun other => by
    refine (update_same Entry.activeContexts ?_ other).trans (h.contexts other)
    rfl

theorem leasesOf_cons (lease : Lease K R) (other : K) :
    leasesOf { s with leases := lease :: s.leases } other =
      if lease.key = other then lease :: leasesOf s other else leasesOf s other := by
  unfold leasesOf
  rw [List.filter_cons]
  simp only [decide_eq_true_eq]

theorem grant_entries (s : Pool K R) (id : Nat) (key : K) (route : Option R) (browser : Nat) :
    (s.grant id key route browser).entries = (s.setEntry key fun entry =>
      { entry with activeContexts := entry.activeContexts + 1 }).entries := rfl

theorem Tallied.grant (h : Tallied route s) (id browser : Nat) :
    Tallied none (s.grant id key route browser) where
  routes := by
    have hheld : heldRoutes (s.grant id key route browser) =
        s.waiting.filterMap (·.route) ++ (route.toList ++ s.leases.filterMap (·.route)) :=
      congrArg _ (toList_cons_filterMap _ _ _)
    rw [hheld, Option.toList_none, List.nil_append]
    exact (List.perm_append_comm_assoc ..).trans h.routes
  distinct := h.distinct
  contexts := by
    intro other
    by_cases hother : other = key
    · subst hother
      have hleases : leasesOf (s.grant id other route browser) other =
          ⟨id, other, route, browser⟩ :: leasesOf s other :=
        (leasesOf_cons _ other).trans (if_pos rfl)
      rw [hleases, List.length_cons, ← h.contexts, grant_entries, setEntry_self]
    · have hleases : leasesOf (s.grant id key route browser) other = leasesOf s other :=
        (leasesOf_cons _ other).trans (if_neg (Ne.symm hother))
      rw [hleases, ← h.contexts, grant_entries, setEntry_of_ne hother]

theorem Tallied.wait (h : Tallied route s) (waiter : Waiter K R) (hroute : waiter.route = route) :
    Tallied none { s with waiting := waiter :: s.waiting } where
  routes := by
    have hheld : heldRoutes { s with waiting := waiter :: s.waiting } =
        route.toList ++ heldRoutes s := by
      unfold heldRoutes
      dsimp only
      rw [toList_cons_filterMap, hroute, List.append_assoc]
    rw [hheld]
    exact h.routes
  distinct := h.distinct
  contexts := h.contexts

theorem Tallied.await (h : Tallied route s) : Tallied none (s.await key route) := by
  unfold Pool.await
  split
  · rename_i launch _
    have hwait := h.wait ⟨s.nextId, key, route, launch⟩ rfl
    exact hwait.congr rfl rfl rfl fun _ => rfl
  · have hwait := h.wait ⟨s.nextId, key, route, s.nextId + 1⟩ rfl
    exact hwait.congr rfl rfl rfl (update_same Entry.activeContexts rfl)

theorem Tallied.settle (h : Tallied none s) (launch : Nat) (launched : Bool) :
    Tallied none (s.settle launch launched) := by
  unfold Pool.settle
  split
  · split
    · exact h.congr rfl rfl rfl (update_same Entry.activeContexts rfl)
    · exact h.congr rfl rfl rfl fun _ => rfl
  · exact h

theorem Tallied.disconnect (h : Tallied none s) (browser : Nat) :
    Tallied none (s.disconnect browser) := by
  unfold Pool.disconnect
  split
  · exact h.congr rfl rfl rfl (update_same Entry.activeContexts rfl)
  · exact h

theorem Tallied.arm (h : Tallied none s) (key : K) : Tallied none (s.arm key) :=
  h.congr rfl rfl rfl (update_same Entry.activeContexts rfl)

theorem Tallied.expire (h : Tallied none s) (id : Nat) : Tallied none (s.expire id) := by
  unfold Pool.expire
  split
  · exact h.congr rfl rfl rfl (update_same Entry.activeContexts rfl)
  · exact h

variable [DecidableEq R]

theorem Tallied.acquire (h : Tallied none s) (key : K) (route : Option R) :
    Tallied none (s.acquireBrowserLease key route) := by
  unfold Pool.acquireBrowserLease
  split
  · exact h
  · rename_i hfree
    have hreserved : Tallied route (s.reserve key route) := h.reserve fun r hr hmem => by
      refine hfree ?_
      rw [Option.mem_def.mp hr]
      exact decide_eq_true hmem
    dsimp only
    split
    · split
      · exact (hreserved.grant _ _).congr rfl rfl rfl fun _ => rfl
      · exact hreserved.await
    · exact hreserved.await

theorem Tallied.landed (h : Tallied none s) {waiter : Waiter K R} (hwaiter : waiter ∈ s.waiting) :
    Tallied waiter.route (s.landed waiter) where
  routes := by
    have hperm := ((List.perm_cons_erase hwaiter).filterMap (·.route)).append_right
      (s.leases.filterMap (·.route))
    rw [toList_cons_filterMap, List.append_assoc] at hperm
    exact hperm.symm.trans h.routes
  distinct := h.distinct
  contexts := fun other => by
    refine (update_same Entry.activeContexts ?_ other).trans (h.contexts other)
    rfl

/-- A route that is held no more is free. -/
theorem Tallied.freeRoute (h : Tallied route s) : Tallied none (s.freeRoute route) := by
  cases route with
  | none => exact h
  | some r =>
    refine ⟨?_, h.distinct.erase r, h.contexts⟩
    have hperm := h.routes.erase r
    rwa [Option.toList_some, List.singleton_append, List.erase_cons_head] at hperm

theorem Tallied.proceed (h : Tallied none s) {waiter : Waiter K R} (hwaiter : waiter ∈ s.waiting)
    (state : LaunchState) : Tallied none (s.proceed waiter state) := by
  have hlanded := h.landed hwaiter
  unfold Pool.proceed
  cases state with
  | pending => exact h
  | failed => exact hlanded.freeRoute
  | completed =>
    dsimp only
    split
    · split
      · exact hlanded.grant _ _
      · exact hlanded.freeRoute
    · exact hlanded.freeRoute

theorem Tallied.resume (h : Tallied none s) (id : Nat) : Tallied none (s.resume id) := by
  unfold Pool.resume
  split
  · rename_i waiter hfind
    exact h.proceed (List.mem_of_find?_eq_some hfind) _
  · exact h

theorem Tallied.dropLease (h : Tallied none s) {lease : Lease K R} (hlease : lease ∈ s.leases) :
    Tallied none (s.dropLease lease) := by
  have hperm : s.leases.Perm (lease :: s.leases.erase lease) := List.perm_cons_erase hlease
  have hdropped : Tallied lease.route
      { s.setEntry lease.key fun entry =>
          { entry with activeContexts := entry.activeContexts - 1 } with
        leases := s.leases.erase lease } := by
    refine ⟨?_, h.distinct, fun other => ?_⟩
    · have hroutes := (hperm.filterMap (·.route)).append_left (s.waiting.filterMap (·.route))
      rw [toList_cons_filterMap] at hroutes
      exact (List.perm_append_comm_assoc ..).trans (hroutes.symm.trans h.routes)
    · have hcount : (leasesOf s other).length =
          ((lease :: s.leases.erase lease).filter (·.key = other)).length :=
        (hperm.filter _).length_eq
      have hcontexts := h.contexts other
      rw [List.filter_cons] at hcount
      by_cases hother : other = lease.key
      · subst hother
        rw [if_pos (decide_eq_true rfl), List.length_cons] at hcount
        have hentry : ((s.setEntry lease.key fun entry =>
            { entry with activeContexts := entry.activeContexts - 1 }).entries
              lease.key).activeContexts = (s.entries lease.key).activeContexts - 1 := by
          rw [setEntry_self]
        unfold leasesOf at hcontexts hcount ⊢
        dsimp only
        omega
      · rw [if_neg (by simpa using Ne.symm hother)] at hcount
        have hentry : ((s.setEntry lease.key fun entry =>
            { entry with activeContexts := entry.activeContexts - 1 }).entries other) =
              s.entries other := setEntry_of_ne hother
        dsimp only
        rw [hentry, hcontexts, hcount]
        rfl
  exact hdropped.freeRoute

theorem Tallied.giveBack (h : Tallied none s) {lease : Lease K R} (hlease : lease ∈ s.leases) :
    Tallied none (s.giveBack lease) := by
  have hdropped := h.dropLease hlease
  unfold Pool.giveBack
  dsimp only
  split
  · exact hdropped.arm lease.key
  · exact hdropped

theorem Tallied.release (h : Tallied none s) (id : Nat) : Tallied none (s.release id) := by
  unfold Pool.release
  split
  · rename_i lease hfind
    exact h.giveBack (List.mem_of_find?_eq_some hfind)
  · exact h

theorem Tallied.next (h : Tallied none s) (event : Event K R) :
    Tallied none (browserPool.next s event) := by
  cases event with
  | acquire key route => exact h.acquire key route
  | launched launch => exact h.settle launch true
  | launchFailed launch => exact h.settle launch false
  | resume call => exact h.resume call
  | disconnected browser => exact h.disconnect browser
  | release call => exact h.release call
  | expire timer => exact h.expire timer

end Tallied

/-! ## Timers -/

/-- The entry that a browser was launched for. -/
def owner (s : Pool K R) (browser : Nat) : Option K := (s.browsers browser).map (·.key)

/-- No timer of the entry is pending. -/
def NoTimer (s : Pool K R) (key : K) : Prop := ∀ timer ∈ s.timers, timer.key ≠ key

/-- Browsers belong to one entry each, no browser that was shut down is in use, and a pending timer
is that of an entry without leases and without acquisitions that wait. -/
structure Calm (s : Pool K R) : Prop where
  browser : ∀ key browser, (s.entries key).browser = some browser →
    owner s browser = some key ∧ browser ∉ s.idleShutdowns
  shutdown : ∀ key browser, (s.entries key).shutdown = some browser → owner s browser = some key
  leased : ∀ lease ∈ s.leases, owner s lease.browser = some lease.key
  unshut : Unshut s
  known : ∀ browser ∈ s.idleShutdowns, owner s browser ≠ none
  fresh : ∀ browser, s.nextId ≤ browser → owner s browser = none
  timers : ∀ timer ∈ s.timers, (s.entries timer.key).idleTimer = some timer.id ∧
    leasesOf s timer.key = [] ∧ ∀ waiter ∈ s.waiting, waiter.key ≠ timer.key

section Calm

variable {s s' : Pool K R} {route : Option R} {key : K}

/-- With no more timers, leases, acquisitions and browsers than before. -/
theorem Calm.weaken (h : Calm s) (howner : owner s' = owner s)
    (hshut : s'.idleShutdowns = s.idleShutdowns) (hid : s.nextId ≤ s'.nextId)
    (hleases : s'.leases.Sublist s.leases) (hwaiting : s'.waiting ⊆ s.waiting)
    (htimers : ∀ timer ∈ s'.timers, timer ∈ s.timers ∧
      (s'.entries timer.key).idleTimer = (s.entries timer.key).idleTimer)
    (hbrowser : ∀ key browser, (s'.entries key).browser = some browser →
      (s.entries key).browser = some browser)
    (hshutdown : ∀ key browser, (s'.entries key).shutdown = some browser →
      (s.entries key).shutdown = some browser) : Calm s' where
  browser := fun key browser hentry => by
    rw [howner, hshut]
    exact h.browser key browser (hbrowser key browser hentry)
  shutdown := fun key browser hentry => by
    rw [howner]
    exact h.shutdown key browser (hshutdown key browser hentry)
  leased := fun lease hlease => by
    rw [howner]
    exact h.leased lease (hleases.subset hlease)
  unshut := fun lease hlease => by
    rw [hshut]
    exact h.unshut lease (hleases.subset hlease)
  known := fun browser hbrowser => by
    rw [howner]
    exact h.known browser (hshut ▸ hbrowser)
  fresh := fun browser hfresh => by
    rw [howner]
    exact h.fresh browser (Nat.le_trans hid hfresh)
  timers := fun timer htimer => by
    obtain ⟨hmem, hsame⟩ := htimers timer htimer
    obtain ⟨hidle, hnone, hwaits⟩ := h.timers timer hmem
    refine ⟨hsame.trans hidle, ?_, fun waiter hwaiter => hwaits waiter (hwaiting hwaiter)⟩
    exact List.sublist_nil.mp (hnone ▸ hleases.filter _)

/-- What a change of an entry does not add to it. -/
theorem entry_of_update {α : Type} (f : Entry → Option α) {entries : K → Entry} {entry : Entry}
    (h : ∀ a, f entry = some a → f (entries key) = some a) (other : K) (a : α)
    (hsome : f (Function.update entries key entry other) = some a) : f (entries other) = some a := by
  by_cases hother : other = key
  · subst hother
    rw [Function.update_self] at hsome
    exact h a hsome
  · rwa [Function.update_of_ne hother] at hsome

/-- A change of an entry without a pending timer, which leaves its browser and shutdown as they were. -/
theorem Calm.edit (h : Calm s) (hnone : NoTimer s key) {entry : Entry}
    (hentries : s'.entries = Function.update s.entries key entry)
    (hbrowser : entry.browser = (s.entries key).browser)
    (hshutdown : entry.shutdown = (s.entries key).shutdown) (howner : owner s' = owner s)
    (hshut : s'.idleShutdowns = s.idleShutdowns) (hid : s.nextId ≤ s'.nextId)
    (hleases : s'.leases.Sublist s.leases) (hwaiting : s'.waiting ⊆ s.waiting)
    (htimers : s'.timers = s.timers) : Calm s' := by
  refine h.weaken howner hshut hid hleases hwaiting ?_ ?_ ?_ <;> rw [hentries]
  · intro timer htimer
    rw [htimers] at htimer
    exact ⟨htimer, congrArg Entry.idleTimer (Function.update_of_ne (hnone timer htimer) ..)⟩
  · exact entry_of_update Entry.browser fun _ h => hbrowser.symm.trans h
  · exact entry_of_update Entry.shutdown fun _ h => hshutdown.symm.trans h

/-- The timers that are left after a reservation are those of other entries. -/
theorem Calm.reserve_timers (h : Calm s) (key : K) (route : Option R) :
    NoTimer (s.reserve key route) key := by
  intro timer htimer hkey
  obtain ⟨hmem, hcleared⟩ := List.mem_filter.mp htimer
  have hidle := (h.timers timer hmem).1
  rw [hkey] at hidle
  exact of_decide_eq_true hcleared hidle

theorem Calm.reserve (h : Calm s) (key : K) (route : Option R) : Calm (s.reserve key route) := by
  refine h.weaken rfl rfl (Nat.le_refl _) (List.Sublist.refl _) (List.Subset.refl _) ?_ ?_ ?_
  · intro timer htimer
    have hkey : timer.key ≠ key := h.reserve_timers key route timer htimer
    exact ⟨(List.mem_filter.mp htimer).1, congrArg Entry.idleTimer (Function.update_of_ne hkey ..)⟩
  · exact entry_of_update Entry.browser fun _ => id
  · exact entry_of_update Entry.shutdown fun _ => id

theorem Calm.freeRoute [DecidableEq R] (h : Calm s) (route : Option R) : Calm (s.freeRoute route) :=
  h.weaken rfl rfl (Nat.le_refl _) (List.Sublist.refl _) (List.Subset.refl _)
    (fun _ htimer => ⟨htimer, rfl⟩) (fun _ _ => id) fun _ _ => id

/-- The lease of an entry's browser, where no timer of the entry is pending. -/
theorem Calm.grant (h : Calm s) (hnone : NoTimer s key) {browser : Nat}
    (hbrowser : (s.entries key).browser = some browser) (id : Nat) (route : Option R) :
    Calm (s.grant id key route browser) := by
  have hentries : Calm (s.setEntry key fun entry =>
      { entry with activeContexts := entry.activeContexts + 1 }) :=
    h.edit hnone rfl rfl rfl rfl rfl (Nat.le_refl _) (List.Sublist.refl _) (List.Subset.refl _) rfl
  obtain ⟨howner, hunshut⟩ := h.browser key browser hbrowser
  refine ⟨hentries.browser, hentries.shutdown, ?_, ?_, h.known, h.fresh, ?_⟩
  · exact List.forall_mem_cons.mpr ⟨howner, h.leased⟩
  · exact List.forall_mem_cons.mpr ⟨hunshut, h.unshut⟩
  · intro timer htimer
    obtain ⟨hidle, hleases, hwaits⟩ := hentries.timers timer htimer
    refine ⟨hidle, ?_, hwaits⟩
    exact ((leasesOf_cons _ timer.key).trans (if_neg (Ne.symm (hnone timer htimer)))).trans hleases

theorem Calm.wait (h : Calm s) (waiter : Waiter K R) (hnone : NoTimer s waiter.key) :
    Calm { s with waiting := waiter :: s.waiting } where
  browser := h.browser
  shutdown := h.shutdown
  leased := h.leased
  unshut := h.unshut
  known := h.known
  fresh := h.fresh
  timers := fun timer htimer => by
    obtain ⟨hidle, hleases, hwaits⟩ := h.timers timer htimer
    exact ⟨hidle, hleases, List.forall_mem_cons.mpr ⟨Ne.symm (hnone timer htimer), hwaits⟩⟩

theorem Calm.await (h : Calm s) (hnone : NoTimer s key) (route : Option R) :
    Calm (s.await key route) := by
  unfold Pool.await
  split
  · rename_i launch _
    have hwait := h.wait ⟨s.nextId, key, route, launch⟩ hnone
    exact hwait.weaken rfl rfl (Nat.le_succ _) (List.Sublist.refl _) (List.Subset.refl _)
      (fun _ htimer => ⟨htimer, rfl⟩) (fun _ _ h => h) fun _ _ h => h
  · have hwait := h.wait ⟨s.nextId, key, route, s.nextId + 1⟩ hnone
    exact hwait.edit hnone rfl rfl rfl rfl rfl (Nat.le_add_right _ 2) (List.Sublist.refl _)
      (List.Subset.refl _) rfl

theorem owner_launchBrowser (s : Pool K R) (launch : Nat) (key : K) (browser : Nat) :
    owner (s.launchBrowser launch key) browser =
      if browser = s.nextId then some key else owner s browser := by
  have hbrowsers : (s.launchBrowser launch key).browsers =
      Function.update s.browsers s.nextId (some ⟨key, true⟩) := rfl
  unfold owner
  rw [hbrowsers, Function.update_apply]
  split <;> rfl

theorem launchBrowser_entries (s : Pool K R) (launch : Nat) (key other : K) :
    (s.launchBrowser launch key).entries other =
      if other = key then { s.entries key with browser := some s.nextId, shutdown := some s.nextId }
      else s.entries other := by
  have hentries : (s.launchBrowser launch key).entries = Function.update s.entries key
      { s.entries key with browser := some s.nextId, shutdown := some s.nextId } := rfl
  rw [hentries, Function.update_apply]

/-- A new browser is in no list yet. -/
theorem Calm.launchBrowser (h : Calm s) (launch : Nat) (key : K) :
    Calm (s.launchBrowser launch key) := by
  have hkept {browser : Nat} {other : K} (hold : owner s browser = some other) :
      owner (s.launchBrowser launch key) browser = some other := by
    rw [owner_launchBrowser, if_neg, hold]
    rintro rfl
    rw [h.fresh _ (Nat.le_refl _)] at hold
    cases hold
  have hnew : owner (s.launchBrowser launch key) s.nextId = some key := by
    rw [owner_launchBrowser, if_pos rfl]
  refine ⟨?_, ?_, fun lease hlease => hkept (h.leased lease hlease), h.unshut, ?_, ?_, ?_⟩
  · intro other browser hbrowser
    rw [launchBrowser_entries] at hbrowser
    split at hbrowser
    · rename_i heq
      obtain rfl := Option.some.inj hbrowser
      exact ⟨heq ▸ hnew, fun hshut => h.known _ hshut (h.fresh _ (Nat.le_refl _))⟩
    · obtain ⟨howner, hunshut⟩ := h.browser other browser hbrowser
      exact ⟨hkept howner, hunshut⟩
  · intro other browser hbrowser
    rw [launchBrowser_entries] at hbrowser
    split at hbrowser
    · rename_i heq
      obtain rfl := Option.some.inj hbrowser
      exact heq ▸ hnew
    · exact hkept (h.shutdown other browser hbrowser)
  · intro browser hbrowser
    obtain ⟨other, hother⟩ := Option.ne_none_iff_exists'.mp (h.known browser hbrowser)
    rw [hkept hother]
    exact Option.some_ne_none _
  · intro browser hfresh
    rw [owner_launchBrowser, if_neg (Nat.ne_of_gt hfresh)]
    exact h.fresh browser (Nat.le_of_succ_le hfresh)
  · intro timer htimer
    obtain ⟨hidle, hleases, hwaits⟩ := h.timers timer htimer
    refine ⟨?_, hleases, hwaits⟩
    rw [launchBrowser_entries]
    split
    · rename_i heq
      exact heq ▸ hidle
    · exact hidle

theorem Calm.settle (h : Calm s) (launch : Nat) (launched : Bool) :
    Calm (s.settle launch launched) := by
  unfold Pool.settle
  split
  · split
    · exact h.launchBrowser launch _
    · exact h.weaken rfl rfl (Nat.le_refl _) (List.Sublist.refl _) (List.Subset.refl _)
        (fun _ htimer => ⟨htimer, rfl⟩) (fun _ _ h => h) fun _ _ h => h
  · exact h

theorem Calm.disconnect (h : Calm s) (browser : Nat) : Calm (s.disconnect browser) := by
  unfold Pool.disconnect
  split
  · rename_i key hbrowser
    refine h.weaken ?_ rfl (Nat.le_refl _) (List.Sublist.refl _) (List.Subset.refl _) ?_ ?_ ?_
    · funext other
      change Option.map Browser.key (Function.update s.browsers browser (some ⟨key, false⟩) other) =
        Option.map Browser.key (s.browsers other)
      rw [Function.update_apply]
      split
      · rename_i heq
        rw [heq, hbrowser]
        rfl
      · rfl
    · intro timer htimer
      refine ⟨htimer, update_same Entry.idleTimer ?_ timer.key⟩
      rfl
    · refine entry_of_update Entry.browser fun found hfound => ?_
      dsimp only at hfound
      split at hfound
      · cases hfound
      · exact hfound
    · exact entry_of_update Entry.shutdown fun _ h => h
  · exact h

theorem Calm.arm (h : Calm s) (hnone : NoTimer s key) (hleases : leasesOf s key = [])
    (hwaits : ∀ waiter ∈ s.waiting, waiter.key ≠ key) : Calm (s.arm key) := by
  have hentries : Calm { s.setEntry key fun entry => { entry with idleTimer := some s.nextId } with
      nextId := s.nextId + 1 } :=
    h.edit hnone rfl rfl rfl rfl rfl (Nat.le_succ _) (List.Sublist.refl _) (List.Subset.refl _) rfl
  refine ⟨hentries.browser, hentries.shutdown, h.leased, h.unshut, h.known, hentries.fresh, ?_⟩
  have hidle : ((s.arm key).entries key).idleTimer = some s.nextId := by
    have hentry : (s.arm key).entries =
        Function.update s.entries key { s.entries key with idleTimer := some s.nextId } := rfl
    rw [hentry, Function.update_self]
  exact List.forall_mem_cons.mpr ⟨⟨hidle, hleases, hwaits⟩, hentries.timers⟩

/-- A timer that fires shuts down a browser without a lease. -/
theorem Calm.expire (h : Calm s) (id : Nat) : Calm (s.expire id) := by
  unfold Pool.expire
  split
  · rename_i timer hfind
    have hmem := List.mem_of_find?_eq_some hfind
    obtain ⟨hidle, hleases, -⟩ := h.timers timer hmem
    have hshut : ∀ browser ∈ (s.entries timer.key).shutdown.toList,
        owner s browser = some timer.key := fun browser hbrowser =>
      h.shutdown timer.key browser (Option.mem_toList.mp hbrowser)
    have hother : ∀ other ∈ s.timers.filter (·.id ≠ id), other.key ≠ timer.key := by
      intro other hother heq
      obtain ⟨hmem', hid⟩ := List.mem_filter.mp hother
      have hidle' := (h.timers other hmem').1
      rw [heq, hidle] at hidle'
      have hfound : timer.id = id := by simpa using List.find?_some hfind
      exact of_decide_eq_true hid ((Option.some.inj hidle').symm.trans hfound)
    have hentry {other : K} {browser : Nat} (hbrowser : (Function.update s.entries timer.key
        { s.entries timer.key with browser := none, shutdown := none, idleTimer := none }
          other).browser = some browser) :
        other ≠ timer.key ∧ (s.entries other).browser = some browser := by
      by_cases heq : other = timer.key
      · subst heq
        rw [Function.update_self] at hbrowser
        cases hbrowser
      · rw [Function.update_of_ne heq] at hbrowser
        exact ⟨heq, hbrowser⟩
    refine ⟨?_, ?_, h.leased, ?_, ?_, h.fresh, ?_⟩
    · intro other browser hbrowser
      obtain ⟨hne, hold⟩ := hentry hbrowser
      obtain ⟨howner, hunshut⟩ := h.browser other browser hold
      refine ⟨howner, fun hmem => ?_⟩
      rcases List.mem_append.mp hmem with hmem | hmem
      · exact hne (Option.some.inj (howner.symm.trans (hshut browser hmem)))
      · exact hunshut hmem
    · intro other browser hbrowser
      exact h.shutdown other browser
        (entry_of_update Entry.shutdown (fun _ h => by cases h) other browser hbrowser)
    · intro lease hlease hmem
      rcases List.mem_append.mp hmem with hmem | hmem
      · have hkey : lease.key = timer.key :=
          Option.some.inj ((h.leased lease hlease).symm.trans (hshut _ hmem))
        have hnone : lease ∈ leasesOf s timer.key :=
          List.mem_filter.mpr ⟨hlease, decide_eq_true hkey⟩
        rw [hleases] at hnone
        cases hnone
      · exact h.unshut lease hlease hmem
    · intro browser hmem
      rcases List.mem_append.mp hmem with hmem | hmem
      · intro hnone
        exact Option.some_ne_none _ ((hshut browser hmem).symm.trans hnone)
      · exact h.known browser hmem
    · intro other hmem
      obtain ⟨hidle', hrest⟩ := h.timers other (List.mem_filter.mp hmem).1
      exact ⟨(congrArg Entry.idleTimer (Function.update_of_ne (hother other hmem) ..)).trans hidle',
        hrest⟩
  · exact h

theorem Calm.acquire [DecidableEq R] (h : Calm s) (key : K) (route : Option R) :
    Calm (s.acquireBrowserLease key route) := by
  unfold Pool.acquireBrowserLease
  split
  · exact h
  · have hreserved := h.reserve key route
    have hnone := h.reserve_timers key route
    dsimp only
    split
    · rename_i browser hbrowser
      split
      · exact (hreserved.grant hnone hbrowser s.nextId route).weaken rfl rfl (Nat.le_succ _)
          (List.Sublist.refl _) (List.Subset.refl _) (fun _ htimer => ⟨htimer, rfl⟩)
          (fun _ _ h => h) fun _ _ h => h
      · exact hreserved.await hnone route
    · exact hreserved.await hnone route

/-- An acquisition waits only where no timer is pending. -/
theorem Calm.landed [DecidableEq R] (h : Calm s) {waiter : Waiter K R} (hwaiter : waiter ∈ s.waiting) :
    Calm (s.landed waiter) ∧ NoTimer (s.landed waiter) waiter.key := by
  have hnone : NoTimer s waiter.key := fun timer htimer heq =>
    (h.timers timer htimer).2.2 waiter hwaiter heq.symm
  exact ⟨h.edit hnone rfl rfl rfl rfl rfl (Nat.le_refl _) (List.Sublist.refl _) List.erase_subset rfl,
    hnone⟩

theorem Calm.proceed [DecidableEq R] (h : Calm s) {waiter : Waiter K R}
    (hwaiter : waiter ∈ s.waiting) (state : LaunchState) : Calm (s.proceed waiter state) := by
  obtain ⟨hlanded, hnone⟩ := h.landed hwaiter
  unfold Pool.proceed
  cases state with
  | pending => exact h
  | failed => exact hlanded.freeRoute waiter.route
  | completed =>
    dsimp only
    split
    · rename_i browser hbrowser
      split
      · exact hlanded.grant hnone hbrowser waiter.id waiter.route
      · exact hlanded.freeRoute waiter.route
    · exact hlanded.freeRoute waiter.route

theorem Calm.resume [DecidableEq R] (h : Calm s) (id : Nat) : Calm (s.resume id) := by
  unfold Pool.resume
  split
  · rename_i waiter hfind
    exact h.proceed (List.mem_of_find?_eq_some hfind) _
  · exact h

/-- A lease that leaves others behind, or no acquisition that waits. -/
theorem Calm.giveBack [DecidableEq R] (h : Calm s) (htallied : Tallied none s) {lease : Lease K R}
    (hlease : lease ∈ s.leases) (hunhurried : (s.entries lease.key).activeContexts = 1 →
      ∀ waiter ∈ s.waiting, waiter.key ≠ lease.key) : Calm (s.giveBack lease) := by
  have hnone : NoTimer s lease.key := by
    intro timer htimer heq
    have hempty := (h.timers timer htimer).2.1
    have hmem : lease ∈ leasesOf s timer.key :=
      List.mem_filter.mpr ⟨hlease, decide_eq_true heq.symm⟩
    rw [hempty] at hmem
    cases hmem
  have hdropped : Calm (s.dropLease lease) :=
    h.edit hnone rfl rfl rfl rfl rfl (Nat.le_refl _) List.erase_sublist (List.Subset.refl _) rfl
  unfold Pool.giveBack
  dsimp only
  split
  · rename_i hzero
    have hlast : (s.entries lease.key).activeContexts = 1 := by
      have hcontexts := htallied.contexts lease.key
      have hmem : lease ∈ leasesOf s lease.key :=
        List.mem_filter.mpr ⟨hlease, decide_eq_true rfl⟩
      have hpos := List.length_pos_of_mem hmem
      have hcount : ((s.dropLease lease).entries lease.key).activeContexts =
          (s.entries lease.key).activeContexts - 1 := congrArg Entry.activeContexts setEntry_self
      omega
    have hempty : leasesOf (s.dropLease lease) lease.key = [] := by
      rw [(htallied.dropLease hlease).contexts] at hzero
      exact List.length_eq_zero_iff.mp hzero
    exact hdropped.arm hnone hempty (hunhurried hlast)
  · exact hdropped

theorem Calm.next [DecidableEq R] (h : Calm s) (htallied : Tallied none s) {event : Event K R}
    (hunhurried : Unhurried s event) : Calm (browserPool.next s event) := by
  cases event with
  | acquire key route => exact h.acquire key route
  | launched launch => exact h.settle launch true
  | launchFailed launch => exact h.settle launch false
  | resume call => exact h.resume call
  | disconnected browser => exact h.disconnect browser
  | release call =>
    have hnext : browserPool.next s (.release call) = s.release call := rfl
    rw [hnext]
    unfold Pool.release
    split
    · rename_i lease hfind
      have hlease := List.mem_of_find?_eq_some hfind
      have hid : lease.id = call := by simpa using List.find?_some hfind
      exact h.giveBack htallied hlease (hunhurried lease hlease hid)
    · exact h
  | expire timer => exact h.expire timer

end Calm

/-! ## Runs -/

theorem Tallied.initial : Tallied none (initial : Pool K R) :=
  ⟨List.Perm.refl _, List.nodup_nil, fun _ => rfl⟩

theorem Calm.initial : Calm (initial : Pool K R) where
  browser := fun _ _ h => by cases h
  shutdown := fun _ _ h => by cases h
  leased := fun _ h => by cases h
  unshut := fun _ h => by cases h
  known := fun _ h => by cases h
  fresh := fun _ _ => rfl
  timers := fun _ h => by cases h

theorem Tallied.accounted {s : Pool K R} (h : Tallied none s) : Accounted s where
  exclusive := (List.sublist_append_right _ _).nodup (h.routes.nodup_iff.mpr h.distinct)
  taken := fun route => by
    rw [← h.routes.mem_iff, Option.toList_none, List.nil_append]
    unfold heldRoutes
    rw [List.mem_append, List.mem_filterMap, List.mem_filterMap]
  contexts := h.contexts

variable [DecidableEq R]

theorem tallied_run (events : List (Event K R)) :
    Tallied none (browserPool.run initial events) :=
  EventSystem.run_inv_true Tallied.initial fun _ event h => h.next event

theorem calm_run {events : List (Event K R)} (h : browserPool.Along Unhurried initial events) :
    Tallied none (browserPool.run initial events) ∧ Calm (browserPool.run initial events) := by
  refine EventSystem.run_inv (P := fun s => Tallied none s ∧ Calm s)
    ⟨Tallied.initial, Calm.initial⟩ ?_ h
  rintro s event ⟨htallied, hcalm⟩ hunhurried
  exact ⟨htallied.next event, hcalm.next htallied hunhurried⟩

/-- In every run the leases, the routes and the contexts agree. While no entry's last lease is
released during an acquisition that waits for its launch, no leased browser is shut down. -/
theorem pool_safe (events : List (Event K R)) :
    Accounted (browserPool.run initial events) ∧
      (browserPool.Along Unhurried initial events → Unshut (browserPool.run initial events)) :=
  ⟨(tallied_run events).accounted, fun h => (calm_run h).2.unshut⟩

/-- A browser that is leased again before its idle timer fires. -/
theorem pool_safe_reused :
    Unshut (browserPool.run (initial : Pool String String)
      [.acquire "chromium:headless" (some "first"), .launched 1, .resume 0, .release 0,
        .acquire "chromium:headless" (some "second"), .expire 3]) :=
  (pool_safe _).2 (by decide +kernel)

/-- The first browser crashes, its lease is released while the second one is launched, and the
timer that this arms shuts down the second one, which is leased. -/
theorem leased_browser_shut_down :
    ¬Unshut (browserPool.run (initial : Pool String String)
      [.acquire "chromium:headless" (some "first"), .launched 1, .resume 0, .disconnected 2,
        .acquire "chromium:headless" (some "second"), .release 0, .launched 4, .resume 3,
        .expire 5]) := by
  unfold Unshut
  decide +kernel

end LinkSuffix.BrowserPool
