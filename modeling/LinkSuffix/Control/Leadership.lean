import LinkSuffix.Lib.Run
import Mathlib.Logic.Function.Basic

/-!
# FencedRun leadership of the control instances

`createDistributedControlStore`: the control instances share one row of `tah_leader_leases` and the
rows of `tah_control_state`, and each keeps the fencing token of its lease in a variable of its own.
Every call is one transaction. `acquireLeader` judges expiry by the clock of the instance
(`Date.now()`), every other call by the clock of the database (`NOW()`).

* `leadership`: the calls of the instances, their starts, and the passing of database time.
* `Issued`: the log of the tokens handed out, in the order of the acquisitions.
* **`fenced_leadership`**: the token grows with every change of owner and every acquisition of a
  lease the acquirer sees expired, no two instances hold one token, stored tokens never decrease,
  and a save under a token that is not current is rejected.
* **`expired_lease_kept`**: an owner whose clock is behind re-acquires its expired lease under the
  same token.
-/

namespace LinkSuffix

open Lib

/-! ## The tables and the instances -/

/-- `instanceId`: the configured id, or a random one. -/
abbrev InstanceId := { id : String // id ≠ "" }

/-- A row of `tah_leader_leases`. -/
structure LeaderLease where
  ownerId : String
  fencingToken : Nat
  expiresAt : Nat
  deriving DecidableEq

/-- A row of `tah_control_state`. -/
structure ControlState where
  payload : String
  version : Nat
  updatedAt : Nat
  updatedBy : String
  fencingToken : Nat
  deriving DecidableEq

/-- The variables of an instance's store. -/
structure ControlInstance where
  fencingToken : Option Nat := none
  closed : Bool := false
  deriving DecidableEq

/-- The database, its clock, and the instances. -/
structure ControlPlane where
  clock : Nat := 0
  lease : Option LeaderLease := none
  states : String → Option ControlState := fun _ => none
  instances : InstanceId → ControlInstance := fun _ => {}

/-- `DEFAULT_LEASE_MS`. -/
def defaultLeaseMs : Nat := 15000

/-- `MIN_LEASE_MS`. -/
def minLeaseMs : Nat := 5000

/-- `MAX_LEASE_MS`. -/
def maxLeaseMs : Nat := 120000

/-- `boundedLeaseMs`; `none` is a value that is no finite number. -/
def boundedLeaseMs (value : Option Int) : Nat :=
  match value with
  | none => defaultLeaseMs
  | some parsed => min maxLeaseMs (max minLeaseMs parsed.toNat)

def ControlPlane.setToken (s : ControlPlane) (id : InstanceId) (token : Option Nat) :
    ControlPlane :=
  { s with instances :=
      Function.update s.instances id { s.instances id with fencingToken := token } }

/-! ## The calls -/

/-- What a call returns or throws. -/
inductive LeaderReply where
  | leader (held : Bool)
  | saved (version fencingToken : Nat)
  | failed (message : String)
  | done
  deriving DecidableEq

/-- `expired` of `acquireLeader`, by the clock of the instance. -/
def LeaderLease.expiredBy (row : LeaderLease) (localNow : Nat) : Bool := row.expiresAt ≤ localNow

/-- The row `acquireLeader` inserts when there is none. -/
def ControlPlane.leaseRow (s : ControlPlane) : LeaderLease :=
  s.lease.getD { ownerId := "", fencingToken := 0, expiresAt := s.clock }

def acquireLeader (s : ControlPlane) (id : InstanceId) (localNow : Nat) (ttlMs : Option Int) :
    ControlPlane × LeaderReply :=
  if (s.instances id).closed then (s, .leader false)
  else
    let row := s.leaseRow
    let expired := row.expiredBy localNow
    if row.ownerId ≠ "" ∧ row.ownerId ≠ id ∧ expired = false then
      (s.setToken id none, .leader false)
    else
      let nextToken :=
        if row.ownerId = id ∧ expired = false then row.fencingToken else row.fencingToken + 1
      let lease : LeaderLease := {
        ownerId := id
        fencingToken := nextToken
        expiresAt := s.clock + boundedLeaseMs ttlMs }
      ({ s with lease := some lease }.setToken id (some nextToken), .leader true)

/-- `fencingToken` where the store is still open. -/
def ControlPlane.heldToken (s : ControlPlane) (id : InstanceId) : Option Nat :=
  if (s.instances id).closed then none else (s.instances id).fencingToken

/-- The row `WHERE owner_id = … AND fencing_token = …` selects. -/
def ControlPlane.ownLease (s : ControlPlane) (id : InstanceId) (token : Nat) : Option LeaderLease :=
  s.lease.filter fun row => row.ownerId = id ∧ row.fencingToken = token

/-- The row that `AND expires_at > NOW()` leaves of it. -/
def ControlPlane.activeLease (s : ControlPlane) (id : InstanceId) (token : Nat) :
    Option LeaderLease :=
  (s.ownLease id token).filter fun row => s.clock < row.expiresAt

def renewLeader (s : ControlPlane) (id : InstanceId) (ttlMs : Option Int) :
    ControlPlane × LeaderReply :=
  match s.heldToken id with
  | none => (s, .leader false)
  | some token =>
    match s.activeLease id token with
    | none => (s.setToken id none, .leader false)
    | some row =>
      ({ s with lease := some { row with expiresAt := s.clock + boundedLeaseMs ttlMs } },
        .leader true)

def releaseLeader (s : ControlPlane) (id : InstanceId) : ControlPlane :=
  match s.heldToken id with
  | none => s
  | some token =>
    match s.ownLease id token with
    | none => s.setToken id none
    | some row =>
      { s with lease := some { row with ownerId := "", expiresAt := s.clock } }.setToken id none

/-- The row a save leaves under its name, where `fencing_token <= EXCLUDED.fencing_token` lets it. -/
def savedState (stored : Option ControlState) (payload : String) (id : InstanceId) (token now : Nat) :
    Option ControlState :=
  match stored with
  | none =>
    some { payload := payload, version := 1, updatedAt := now, updatedBy := id, fencingToken := token }
  | some old =>
    if old.fencingToken ≤ token then
      some { payload := payload, version := old.version + 1, updatedAt := now, updatedBy := id
             fencingToken := token }
    else none

/-- `saveState`; `maxStateBytes` is `MAX_STATE_BYTES`, the payload its JSON text. -/
def saveState (maxStateBytes : Nat) (s : ControlPlane) (id : InstanceId) (name payload : String) :
    ControlPlane × LeaderReply :=
  match s.heldToken id with
  | none => (s, .failed "Cannot save control state without an active fenced leader lease")
  | some token =>
    if maxStateBytes < payload.utf8ByteSize then
      (s, .failed s!"Distributed payload exceeds {maxStateBytes} bytes")
    else
      match (s.activeLease id token).bind fun _ =>
        savedState (s.states name) payload id token s.clock with
      | none =>
        (s.setToken id none, .failed "Control-state write rejected because leadership was lost")
      | some row =>
        ({ s with states := Function.update s.states name (some row) },
          .saved row.version row.fencingToken)

/-- `close`. -/
def closeStore (s : ControlPlane) (id : InstanceId) : ControlPlane :=
  let released := releaseLeader s id
  { released with instances :=
      Function.update released.instances id { released.instances id with closed := true } }

/-! ## The event system -/

/-- A call of an instance, its start, or the passing of database time. The clock of the instance is
read by `acquireLeader` alone, and may show anything. -/
inductive LeaderEvent where
  | start (id : InstanceId)
  | acquireLeader (id : InstanceId) (localNow : Nat) (ttlMs : Option Int)
  | renewLeader (id : InstanceId) (ttlMs : Option Int)
  | releaseLeader (id : InstanceId)
  | saveState (id : InstanceId) (name payload : String)
  | close (id : InstanceId)
  | pass (ms : Nat)
  deriving DecidableEq

/-- The control instances over one database. -/
def leadership (maxStateBytes : Nat) : EventSystem ControlPlane LeaderEvent LeaderReply where
  step s
    | .start id => ({ s with instances := Function.update s.instances id {} }, .done)
    | .acquireLeader id localNow ttlMs => acquireLeader s id localNow ttlMs
    | .renewLeader id ttlMs => renewLeader s id ttlMs
    | .releaseLeader id => (releaseLeader s id, .done)
    | .saveState id name payload => saveState maxStateBytes s id name payload
    | .close id => (closeStore s id, .done)
    | .pass ms => ({ s with clock := s.clock + ms }, .done)

/-! ## What an event does -/

variable {maxStateBytes : Nat} {s s' : ControlPlane} {e : LeaderEvent} {es : List LeaderEvent}
variable {id : InstanceId} {token : Nat} {row : LeaderLease}

/-- The token of the lease row, zero before there is one. -/
def ControlPlane.leaseToken (s : ControlPlane) : Nat := (s.lease.map (·.fencingToken)).getD 0

/-- The owner of the lease row, empty where nobody owns it. -/
def ControlPlane.owner (s : ControlPlane) : String := (s.lease.map (·.ownerId)).getD ""

/-- The token an event hands out: `acquireLeader` that returns `true`. -/
def LeaderEvent.issues (s : ControlPlane) : LeaderEvent → List (InstanceId × Nat)
  | .acquireLeader id localNow ttlMs =>
    let (s', reply) := LinkSuffix.acquireLeader s id localNow ttlMs
    if reply = .leader true then [(id, s'.leaseToken)] else []
  | _ => []

/-- What an event may do to the lease row. -/
inductive LeaderMove (s : ControlPlane) (e : LeaderEvent) (s' : ControlPlane) : Prop where
  | same (hlease : s'.owner = s.owner) (htoken : s'.leaseToken = s.leaseToken)
      (hsilent : e.issues s = [])
  | released (howner : s'.owner = "") (htoken : s'.leaseToken = s.leaseToken)
      (hsilent : e.issues s = [])
  | again (id : InstanceId) (hbefore : s.owner = id) (howner : s'.owner = id)
      (htoken : s'.leaseToken = s.leaseToken) (hissued : e.issues s = [(id, s.leaseToken)])
  | passed (id : InstanceId) (howner : s'.owner = id) (htoken : s'.leaseToken = s.leaseToken + 1)
      (hissued : e.issues s = [(id, s.leaseToken + 1)])

theorem leaseRow_owner : s.leaseRow.ownerId = s.owner := by
  unfold ControlPlane.leaseRow ControlPlane.owner
  cases s.lease <;> rfl

theorem leaseRow_token : s.leaseRow.fencingToken = s.leaseToken := by
  unfold ControlPlane.leaseRow ControlPlane.leaseToken
  cases s.lease <;> rfl

theorem owner_some (h : s.lease = some row) : s.owner = row.ownerId := by
  simp [ControlPlane.owner, h]

theorem leaseToken_some (h : s.lease = some row) : s.leaseToken = row.fencingToken := by
  simp [ControlPlane.leaseToken, h]

theorem ownLease_some (h : s.ownLease id token = some row) :
    s.lease = some row ∧ row.ownerId = id ∧ row.fencingToken = token := by
  unfold ControlPlane.ownLease at h
  simpa using Option.filter_eq_some_iff.mp h

theorem activeLease_some (h : s.activeLease id token = some row) :
    s.lease = some row ∧ row.fencingToken = token ∧ s.clock < row.expiresAt := by
  unfold ControlPlane.activeLease at h
  obtain ⟨hown, hactive⟩ := Option.filter_eq_some_iff.mp h
  obtain ⟨hrow, -, htoken⟩ := ownLease_some hown
  exact ⟨hrow, htoken, by simpa using hactive⟩

/-- The outcomes of `acquireLeader`: refused, the same token again, or the next one. -/
theorem acquireLeader_cases (s : ControlPlane) (id : InstanceId) (localNow : Nat)
    (ttlMs : Option Int) :
    ((acquireLeader s id localNow ttlMs).2 = .leader false ∧
      ((acquireLeader s id localNow ttlMs).1 = s ∨
        (acquireLeader s id localNow ttlMs).1 = s.setToken id none)) ∨
    ((acquireLeader s id localNow ttlMs).2 = .leader true ∧
      ∃ token, (acquireLeader s id localNow ttlMs).1 =
        { s with lease := some ⟨id, token, s.clock + boundedLeaseMs ttlMs⟩ }.setToken id
          (some token) ∧
        (s.owner = id ∧ s.leaseRow.expiredBy localNow = false ∧ token = s.leaseToken ∨
          (s.owner ≠ id ∨ s.leaseRow.expiredBy localNow = true) ∧ token = s.leaseToken + 1)) := by
  unfold acquireLeader
  by_cases hclosed : (s.instances id).closed = true
  · rw [if_pos hclosed]
    exact Or.inl ⟨rfl, Or.inl rfl⟩
  · rw [if_neg hclosed]
    simp only [leaseRow_owner, leaseRow_token]
    by_cases hother : s.owner ≠ "" ∧ s.owner ≠ id ∧ s.leaseRow.expiredBy localNow = false
    · rw [if_pos hother]
      exact Or.inl ⟨rfl, Or.inr rfl⟩
    · rw [if_neg hother]
      refine Or.inr ⟨rfl, _, rfl, ?_⟩
      by_cases hagain : s.owner = id ∧ s.leaseRow.expiredBy localNow = false
      · rw [if_pos hagain]
        exact Or.inl ⟨hagain.1, hagain.2, rfl⟩
      · rw [if_neg hagain]
        refine Or.inr ⟨?_, rfl⟩
        by_cases howner : s.owner = id
        · exact Or.inr (by simpa using fun hlive => hagain ⟨howner, hlive⟩)
        · exact Or.inl howner

theorem issues_acquire (s : ControlPlane) (id : InstanceId) (localNow : Nat) (ttlMs : Option Int) :
    (LeaderEvent.acquireLeader id localNow ttlMs).issues s =
      if (acquireLeader s id localNow ttlMs).2 = .leader true then
        [(id, (acquireLeader s id localNow ttlMs).1.leaseToken)] else [] := rfl

/-- The lease row after a release. -/
theorem releaseLeader_lease (s : ControlPlane) (id : InstanceId) :
    (releaseLeader s id).leaseToken = s.leaseToken ∧
      ((releaseLeader s id).owner = s.owner ∨ (releaseLeader s id).owner = "") := by
  unfold releaseLeader
  split
  · exact ⟨rfl, Or.inl rfl⟩
  · split
    · exact ⟨rfl, Or.inl rfl⟩
    · rename_i row hrow
      exact ⟨(leaseToken_some (ownLease_some hrow).1).symm, Or.inr rfl⟩

/-- **One event on the lease row.** -/
theorem next_lease (maxStateBytes : Nat) (s : ControlPlane) (e : LeaderEvent) :
    LeaderMove s e ((leadership maxStateBytes).next s e) := by
  cases e with
  | start id => exact .same rfl rfl rfl
  | pass ms => exact .same rfl rfl rfl
  | acquireLeader id localNow ttlMs =>
    have hissues := issues_acquire s id localNow ttlMs
    rcases acquireLeader_cases s id localNow ttlMs with ⟨hreply, hsame | hdropped⟩ |
      ⟨hreply, token, hstate, ⟨howner, -, rfl⟩ | ⟨-, rfl⟩⟩
    · rw [hreply, if_neg (by decide)] at hissues
      exact .same (by rw [EventSystem.next, leadership, hsame])
        (by rw [EventSystem.next, leadership, hsame]) hissues
    · rw [hreply, if_neg (by decide)] at hissues
      exact .same (by rw [EventSystem.next, leadership, hdropped]; rfl)
        (by rw [EventSystem.next, leadership, hdropped]; rfl) hissues
    · rw [hreply, if_pos rfl, hstate] at hissues
      exact .again id howner (by rw [EventSystem.next, leadership, hstate]; rfl)
        (by rw [EventSystem.next, leadership, hstate]; rfl) hissues
    · rw [hreply, if_pos rfl, hstate] at hissues
      exact .passed id (by rw [EventSystem.next, leadership, hstate]; rfl)
        (by rw [EventSystem.next, leadership, hstate]; rfl) hissues
  | renewLeader id ttlMs =>
    show LeaderMove s _ (renewLeader s id ttlMs).1
    unfold renewLeader
    split
    · exact .same rfl rfl rfl
    · split
      · exact .same rfl rfl rfl
      · rename_i row hrow
        obtain ⟨hlease, -, -⟩ := activeLease_some hrow
        exact .same (owner_some hlease).symm (leaseToken_some hlease).symm rfl
  | releaseLeader id =>
    obtain ⟨htoken, howner | howner⟩ := releaseLeader_lease s id
    · exact .same howner htoken rfl
    · exact .released howner htoken rfl
  | close id =>
    obtain ⟨htoken, howner | howner⟩ := releaseLeader_lease s id
    · exact .same howner htoken rfl
    · exact .released howner htoken rfl
  | saveState id name payload =>
    show LeaderMove s _ (saveState maxStateBytes s id name payload).1
    unfold saveState
    split
    · exact .same rfl rfl rfl
    · split
      · exact .same rfl rfl rfl
      · split <;> exact .same rfl rfl rfl

theorem setToken_held {id j : InstanceId} {t : Option Nat} {held : Nat}
    (h : ((s.setToken id t).instances j).fencingToken = some held) :
    (s.instances j).fencingToken = some held ∨ (j = id ∧ t = some held) := by
  simp only [ControlPlane.setToken, Function.update_apply] at h
  split at h
  · rename_i hj
    exact Or.inr ⟨hj, h⟩
  · exact Or.inl h

theorem setToken_none_held {id j : InstanceId} {held : Nat}
    (h : ((s.setToken id none).instances j).fencingToken = some held) :
    (s.instances j).fencingToken = some held := by
  rcases setToken_held h with h | ⟨-, h⟩
  · exact h
  · exact absurd h (by simp)

theorem releaseLeader_held {id j : InstanceId} {held : Nat}
    (h : ((releaseLeader s id).instances j).fencingToken = some held) :
    (s.instances j).fencingToken = some held := by
  unfold releaseLeader at h
  split at h
  · exact h
  · split at h
    · exact setToken_none_held h
    · exact setToken_none_held h

/-- **One event on the held tokens**: a token is held only by an instance that held it, or that
the event hands it to. -/
theorem next_held {j : InstanceId} {held : Nat}
    (h : (((leadership maxStateBytes).next s e).instances j).fencingToken = some held) :
    (s.instances j).fencingToken = some held ∨ (j, held) ∈ e.issues s := by
  cases e with
  | pass ms => exact Or.inl h
  | start id =>
    simp only [EventSystem.next, leadership, Function.update_apply] at h
    split at h
    · exact absurd h (by simp)
    · exact Or.inl h
  | acquireLeader id localNow ttlMs =>
    change ((acquireLeader s id localNow ttlMs).1.instances j).fencingToken = some held at h
    have hissues := issues_acquire s id localNow ttlMs
    rcases acquireLeader_cases s id localNow ttlMs with ⟨-, hsame | hdropped⟩ |
      ⟨hreply, token, hstate, -⟩
    · rw [hsame] at h
      exact Or.inl h
    · rw [hdropped] at h
      exact Or.inl (setToken_none_held h)
    · rw [hstate] at h
      rcases setToken_held h with h | ⟨hj, htoken⟩
      · exact Or.inl h
      · rw [hreply, if_pos rfl, hstate] at hissues
        rw [hissues, hj, ← Option.some.inj htoken]
        exact Or.inr (List.mem_singleton.mpr rfl)
  | renewLeader id ttlMs =>
    change ((renewLeader s id ttlMs).1.instances j).fencingToken = some held at h
    unfold renewLeader at h
    split at h
    · exact Or.inl h
    · split at h
      · exact Or.inl (setToken_none_held h)
      · exact Or.inl h
  | releaseLeader id => exact Or.inl (releaseLeader_held h)
  | close id =>
    simp only [EventSystem.next, leadership, closeStore, Function.update_apply] at h
    split at h
    · rename_i hj
      subst hj
      exact Or.inl (releaseLeader_held h)
    · exact Or.inl (releaseLeader_held h)
  | saveState id name payload =>
    change ((saveState maxStateBytes s id name payload).1.instances j).fencingToken = some held at h
    unfold saveState at h
    split at h
    · exact Or.inl h
    · split at h
      · exact Or.inl h
      · split at h
        · exact Or.inl (setToken_none_held h)
        · exact Or.inl h

/-- The token stored under a name, zero before the first save. -/
def ControlPlane.storedToken (s : ControlPlane) (name : String) : Nat :=
  ((s.states name).map (·.fencingToken)).getD 0

theorem storedToken_congr (h : s'.states = s.states) (name : String) :
    s'.storedToken name = s.storedToken name := by
  unfold ControlPlane.storedToken
  rw [h]

theorem savedState_token {stored : Option ControlState} {payload : String} {now : Nat}
    {saved : ControlState} (h : savedState stored payload id token now = some saved) :
    (stored.map (·.fencingToken)).getD 0 ≤ saved.fencingToken := by
  unfold savedState at h
  split at h
  · simp
  · split at h
    · rename_i old hle
      rw [← Option.some.inj h]
      simpa using hle
    · exact absurd h (by simp)

theorem releaseLeader_states (s : ControlPlane) (id : InstanceId) :
    (releaseLeader s id).states = s.states := by
  unfold releaseLeader
  split
  · rfl
  · split <;> rfl

/-- **One event on the stored states.** -/
theorem next_stored (s : ControlPlane) (e : LeaderEvent) (name : String) :
    s.storedToken name ≤ ((leadership maxStateBytes).next s e).storedToken name := by
  cases e with
  | start id => exact Nat.le_refl _
  | pass ms => exact Nat.le_refl _
  | acquireLeader id localNow ttlMs =>
    show _ ≤ (acquireLeader s id localNow ttlMs).1.storedToken name
    rcases acquireLeader_cases s id localNow ttlMs with ⟨-, hstate | hstate⟩ |
      ⟨-, token, hstate, -⟩ <;> rw [hstate] <;> exact Nat.le_refl _
  | renewLeader id ttlMs =>
    show _ ≤ (renewLeader s id ttlMs).1.storedToken name
    unfold renewLeader
    split
    · exact Nat.le_refl _
    · split <;> exact Nat.le_refl _
  | releaseLeader id =>
    exact Nat.le_of_eq (storedToken_congr (releaseLeader_states s id) name).symm
  | close id =>
    exact Nat.le_of_eq (storedToken_congr (releaseLeader_states s id) name).symm
  | saveState id saved payload =>
    show _ ≤ (saveState maxStateBytes s id saved payload).1.storedToken name
    unfold saveState
    split
    · exact Nat.le_refl _
    · split
      · exact Nat.le_refl _
      · split
        · exact Nat.le_refl _
        · rename_i row hsaved
          obtain ⟨_, -, hrow⟩ := Option.bind_eq_some_iff.mp hsaved
          simp only [ControlPlane.storedToken, Function.update_apply]
          split
          · rename_i hname
            rw [hname]
            exact savedState_token hrow
          · exact Nat.le_refl _

/-- A save under a token that is not the current unexpired one is rejected, and writes nothing. -/
theorem saveState_stale {name payload : String}
    (hstale : ∀ row, s.lease = some row → (s.instances id).fencingToken = some row.fencingToken →
      ¬s.clock < row.expiresAt) :
    (∃ message, (saveState maxStateBytes s id name payload).2 = .failed message) ∧
      (saveState maxStateBytes s id name payload).1.states = s.states := by
  unfold saveState
  split
  · exact ⟨⟨_, rfl⟩, rfl⟩
  · rename_i token hheld
    have htoken : (s.instances id).fencingToken = some token := by
      unfold ControlPlane.heldToken at hheld
      split at hheld
      · exact absurd hheld (by simp)
      · exact hheld
    have hnone : s.activeLease id token = none := by
      cases hactive : s.activeLease id token with
      | none => rfl
      | some row =>
        obtain ⟨hrow, hrowToken, hlive⟩ := activeLease_some hactive
        exact absurd hlive (hstale row hrow (by rw [htoken, hrowToken]))
    split
    · exact ⟨⟨_, rfl⟩, rfl⟩
    · rw [hnone]
      exact ⟨⟨_, rfl⟩, rfl⟩

/-! ## The tokens handed out -/

/-- The tokens handed out in a run, in order. -/
def issued (maxStateBytes : Nat) (es : List LeaderEvent) : List (InstanceId × Nat) :=
  (leadership maxStateBytes).collect (fun s e => e.issues s) {} es

/-- The log of the tokens against the lease row and the held tokens. -/
structure Issued (log : List (InstanceId × Nat)) (s : ControlPlane) : Prop where
  le_leaseToken : ∀ p ∈ log, p.2 ≤ s.leaseToken
  one_holder : ∀ p ∈ log, ∀ q ∈ log, p.2 = q.2 → p.1 = q.1
  current : ∀ p ∈ log, p.2 = s.leaseToken → s.owner = p.1 ∨ s.owner = ""
  held : ∀ id token, (s.instances id).fencingToken = some token → (id, token) ∈ log

theorem issued_initial : Issued [] {} where
  le_leaseToken := by simp
  one_holder := by simp
  current := by simp
  held := by simp

/-- Handing out a token that no other instance was ever handed. -/
theorem Issued.issue {log : List (InstanceId × Nat)} (h : Issued log s)
    (hle : s.leaseToken ≤ token) (hfree : ∀ p ∈ log, p.2 = token → p.1 = id)
    (howner : s'.owner = id) (htoken : s'.leaseToken = token)
    (hheld : ∀ j t, (s'.instances j).fencingToken = some t → (j, t) ∈ log ++ [(id, token)]) :
    Issued (log ++ [(id, token)]) s' := by
  have hmine : ∀ p ∈ log ++ [(id, token)], p.2 = token → p.1 = id := by
    intro p hp heq
    rcases List.mem_append.mp hp with hp | hp
    · exact hfree p hp heq
    · rw [List.mem_singleton.mp hp]
  refine ⟨?_, ?_, ?_, hheld⟩
  · intro p hp
    rw [htoken]
    rcases List.mem_append.mp hp with hp | hp
    · exact Nat.le_trans (h.le_leaseToken p hp) hle
    · exact Nat.le_of_eq (congrArg Prod.snd (List.mem_singleton.mp hp))
  · intro p hp q hq heq
    rcases List.mem_append.mp hp with hp | hp
    · rcases List.mem_append.mp hq with hq | hq
      · exact h.one_holder p hp q hq heq
      · rw [List.mem_singleton.mp hq] at heq ⊢
        exact hfree p hp heq
    · rw [List.mem_singleton.mp hp] at heq ⊢
      exact (hmine q hq heq.symm).symm
  · intro p hp heq
    rw [howner, hmine p hp (heq.trans htoken)]
    exact Or.inl rfl

/-- **The step lemma of the log.** -/
theorem issued_step (maxStateBytes : Nat) {log : List (InstanceId × Nat)} (h : Issued log s)
    (e : LeaderEvent) : Issued (log ++ e.issues s) ((leadership maxStateBytes).next s e) := by
  have hheld : ∀ id token,
      (((leadership maxStateBytes).next s e).instances id).fencingToken = some token →
        (id, token) ∈ log ++ e.issues s := by
    intro id token htoken
    rcases next_held htoken with hbefore | hnew
    · exact List.mem_append_left _ (h.held id token hbefore)
    · exact List.mem_append_right _ hnew
  cases next_lease maxStateBytes s e with
  | same howner htoken hsilent =>
    rw [hsilent, List.append_nil] at hheld ⊢
    refine ⟨?_, h.one_holder, ?_, hheld⟩
    · rw [htoken]
      exact h.le_leaseToken
    · rw [htoken, howner]
      exact h.current
  | released howner htoken hsilent =>
    rw [hsilent, List.append_nil] at hheld ⊢
    refine ⟨?_, h.one_holder, fun p _ _ => Or.inr howner, hheld⟩
    rw [htoken]
    exact h.le_leaseToken
  | again id hbefore howner htoken hissued =>
    rw [hissued] at hheld ⊢
    refine h.issue (Nat.le_refl _) ?_ howner htoken hheld
    intro p hp heq
    rcases h.current p hp heq with hp' | hp'
    · exact Subtype.ext (hp'.symm.trans hbefore)
    · exact absurd (hbefore.symm.trans hp') id.2
  | passed id howner htoken hissued =>
    rw [hissued] at hheld ⊢
    refine h.issue (Nat.le_succ _) ?_ howner htoken hheld
    intro p hp heq
    have hle := h.le_leaseToken p hp
    omega

theorem issued_run (maxStateBytes : Nat) (es : List LeaderEvent) :
    Issued (issued maxStateBytes es) ((leadership maxStateBytes).run {} es) := by
  refine EventSystem.history_inv (M := leadership maxStateBytes) (G := fun _ _ => True)
    (P := fun es s => Issued (issued maxStateBytes es) s) issued_initial ?_ EventSystem.along_true
  intro es e _ h
  have hstep := issued_step maxStateBytes h e
  unfold issued
  rw [EventSystem.collect_concat]
  exact hstep

/-! ## Whole runs -/

theorem leaseToken_mono (s : ControlPlane) (es : List LeaderEvent) :
    s.leaseToken ≤ ((leadership maxStateBytes).run s es).leaseToken := by
  refine EventSystem.run_inv_true (P := fun s' : ControlPlane => s.leaseToken ≤ s'.leaseToken)
    (Nat.le_refl _) ?_
  intro s' e h
  cases next_lease maxStateBytes s' e with
  | same _ htoken _ => rwa [htoken]
  | released _ htoken _ => rwa [htoken]
  | again _ _ _ htoken _ => rwa [htoken]
  | passed _ _ htoken _ =>
    rw [htoken]
    exact Nat.le_succ_of_le h

/-- The lease stays with its owner, or nobody, until the token grows. -/
theorem owner_stays (maxStateBytes : Nat) (s : ControlPlane) (es : List LeaderEvent) :
    s.leaseToken < ((leadership maxStateBytes).run s es).leaseToken ∨
      (((leadership maxStateBytes).run s es).leaseToken = s.leaseToken ∧
        (((leadership maxStateBytes).run s es).owner = s.owner ∨
          ((leadership maxStateBytes).run s es).owner = "")) := by
  refine EventSystem.run_inv_true (P := fun s' : ControlPlane => s.leaseToken < s'.leaseToken ∨
    (s'.leaseToken = s.leaseToken ∧ (s'.owner = s.owner ∨ s'.owner = "")))
    (Or.inr ⟨rfl, Or.inl rfl⟩) ?_
  intro s' e h
  cases next_lease maxStateBytes s' e with
  | same howner htoken _ => rwa [howner, htoken]
  | released howner htoken _ =>
    rw [howner, htoken]
    exact h.imp_right fun hsame => ⟨hsame.1, Or.inr rfl⟩
  | again id hbefore howner htoken _ => rwa [howner, htoken, ← hbefore]
  | passed _ _ htoken _ =>
    rw [htoken]
    exact Or.inl (by omega)

theorem storedToken_mono (s : ControlPlane) (es : List LeaderEvent) (name : String) :
    s.storedToken name ≤ ((leadership maxStateBytes).run s es).storedToken name :=
  EventSystem.run_inv_true (P := fun s' : ControlPlane => s.storedToken name ≤ s'.storedToken name)
    (Nat.le_refl _) fun s' e h => Nat.le_trans h (next_stored s' e name)

theorem issued_mono (es fs : List LeaderEvent) {p : InstanceId × Nat}
    (h : p ∈ issued maxStateBytes es) : p ∈ issued maxStateBytes (es ++ fs) := by
  unfold issued at h ⊢
  rw [EventSystem.collect_append]
  exact List.mem_append_left _ h

/-- What holds at every point of a run from the empty database. -/
structure FencedRun (maxStateBytes : Nat) (es : List LeaderEvent) : Prop where
  /-- The token of the lease row never decreases. -/
  token_mono : ∀ pre post, es = pre ++ post →
    ((leadership maxStateBytes).run {} pre).leaseToken ≤
      ((leadership maxStateBytes).run {} es).leaseToken
  /-- It is larger whenever the lease has passed to a different instance. -/
  token_passes : ∀ pre post (id id' : InstanceId), es = pre ++ post → id ≠ id' →
    ((leadership maxStateBytes).run {} pre).owner = id →
    ((leadership maxStateBytes).run {} es).owner = id' →
    ((leadership maxStateBytes).run {} pre).leaseToken <
      ((leadership maxStateBytes).run {} es).leaseToken
  /-- It grows when a lease is acquired that its acquirer sees expired. -/
  token_expired : ∀ pre post id localNow ttlMs,
    es = pre ++ .acquireLeader id localNow ttlMs :: post →
    (leadership maxStateBytes).reply ((leadership maxStateBytes).run {} pre)
      (.acquireLeader id localNow ttlMs) = .leader true →
    (∀ row, ((leadership maxStateBytes).run {} pre).lease = some row → row.expiredBy localNow) →
    ((leadership maxStateBytes).run {} pre).leaseToken <
      ((leadership maxStateBytes).run {} (pre ++ [.acquireLeader id localNow ttlMs])).leaseToken
  /-- No two instances hold one token, at the same time or at different times. -/
  held_once : ∀ pre post id id' token, es = pre ++ post →
    (((leadership maxStateBytes).run {} pre).instances id).fencingToken = some token →
    (((leadership maxStateBytes).run {} es).instances id').fencingToken = some token → id = id'
  /-- The token stored under a name never decreases. -/
  stored_mono : ∀ pre post name, es = pre ++ post →
    ((leadership maxStateBytes).run {} pre).storedToken name ≤
      ((leadership maxStateBytes).run {} es).storedToken name
  /-- A save under a token that is not the current unexpired one fails and writes nothing. -/
  stale_save : ∀ pre post id name payload, es = pre ++ .saveState id name payload :: post →
    (∀ row, ((leadership maxStateBytes).run {} pre).lease = some row →
      (((leadership maxStateBytes).run {} pre).instances id).fencingToken = some row.fencingToken →
      ¬((leadership maxStateBytes).run {} pre).clock < row.expiresAt) →
    (∃ message, (leadership maxStateBytes).reply ((leadership maxStateBytes).run {} pre)
      (.saveState id name payload) = .failed message) ∧
    ((leadership maxStateBytes).run {} (pre ++ [.saveState id name payload])).states =
      ((leadership maxStateBytes).run {} pre).states

/-- **Leadership is fenced** in every order of the calls, with every clock of the instances. -/
theorem fenced_leadership (maxStateBytes : Nat) (es : List LeaderEvent) :
    FencedRun maxStateBytes es where
  token_mono := by
    rintro pre post rfl
    rw [EventSystem.run_append]
    exact leaseToken_mono _ post
  token_passes := by
    rintro pre post id id' rfl hne hbefore hafter
    rw [EventSystem.run_append] at hafter ⊢
    rcases owner_stays maxStateBytes _ post with hgrown | ⟨-, hsame | hfree⟩
    · exact hgrown
    · exact absurd (Subtype.ext (hbefore.symm.trans (hsame.symm.trans hafter))) hne
    · exact absurd (hafter.symm.trans hfree) id'.2
  token_expired := by
    rintro pre post id localNow ttlMs - hreply hexpired
    rw [EventSystem.run_concat]
    generalize (leadership maxStateBytes).run {} pre = s at hreply hexpired ⊢
    have hrow : s.lease = none ∨ s.leaseRow.expiredBy localNow = true := by
      cases hlease : s.lease with
      | none => exact Or.inl rfl
      | some row => exact Or.inr (by simpa [ControlPlane.leaseRow, hlease] using hexpired row hlease)
    change (acquireLeader s id localNow ttlMs).2 = .leader true at hreply
    rcases acquireLeader_cases s id localNow ttlMs with ⟨hrefused, -⟩ |
      ⟨-, token, hstate, ⟨howner, hlive, -⟩ | ⟨-, rfl⟩⟩
    · rw [hreply] at hrefused
      exact absurd hrefused (by decide)
    · rcases hrow with hnone | hexpired
      · exact absurd (howner.symm.trans (by simp [ControlPlane.owner, hnone])) id.2
      · exact absurd (hlive.symm.trans hexpired) (by decide)
    · show s.leaseToken < (acquireLeader s id localNow ttlMs).1.leaseToken
      rw [hstate]
      exact Nat.lt_succ_self _
  held_once := by
    rintro pre post id id' token rfl hbefore hafter
    have hissued := issued_run maxStateBytes (pre ++ post)
    have hfirst := (issued_run maxStateBytes pre).held id token hbefore
    have hlast := hissued.held id' token hafter
    exact hissued.one_holder _ (issued_mono pre post hfirst) _ hlast rfl
  stored_mono := by
    rintro pre post name rfl
    rw [EventSystem.run_append]
    exact storedToken_mono _ post name
  stale_save := by
    rintro pre post id name payload - hstale
    rw [EventSystem.run_concat]
    exact saveState_stale hstale

/-! ## A clock that is behind -/

/-- **An owner whose clock is behind re-acquires an expired lease under the same token.** -/
theorem expired_lease_kept :
    ¬∀ (maxStateBytes : Nat) (pre : List LeaderEvent) (id : InstanceId) (localNow : Nat)
        (ttlMs : Option Int),
      (leadership maxStateBytes).reply ((leadership maxStateBytes).run {} pre)
        (.acquireLeader id localNow ttlMs) = .leader true →
      (∀ row ∈ ((leadership maxStateBytes).run {} pre).lease,
        row.expiresAt ≤ ((leadership maxStateBytes).run {} pre).clock) →
      ((leadership maxStateBytes).run {} pre).leaseToken <
        ((leadership maxStateBytes).run {}
          (pre ++ [.acquireLeader id localNow ttlMs])).leaseToken := by
  intro hall
  have hgrown := hall 1000 [.acquireLeader ⟨"control-1", by decide⟩ 0 (some 15000), .pass 20000]
    ⟨"control-1", by decide⟩ 0 (some 15000) (by decide) (by decide)
  exact absurd hgrown (by decide)

end LinkSuffix
