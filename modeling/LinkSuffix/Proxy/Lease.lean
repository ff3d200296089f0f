import LinkSuffix.Text
import LinkSuffix.Lib.Table

/-!
# Proxy leases and their repository

A row of `tah_proxy_leases` and the statements of `createPostgresProxyLeaseRepository`, each on the
whole table. A `LeaseTable` carries what the schema promises: lease ids are distinct, fencing tokens
come from one sequence, and one endpoint of a pool has at most one active row
(`tah_proxy_leases_active_endpoint_idx`).

* `LeaseTable.rewrite`, `LeaseTable.insert`: the two ways a statement changes the table.
* `reserve`, `renew`, `release`, `reapExpired`: the statements.
-/

namespace LinkSuffix

open Lib

/-! ## Rows -/

/-- The `state` column of `tah_proxy_leases`. -/
inductive LeaseState where
  | active | released | expired | quarantined
  deriving DecidableEq

/-- What a lease is reserved for: the input of `reserve` without its time. -/
structure Reservation where
  providerId : String
  poolId : String
  campaignId : String
  endpointKey : String
  ownerId : String
  sessionId : Option String
  rotationMode : String
  deriving DecidableEq

/-- A row of `tah_proxy_leases`; the random `lease_id` is the number of the draw. -/
structure ProxyLease extends Reservation where
  leaseId : Nat
  fencingToken : Nat
  state : LeaseState
  createdAt : Nat
  expiresAt : Nat
  deriving DecidableEq

/-- The columns of `tah_proxy_leases_active_endpoint_idx`. -/
def Reservation.slot (lease : Reservation) : String × String × String :=
  (lease.providerId, lease.poolId, lease.endpointKey)

/-- `boundedTtl`; `none` is a value that is no finite number. -/
def boundedTtl (value : Option Int) : Nat :=
  match value with
  | none => 120000
  | some ttl => min (24 * 60 * 60000) (max 10000 ttl.toNat)

theorem boundedTtl_pos (value : Option Int) : 0 < boundedTtl value := by
  cases value with
  | none => decide
  | some ttl =>
    simp only [boundedTtl]
    omega

/-! ## The table -/

/-- What a statement that is no insert does to one row. -/
structure Rewrites (lease lease' : ProxyLease) : Prop where
  request : lease'.toReservation = lease.toReservation
  leaseId : lease'.leaseId = lease.leaseId
  fencingToken : lease'.fencingToken = lease.fencingToken
  active : lease'.state = .active → lease.state = .active

theorem Rewrites.rfl (lease : ProxyLease) : Rewrites lease lease where
  request := by trivial
  leaseId := by trivial
  fencingToken := by trivial
  active := id

/-- The rows of `tah_proxy_leases`, the last value of `tah_proxy_lease_fencing_seq`, and the number
of the next draw of a `lease_id`. -/
structure LeaseTable where
  leases : List ProxyLease
  fence : Nat
  nextId : Nat
  fresh : ∀ lease ∈ leases, lease.leaseId < nextId
  fenced : ∀ lease ∈ leases, lease.fencingToken ≤ fence
  distinct : (leases.map (·.leaseId)).Nodup
  exclusive : leases.Pairwise fun a b => a.state = .active → b.state = .active → a.slot ≠ b.slot

namespace LeaseTable

variable {t : LeaseTable} {lease lease' : ProxyLease} {request : Reservation}

/-- The empty table. -/
def empty : LeaseTable where
  leases := []
  fence := 0
  nextId := 0
  fresh := by simp
  fenced := by simp
  distinct := by simp
  exclusive := by simp

/-- Every row rewritten in place. -/
def rewrite (t : LeaseTable) (f : ProxyLease → ProxyLease) (hf : ∀ lease, Rewrites lease (f lease)) :
    LeaseTable where
  leases := t.leases.map f
  fence := t.fence
  nextId := t.nextId
  fresh := by
    intro lease h
    obtain ⟨old, hold, rfl⟩ := List.mem_map.mp h
    rw [(hf old).leaseId]
    exact t.fresh old hold
  fenced := by
    intro lease h
    obtain ⟨old, hold, rfl⟩ := List.mem_map.mp h
    rw [(hf old).fencingToken]
    exact t.fenced old hold
  distinct := by
    have hids : (t.leases.map f).map (·.leaseId) = t.leases.map (·.leaseId) := by
      rw [List.map_map]
      exact List.map_congr_left fun lease _ => (hf lease).leaseId
    rw [hids]
    exact t.distinct
  exclusive := by
    refine List.pairwise_map.mpr (t.exclusive.imp fun {a b} h ha hb => ?_)
    rw [(hf a).request, (hf b).request]
    exact h ((hf a).active ha) ((hf b).active hb)

/-- The next value of the fencing sequence, drawn by an insert that found a conflict. -/
def skipFence (t : LeaseTable) : LeaseTable :=
  { t with
    fence := t.fence + 1
    nextId := t.nextId + 1
    fresh := fun lease h => Nat.lt_succ_of_lt (t.fresh lease h)
    fenced := fun lease h => Nat.le_succ_of_le (t.fenced lease h) }

/-- An active row of the request's endpoint and pool. -/
def occupied (t : LeaseTable) (request : Reservation) : Prop :=
  ∃ lease ∈ t.leases, lease.state = .active ∧ lease.slot = request.slot

instance (t : LeaseTable) (request : Reservation) : Decidable (t.occupied request) :=
  inferInstanceAs (Decidable (∃ lease ∈ t.leases, _ ∧ _))

/-- The row an insert adds. -/
def newLease (t : LeaseTable) (request : Reservation) (ttlMs now : Nat) : ProxyLease where
  toReservation := request
  leaseId := t.nextId
  fencingToken := t.fence + 1
  state := .active
  createdAt := now
  expiresAt := now + ttlMs

/-- An active row for a free endpoint, under the next fencing token. -/
def insert (t : LeaseTable) (request : Reservation) (ttlMs now : Nat) (h : ¬t.occupied request) :
    LeaseTable where
  leases := t.leases ++ [t.newLease request ttlMs now]
  fence := t.fence + 1
  nextId := t.nextId + 1
  fresh := by
    intro lease hmem
    rcases List.mem_append.mp hmem with hold | hnew
    · exact Nat.lt_succ_of_lt (t.fresh lease hold)
    · rw [List.mem_singleton.mp hnew]
      exact Nat.lt_succ_self _
  fenced := by
    intro lease hmem
    rcases List.mem_append.mp hmem with hold | hnew
    · exact Nat.le_succ_of_le (t.fenced lease hold)
    · rw [List.mem_singleton.mp hnew]
      exact Nat.le_refl _
  distinct := by
    refine nodup_map_concat t.distinct fun hmem => ?_
    obtain ⟨lease, hlease, heq⟩ := List.mem_map.mp hmem
    exact Nat.lt_irrefl _ (heq ▸ t.fresh lease hlease)
  exclusive := by
    refine List.pairwise_append.mpr ⟨t.exclusive, List.pairwise_singleton _ _, ?_⟩
    intro lease hlease new hnew hactive _ hslot
    rw [List.mem_singleton.mp hnew] at hslot
    exact h ⟨lease, hlease, hactive, hslot⟩

/-! ## The statements -/

/-- `state = 'active' AND expires_at <= NOW()`: the row a sweep leaves. -/
def sweepRow (now : Nat) (lease : ProxyLease) : ProxyLease :=
  if lease.state = .active ∧ lease.expiresAt ≤ now then { lease with state := .expired } else lease

theorem sweepRow_rewrites (now : Nat) (lease : ProxyLease) :
    Rewrites lease (sweepRow now lease) := by
  unfold sweepRow
  split
  · exact ⟨rfl, rfl, rfl, by simp⟩
  · exact Rewrites.rfl lease

/-- `reapExpired`. -/
def reapExpired (t : LeaseTable) (now : Nat) : LeaseTable :=
  t.rewrite (sweepRow now) (sweepRow_rewrites now)

/-- `INSERT … ON CONFLICT DO NOTHING RETURNING *`. -/
def insertLease (t : LeaseTable) (request : Reservation) (ttlMs now : Nat) :
    LeaseTable × Option ProxyLease :=
  if h : t.occupied request then (t.skipFence, none)
  else (t.insert request ttlMs now h, some (t.newLease request ttlMs now))

/-- `reserve`: expired rows are swept, and the insert finds its endpoint free or not. -/
def reserve (t : LeaseTable) (request : Reservation) (ttlMs now : Nat) :
    LeaseTable × Option ProxyLease :=
  (t.reapExpired now).insertLease request ttlMs now

/-- `lease_id = … AND owner_id = … AND fencing_token = … AND state = 'active'`. -/
def holds (ownerId : String) (leaseId fencingToken : Nat) (lease : ProxyLease) : Bool :=
  lease.leaseId = leaseId ∧ lease.ownerId = ownerId ∧ lease.fencingToken = fencingToken ∧
    lease.state = .active

/-- The row a release leaves. -/
def releaseRow (ownerId : String) (leaseId fencingToken : Nat) (state : LeaseState)
    (lease : ProxyLease) : ProxyLease :=
  if holds ownerId leaseId fencingToken lease then { lease with state := state } else lease

theorem releaseRow_rewrites (ownerId : String) (leaseId fencingToken : Nat) (state : LeaseState)
    (lease : ProxyLease) :
    Rewrites lease (releaseRow ownerId leaseId fencingToken state lease) := by
  unfold releaseRow
  split
  · rename_i h
    simp only [holds, decide_eq_true_eq] at h
    exact ⟨rfl, rfl, rfl, fun _ => h.2.2.2⟩
  · exact Rewrites.rfl lease

/-- `release`. -/
def release (t : LeaseTable) (ownerId : String) (leaseId fencingToken : Nat) (state : LeaseState) :
    LeaseTable × Bool :=
  (t.rewrite (releaseRow ownerId leaseId fencingToken state)
      (releaseRow_rewrites ownerId leaseId fencingToken state),
    t.leases.any (holds ownerId leaseId fencingToken))

/-- The row a renewal leaves. -/
def renewRow (ownerId : String) (leaseId fencingToken ttlMs now : Nat) (lease : ProxyLease) :
    ProxyLease :=
  if holds ownerId leaseId fencingToken lease ∧ now < lease.expiresAt then
    { lease with expiresAt := now + ttlMs }
  else lease

theorem renewRow_rewrites (ownerId : String) (leaseId fencingToken ttlMs now : Nat)
    (lease : ProxyLease) :
    Rewrites lease (renewRow ownerId leaseId fencingToken ttlMs now lease) := by
  unfold renewRow
  split
  · exact ⟨rfl, rfl, rfl, id⟩
  · exact Rewrites.rfl lease

/-- `renew`. -/
def renew (t : LeaseTable) (ownerId : String) (leaseId fencingToken ttlMs now : Nat) :
    LeaseTable × Option ProxyLease :=
  (t.rewrite (renewRow ownerId leaseId fencingToken ttlMs now)
      (renewRow_rewrites ownerId leaseId fencingToken ttlMs now),
    (t.leases.find? fun lease => holds ownerId leaseId fencingToken lease ∧ now < lease.expiresAt).map
      (renewRow ownerId leaseId fencingToken ttlMs now))

end LeaseTable

end LinkSuffix
