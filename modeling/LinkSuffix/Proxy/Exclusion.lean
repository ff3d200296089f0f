import LinkSuffix.Proxy.Coordinator
import Mathlib.Data.List.Pairwise

/-!
# One holder of a proxy endpoint

A row of `tah_proxy_leases` says that a lease is active and until when, the lock entry under its
endpoint who has it. The entry is written after the row with the same TTL, so it lasts longer; a
renewal extends the row first, and until its second step the entry may expire under it.

* `Extends`, `Ends`: what a step does to the rows.
* `LeaseCall.Ok`, `Exclusive`: the invariant, over the operations in the middle of their steps.
* `Steady`: no renewal outlasts another one of its lease that is between its steps.
* **`proxy_exclusion`**: then an endpoint has one holder that is not in the middle of a renewal.
  In every interleaving tokens increase from reservation to reservation, and stale holders are
  harmless.
* **`renewal_overlaps`**: a lease in the middle of a renewal beside its successor.
-/

namespace LinkSuffix

open Lib

/-! ## One row of the table -/

namespace LeaseTable

variable {t t' : LeaseTable} {id : Nat} {row row' lease : ProxyLease}

/-- The row of a lease. -/
def row? (t : LeaseTable) (id : Nat) : Option ProxyLease := t.leases.find? (·.leaseId = id)

theorem row?_id (h : t.row? id = some row) : row.leaseId = id := (find?_key_some h).2

theorem row?_mem (h : t.row? id = some row) : row ∈ t.leases := (find?_key_some h).1

theorem row?_lt (h : t.row? id = some row) : id < t.nextId :=
  row?_id h ▸ t.fresh row (row?_mem h)

theorem row?_rewrite (t : LeaseTable) (f : ProxyLease → ProxyLease)
    (hf : ∀ lease, Rewrites lease (f lease)) (id : Nat) :
    (t.rewrite f hf).row? id = (t.row? id).map f := by
  unfold row? rewrite
  rw [List.find?_map]
  have hsame : (fun lease : ProxyLease => decide (lease.leaseId = id)) ∘ f =
      fun lease => decide (lease.leaseId = id) := by
    funext lease
    simp [(hf lease).leaseId]
  rw [hsame]

theorem row?_release (t : LeaseTable) (ownerId : String) (leaseId token : Nat) (state : LeaseState)
    (id : Nat) : (t.release ownerId leaseId token state).1.row? id =
      (t.row? id).map (releaseRow ownerId leaseId token state) :=
  row?_rewrite t _ (releaseRow_rewrites ownerId leaseId token state) id

theorem row?_renew (t : LeaseTable) (ownerId : String) (leaseId token ttlMs now id : Nat) :
    (t.renew ownerId leaseId token ttlMs now).1.row? id =
      (t.row? id).map (renewRow ownerId leaseId token ttlMs now) :=
  row?_rewrite t _ (renewRow_rewrites ownerId leaseId token ttlMs now) id

theorem row?_insert (t : LeaseTable) (request : Reservation) (ttlMs now : Nat)
    (h : ¬t.occupied request) (id : Nat) : (t.insert request ttlMs now h).row? id =
      if id = t.nextId then some (t.newLease request ttlMs now) else t.row? id := by
  unfold row? insert
  rw [List.find?_append]
  by_cases hnew : id = t.nextId
  · subst hnew
    have hnone : t.leases.find? (fun lease => decide (lease.leaseId = t.nextId)) = none := by
      refine List.find?_eq_none.mpr fun lease hlease => ?_
      have hlt := t.fresh lease hlease
      simp only [decide_eq_true_eq]
      omega
    rw [hnone, if_pos rfl]
    simp [newLease]
  · have hother : ¬(t.newLease request ttlMs now).leaseId = id := fun h => hnew h.symm
    rw [if_neg hnew, List.find?_cons_of_neg (by simpa using hother), List.find?_nil, Option.or_none]

/-! ## What a statement does to the rows -/

/-- Rows stay, and an ended one stays ended. -/
structure Extends (t t' : LeaseTable) : Prop where
  rows : ∀ id row, t.row? id = some row → ∃ row', t'.row? id = some row' ∧ Rewrites row row'
  nextId : t.nextId ≤ t'.nextId

/-- A row is left as it is, or ended. -/
def Ends (t t' : LeaseTable) (id : Nat) : Prop :=
  ∀ row row', t.row? id = some row → t'.row? id = some row' → row'.state = .active →
    row'.expiresAt = row.expiresAt

theorem extends_refl (t : LeaseTable) : t.Extends t :=
  ⟨fun _ row h => ⟨row, h, .rfl row⟩, Nat.le_refl _⟩

theorem ends_refl (t : LeaseTable) (id : Nat) : t.Ends t id := by
  intro row row' hrow hrow' _
  rw [Option.some.inj (hrow.symm.trans hrow')]

theorem extends_rewrite (t : LeaseTable) (f : ProxyLease → ProxyLease)
    (hf : ∀ lease, Rewrites lease (f lease)) : t.Extends (t.rewrite f hf) where
  rows := fun id row h => ⟨f row, by rw [row?_rewrite, h]; rfl, hf row⟩
  nextId := Nat.le_refl _

theorem extends_reapExpired (t : LeaseTable) (now : Nat) : t.Extends (t.reapExpired now) :=
  extends_rewrite t _ (sweepRow_rewrites now)

theorem extends_release (t : LeaseTable) (ownerId : String) (leaseId token : Nat)
    (state : LeaseState) : t.Extends (t.release ownerId leaseId token state).1 :=
  extends_rewrite t _ (releaseRow_rewrites ownerId leaseId token state)

theorem extends_renew (t : LeaseTable) (ownerId : String) (leaseId token ttlMs now : Nat) :
    t.Extends (t.renew ownerId leaseId token ttlMs now).1 :=
  extends_rewrite t _ (renewRow_rewrites ownerId leaseId token ttlMs now)

theorem ends_rewrite (t : LeaseTable) (f : ProxyLease → ProxyLease)
    (hf : ∀ lease, Rewrites lease (f lease)) (id : Nat)
    (hexpiry : ∀ row, t.row? id = some row → (f row).state = .active →
      (f row).expiresAt = row.expiresAt) : t.Ends (t.rewrite f hf) id := by
  intro row row' hrow hrow' hactive
  rw [row?_rewrite, hrow] at hrow'
  obtain rfl := Option.some.inj hrow'
  exact hexpiry row hrow hactive

theorem ends_reapExpired (t : LeaseTable) (now id : Nat) : t.Ends (t.reapExpired now) id := by
  refine ends_rewrite t _ _ id fun row _ _ => ?_
  unfold sweepRow
  split <;> rfl

theorem ends_release (t : LeaseTable) (ownerId : String) (leaseId token id : Nat)
    (state : LeaseState) : t.Ends (t.release ownerId leaseId token state).1 id := by
  refine ends_rewrite t _ (releaseRow_rewrites ownerId leaseId token state) id fun row _ _ => ?_
  unfold releaseRow
  split <;> rfl

theorem holds_iff {ownerId : String} {leaseId token : Nat} :
    holds ownerId leaseId token lease = true ↔ lease.leaseId = leaseId ∧ lease.ownerId = ownerId ∧
      lease.fencingToken = token ∧ lease.state = .active := by
  simp [holds]

theorem ends_renew (t : LeaseTable) (ownerId : String) {leaseId : Nat} (token ttlMs now : Nat)
    (hne : id ≠ leaseId) : t.Ends (t.renew ownerId leaseId token ttlMs now).1 id := by
  refine ends_rewrite t _ (renewRow_rewrites ownerId leaseId token ttlMs now) id fun row hrow _ => ?_
  have hother : ¬holds ownerId leaseId token row = true := fun h =>
    hne ((row?_id hrow).symm.trans (holds_iff.mp h).1)
  unfold renewRow
  rw [if_neg fun h => hother h.1]

/-- A renewal that found no row. -/
theorem renew_none {ownerId : String} {leaseId token ttlMs now : Nat}
    (h : (t.renew ownerId leaseId token ttlMs now).2 = none) (id : Nat) :
    t.Ends (t.renew ownerId leaseId token ttlMs now).1 id := by
  have hfind := List.find?_eq_none.mp (Option.map_eq_none_iff.mp h)
  refine ends_rewrite t _ (renewRow_rewrites ownerId leaseId token ttlMs now) id fun row hrow _ => ?_
  have hrow' := hfind row (row?_mem hrow)
  unfold renewRow
  rw [if_neg (by simpa using hrow')]

/-- A renewal that found its row. -/
theorem renew_some {renewed : ProxyLease} {ownerId : String} {leaseId token ttlMs now : Nat}
    (h : (t.renew ownerId leaseId token ttlMs now).2 = some renewed) :
    ∃ row, t.row? leaseId = some row ∧ row.ownerId = ownerId ∧ row.fencingToken = token ∧
      row.state = .active ∧ now < row.expiresAt ∧ renewed = { row with expiresAt := now + ttlMs } := by
  obtain ⟨row, hfind, hrenewed⟩ := Option.map_eq_some_iff.mp h
  have hfound := List.find?_some hfind
  simp only [Bool.decide_and, Bool.and_eq_true, decide_eq_true_eq] at hfound
  obtain ⟨hid, howner, htoken, hactive⟩ := holds_iff.mp hfound.1
  refine ⟨row, ?_, howner, htoken, hactive, hfound.2, ?_⟩
  · exact (find?_key_eq_some_iff t.distinct).mpr ⟨List.mem_of_find?_eq_some hfind, hid⟩
  · rw [← hrenewed]
    unfold renewRow
    rw [if_pos hfound]

theorem extends_insertLease (t : LeaseTable) (request : Reservation) (ttlMs now : Nat) :
    t.Extends (t.insertLease request ttlMs now).1 := by
  unfold insertLease
  split
  · exact ⟨fun _ row h => ⟨row, h, .rfl row⟩, Nat.le_succ _⟩
  · rename_i hfree
    refine ⟨fun id row h => ⟨row, ?_, .rfl row⟩, Nat.le_succ _⟩
    have hne : id ≠ t.nextId := Nat.ne_of_lt (row?_lt h)
    rw [row?_insert, if_neg hne]
    exact h

theorem ends_insertLease (t : LeaseTable) (request : Reservation) (ttlMs now id : Nat) :
    t.Ends (t.insertLease request ttlMs now).1 id := by
  intro row row' hrow hrow' _
  obtain ⟨same, hsame, -⟩ := (extends_insertLease t request ttlMs now).rows id row hrow
  unfold insertLease at hrow'
  split at hrow'
  · exact congrArg (·.expiresAt) (Option.some.inj (hrow'.symm.trans hrow))
  · have hne : id ≠ t.nextId := Nat.ne_of_lt (row?_lt hrow)
    rw [row?_insert, if_neg hne, hrow] at hrow'
    rw [Option.some.inj hrow']

/-! ## What is known of a lease -/

/-- A lease was reserved: its row has the same request and fencing token. -/
def Has (t : LeaseTable) (lease : ProxyLease) : Prop :=
  ∃ row, t.row? lease.leaseId = some row ∧ row.toReservation = lease.toReservation ∧
    row.fencingToken = lease.fencingToken

/-- An active row expires by a time. -/
def Bounded (t : LeaseTable) (id bound : Nat) : Prop :=
  ∀ row, t.row? id = some row → row.state = .active → row.expiresAt ≤ bound

/-- The row is not active. -/
def Over (t : LeaseTable) (id : Nat) : Prop := ∀ row, t.row? id = some row → row.state ≠ .active

theorem Has.step (h : t.Has lease) (hx : t.Extends t') : t'.Has lease := by
  obtain ⟨row, hrow, hrequest, htoken⟩ := h
  obtain ⟨row', hrow', hrewrite⟩ := hx.rows _ row hrow
  exact ⟨row', hrow', hrewrite.request.trans hrequest, hrewrite.fencingToken.trans htoken⟩

theorem Has.lt (h : t.Has lease) : lease.leaseId < t.nextId := by
  obtain ⟨row, hrow, -⟩ := h
  exact row?_lt hrow

/-- The row of a lease before a step that leaves it active. -/
theorem Has.before (h : t.Has lease) (hx : t.Extends t') (hrow' : t'.row? lease.leaseId = some row')
    (hactive : row'.state = .active) :
    ∃ row, t.row? lease.leaseId = some row ∧ row.state = .active := by
  obtain ⟨row, hrow, -⟩ := h
  obtain ⟨same, hsame, hrewrite⟩ := hx.rows _ row hrow
  obtain rfl := Option.some.inj (hsame.symm.trans hrow')
  exact ⟨row, hrow, hrewrite.active hactive⟩

theorem Bounded.step {bound bound' : Nat} (h : t.Bounded lease.leaseId bound) (hhas : t.Has lease)
    (hx : t.Extends t') (he : t.Ends t' lease.leaseId) (hle : bound ≤ bound') :
    t'.Bounded lease.leaseId bound' := by
  intro row' hrow' hactive
  obtain ⟨row, hrow, hbefore⟩ := hhas.before hx hrow' hactive
  rw [he row row' hrow hrow' hactive]
  exact Nat.le_trans (h row hrow hbefore) hle

theorem Over.step (h : t.Over lease.leaseId) (hhas : t.Has lease) (hx : t.Extends t') :
    t'.Over lease.leaseId := by
  intro row' hrow' hactive
  obtain ⟨row, hrow, hbefore⟩ := hhas.before hx hrow' hactive
  exact h row hrow hbefore

end LeaseTable

/-! ## The operations -/

/-- The lease an `acquire` has reserved and not given up. -/
def LeaseCall.reserved : LeaseCall → Option Nat
  | .lock lease _ _ | .undo lease _ _ | .done (.acquired lease) => some lease.leaseId
  | _ => none

/-- The lease that is renewed or released. -/
def LeaseCall.used : LeaseCall → Option ProxyLease
  | .renewRow _ lease _ | .renewLock _ lease _ _ | .renewUndo _ lease | .releaseRow _ lease _
  | .releaseLock lease => some lease
  | _ => none

/-- The lease that is in the middle of a renewal: its row is extended, its entry not yet. -/
def LeaseCall.renewing : LeaseCall → Option Nat
  | .renewLock _ lease _ _ | .renewUndo _ lease => some lease.leaseId
  | _ => none

/-- A renewal of the lease that is in its middle has at least this TTL. -/
def LeaseCall.endures (id ttlMs : Nat) : LeaseCall → Bool
  | .renewLock _ lease _ ttl => lease.leaseId ≠ id || ttlMs ≤ ttl
  | _ => true

/-- The leases that were returned, and those in the middle of a renewal. -/
def Leasing.returned (s : Leasing) (lease : ProxyLease) : Prop :=
  .done (.acquired lease) ∈ s.calls

def Leasing.renewing (s : Leasing) (id : Nat) : Prop := ∃ c ∈ s.calls, c.renewing = some id

/-- What is known where an operation takes its next step. -/
def LeaseCall.Ok (s : LeaseStores) : LeaseCall → Prop
  | .lock lease ttlMs _ => s.table.Has lease ∧ s.table.Bounded lease.leaseId (s.now + ttlMs)
  | .undo lease _ _ | .renewRow _ lease _ | .done (.acquired lease) => s.table.Has lease
  | .renewLock ownerId lease _ ttlMs => s.table.Has lease ∧ lease.ownerId = ownerId ∧
      s.table.Bounded lease.leaseId (s.now + ttlMs)
  | .renewUndo ownerId lease => s.table.Has lease ∧ lease.ownerId = ownerId
  | .releaseRow _ lease state => s.table.Has lease ∧ state ≠ .active
  | .releaseLock lease => s.table.Has lease ∧ s.table.Over lease.leaseId
  | _ => True

/-- **The invariant.** The entry of a lease that is not in the middle of a renewal lasts as long as
its row. -/
structure Exclusive (s : Leasing) : Prop where
  ok : ∀ c ∈ s.calls, c.Ok s.shared
  unique : (s.calls.filterMap LeaseCall.reserved).Nodup
  used : ∀ c ∈ s.calls, ∀ lease, c.used = some lease → s.returned lease
  held : ∀ lease, s.returned lease → ¬s.renewing lease.leaseId → ∀ row,
    s.shared.table.row? lease.leaseId = some row → row.state = .active →
    s.shared.now < row.expiresAt →
    s.shared.locks.Keeps lease.lockKey lease.lockValue row.expiresAt

variable {s : Leasing} {stores stores' : LeaseStores} {c c' : LeaseCall} {lease : ProxyLease}

/-- The lease an operation is about. -/
def LeaseCall.about : LeaseCall → Option ProxyLease
  | .lock lease _ _ | .undo lease _ _ | .done (.acquired lease) => some lease
  | c => c.used

/-- The entry an operation is about to write: for which lease, and with which TTL. -/
def LeaseCall.writes : LeaseCall → Option (ProxyLease × Nat)
  | .lock lease ttlMs _ | .renewLock _ lease _ ttlMs => some (lease, ttlMs)
  | _ => none

theorem LeaseCall.Ok.has (h : c.Ok stores) (hlease : c.about = some lease) :
    stores.table.Has lease := by
  cases c with
  | lock l ttlMs keys =>
    obtain rfl := Option.some.inj hlease
    exact h.1
  | renewLock o l r ttlMs =>
    obtain rfl := Option.some.inj hlease
    exact h.1
  | renewUndo o l =>
    obtain rfl := Option.some.inj hlease
    exact h.1
  | releaseRow o l st =>
    obtain rfl := Option.some.inj hlease
    exact h.1
  | releaseLock l =>
    obtain rfl := Option.some.inj hlease
    exact h.1
  | undo l ttlMs keys =>
    obtain rfl := Option.some.inj hlease
    exact h
  | renewRow o l ttlMs =>
    obtain rfl := Option.some.inj hlease
    exact h
  | done result =>
    cases result with
    | acquired l =>
      obtain rfl := Option.some.inj hlease
      exact h
    | _ => exact absurd hlease (by simp [LeaseCall.about, LeaseCall.used])
  | _ => exact absurd hlease (by simp [LeaseCall.about, LeaseCall.used])

theorem LeaseCall.Ok.bounded {ttlMs : Nat} (h : c.Ok stores) (hw : c.writes = some (lease, ttlMs)) :
    stores.table.Has lease ∧ stores.table.Bounded lease.leaseId (stores.now + ttlMs) := by
  cases c with
  | lock l ttl keys =>
    obtain ⟨rfl, rfl⟩ := Prod.mk.inj (Option.some.inj hw)
    exact h
  | renewLock o l r ttl =>
    obtain ⟨rfl, rfl⟩ := Prod.mk.inj (Option.some.inj hw)
    exact ⟨h.1, h.2.2⟩
  | _ => exact absurd hw (by simp [LeaseCall.writes])

/-- What is known where an operation stands survives a step, if the entry it writes will last. -/
theorem LeaseCall.Ok.step (h : c.Ok stores) (hx : stores.table.Extends stores'.table)
    (hb : ∀ lease ttlMs, c.writes = some (lease, ttlMs) →
      stores'.table.Bounded lease.leaseId (stores'.now + ttlMs)) : c.Ok stores' := by
  cases c with
  | lock l ttlMs keys => exact ⟨h.1.step hx, hb l ttlMs rfl⟩
  | undo l ttlMs keys => exact LeaseTable.Has.step h hx
  | renewRow o l ttlMs => exact LeaseTable.Has.step h hx
  | renewLock o l r ttlMs => exact ⟨h.1.step hx, h.2.1, hb l ttlMs rfl⟩
  | renewUndo o l => exact ⟨h.1.step hx, h.2⟩
  | releaseRow o l st => exact ⟨h.1.step hx, h.2⟩
  | releaseLock l => exact ⟨h.1.step hx, h.2.step h.1 hx⟩
  | done result =>
    cases result with
    | acquired l => exact LeaseTable.Has.step h hx
    | _ => trivial
  | _ => trivial

/-- It does where rows are ended or left as they are. -/
theorem LeaseCall.Ok.ends (h : c.Ok stores) (hx : stores.table.Extends stores'.table)
    (hnow : stores.now ≤ stores'.now) (he : ∀ id, stores.table.Ends stores'.table id) :
    c.Ok stores' := by
  refine h.step hx fun lease ttlMs hw => ?_
  obtain ⟨hhas, hbounded⟩ := h.bounded hw
  exact hbounded.step hhas hx (he _) (Nat.add_le_add_right hnow ttlMs)

theorem LeaseCall.Ok.reserved_lt {id : Nat} (h : c.Ok stores) (hid : c.reserved = some id) :
    id < stores.table.nextId := by
  have habout : ∃ lease, c.about = some lease ∧ lease.leaseId = id := by
    cases c with
    | lock l ttlMs keys => exact ⟨l, rfl, Option.some.inj hid⟩
    | undo l ttlMs keys => exact ⟨l, rfl, Option.some.inj hid⟩
    | done result =>
      cases result with
      | acquired l => exact ⟨l, rfl, Option.some.inj hid⟩
      | _ => exact absurd hid (by simp [LeaseCall.reserved])
    | _ => exact absurd hid (by simp [LeaseCall.reserved])
  obtain ⟨lease, hlease, rfl⟩ := habout
  exact (h.has hlease).lt

/-- The value of an entry names its lease: a lease id has no colon. -/
theorem lockValue_id {other : ProxyLease} (h : lease.lockValue = other.lockValue) :
    lease.leaseId = other.leaseId := by
  have hdigits : ∀ (l : ProxyLease),
      l.lockValue.toList.takeWhile Char.isDigit = Nat.toDigits 10 l.leaseId := by
    intro l
    have hlist : l.lockValue.toList = Nat.toDigits 10 l.leaseId ++
        (':' :: (l.ownerId ++ ":" ++ toString l.fencingToken).toList) := by
      simp [ProxyLease.lockValue, Nat.toString_eq_repr, Nat.toList_repr]
    rw [hlist, List.takeWhile_append_of_pos, List.takeWhile_cons_of_neg (by decide),
      List.append_nil]
    exact fun ch hch => Nat.isDigit_of_mem_toDigits (by decide) (by decide) hch
  have hsame : Nat.toDigits 10 lease.leaseId = Nat.toDigits 10 other.leaseId := by
    rw [← hdigits, ← hdigits, h]
  rw [← @Nat.ofDigitChars_ten_toDigits lease.leaseId, hsame, Nat.ofDigitChars_ten_toDigits]

/-! ## One step of an operation -/

section Step

variable {before after : List LeaseCall}

theorem nextEndpoint_ok (s : LeaseStores) (request : Reservation) (ttlMs : Nat) (keys : List String) :
    (nextEndpoint request ttlMs keys).Ok s := by
  cases keys <;> trivial

theorem nextEndpoint_reserved (request : Reservation) (ttlMs : Nat) (keys : List String) :
    (nextEndpoint request ttlMs keys).reserved = none := by
  cases keys <;> rfl

theorem nextEndpoint_used (request : Reservation) (ttlMs : Nat) (keys : List String) :
    (nextEndpoint request ttlMs keys).used = none := by
  cases keys <;> rfl

theorem nextEndpoint_ne (request : Reservation) (ttlMs : Nat) (keys : List String)
    (lease : ProxyLease) : nextEndpoint request ttlMs keys ≠ .done (.acquired lease) := by
  cases keys <;> simp [nextEndpoint]

theorem startAcquire_cases (ownerId : String) (input : AcquireInput) :
    (∃ message, startAcquire ownerId input = .done (.unavailable message)) ∨
      ∃ request ttlMs keys, startAcquire ownerId input = nextEndpoint request ttlMs keys := by
  unfold startAcquire
  simp only
  split
  · exact Or.inl ⟨_, rfl⟩
  · exact Or.inr ⟨_, _, _, rfl⟩

/-- The invariant after a step of one operation. -/
theorem Exclusive.resumed (h : Exclusive ⟨stores, before ++ c :: after⟩)
    (hothers : ∀ d ∈ before ++ after, d.Ok stores')
    (hok : c'.Ok stores')
    (hreserved : ∀ id, c'.reserved = some id → c.reserved = some id ∨ stores.table.nextId ≤ id)
    (hused : ∀ lease, c'.used = some lease → c.used = some lease)
    (hreturned : ∀ lease, c = .done (.acquired lease) → c' = c)
    (hheld : ∀ lease, Leasing.returned ⟨stores', before ++ c' :: after⟩ lease →
      ¬Leasing.renewing ⟨stores', before ++ c' :: after⟩ lease.leaseId → ∀ row,
      stores'.table.row? lease.leaseId = some row → row.state = .active →
      stores'.now < row.expiresAt →
      stores'.locks.Keeps lease.lockKey lease.lockValue row.expiresAt) :
    Exclusive ⟨stores', before ++ c' :: after⟩ where
  ok := by
    intro d hd
    rcases mem_middle.mp hd with rfl | hd
    · exact hok
    · exact hothers d hd
  unique := by
    have hbefore := h.unique
    have hothers : ((before ++ after).filterMap LeaseCall.reserved).Nodup :=
      hbefore.sublist (((List.Sublist.refl before).append
        (List.sublist_cons_self c after)).filterMap _)
    rw [List.filterMap_append] at hothers
    simp only [List.filterMap_append, List.filterMap_cons] at hbefore ⊢
    cases hnew : c'.reserved with
    | none => exact hothers
    | some id =>
      refine List.nodup_middle.mpr (List.nodup_cons.mpr ⟨fun hmem => ?_, hothers⟩)
      rcases hreserved id hnew with hold | hfresh
      · rw [hold] at hbefore
        exact (List.nodup_cons.mp (List.nodup_middle.mp hbefore)).1 hmem
      · rw [← List.filterMap_append] at hmem
        obtain ⟨d, hd, hreserved⟩ := List.mem_filterMap.mp hmem
        have hlt : id < stores.table.nextId :=
          (h.ok d (mem_middle.mpr (Or.inr hd))).reserved_lt hreserved
        omega
  used := by
    have hkept : ∀ lease, Leasing.returned ⟨stores, before ++ c :: after⟩ lease →
        Leasing.returned ⟨stores', before ++ c' :: after⟩ lease := by
      intro lease hlease
      rcases mem_middle.mp hlease with hsame | hother
      · exact mem_middle.mpr (Or.inl (by rw [hreturned lease hsame.symm, hsame]))
      · exact mem_middle.mpr (Or.inr hother)
    intro d hd lease hlease
    refine hkept lease ?_
    rcases mem_middle.mp hd with rfl | hother
    · exact h.used c (mem_middle.mpr (Or.inl rfl)) lease (hused lease hlease)
    · exact h.used d (mem_middle.mpr (Or.inr hother)) lease hlease
  held := hheld

theorem returned_before (hlease : Leasing.returned ⟨stores', before ++ c' :: after⟩ lease)
    (hne : c' ≠ .done (.acquired lease)) :
    Leasing.returned ⟨stores, before ++ c :: after⟩ lease := by
  rcases mem_middle.mp hlease with hsame | hother
  · exact absurd hsame.symm hne
  · exact mem_middle.mpr (Or.inr hother)

theorem idle_before {id : Nat} (hidle : ¬Leasing.renewing ⟨stores', before ++ c' :: after⟩ id)
    (hc : c.renewing = some id → c'.renewing = some id) :
    ¬Leasing.renewing ⟨stores, before ++ c :: after⟩ id := by
  rintro ⟨d, hd, hrenewing⟩
  rcases mem_middle.mp hd with rfl | hother
  · exact hidle ⟨c', mem_middle.mpr (Or.inl rfl), hc hrenewing⟩
  · exact hidle ⟨d, mem_middle.mpr (Or.inr hother), hrenewing⟩

/-- A lease is reserved by one operation. -/
theorem Exclusive.reserved_unique (h : Exclusive s) {id : Nat} (hc : c ∈ s.calls)
    (hc' : c' ∈ s.calls) (hid : c.reserved = some id) (hid' : c'.reserved = some id) : c = c' := by
  by_contra hne
  have hpairs := List.pairwise_filterMap.mp h.unique
  have hsymm : Std.Symm fun a b : LeaseCall => ∀ x, a.reserved = some x → ∀ y,
      b.reserved = some y → x ≠ y :=
    ⟨fun a b hab x hx y hy hxy => hab y hy x hx hxy.symm⟩
  exact hpairs.forall hc hc' hne id hid id hid' rfl

/-- The entry of a lease whose row a step left active. -/
theorem Exclusive.keeps (h : Exclusive s) (hlease : s.returned lease)
    (hidle : ¬s.renewing lease.leaseId) {t' : LeaseTable} (hx : s.shared.table.Extends t')
    (he : s.shared.table.Ends t' lease.leaseId) {row' : ProxyLease}
    (hrow' : t'.row? lease.leaseId = some row') (hactive' : row'.state = .active)
    (hlive : s.shared.now < row'.expiresAt) :
    s.shared.locks.Keeps lease.lockKey lease.lockValue row'.expiresAt := by
  have hhas : s.shared.table.Has lease := (h.ok _ hlease).has rfl
  obtain ⟨row, hrow, hactive⟩ := hhas.before hx hrow' hactive'
  have hsame := he row row' hrow hrow' hactive'
  rw [hsame] at hlive ⊢
  exact h.held lease hlease hidle row hrow hactive hlive

/-- A statement that ends rows or leaves them, or inserts one. -/
theorem Exclusive.statement (h : Exclusive ⟨stores, before ++ c :: after⟩) {table : LeaseTable}
    (hx : stores.table.Extends table) (he : ∀ id, stores.table.Ends table id)
    (hok : c'.Ok { stores with table := table })
    (hreserved : ∀ id, c'.reserved = some id → c.reserved = some id ∨ stores.table.nextId ≤ id)
    (hused : ∀ lease, c'.used = some lease → c.used = some lease)
    (hreturned : ∀ lease, c ≠ .done (.acquired lease))
    (hreturns : ∀ lease, c' ≠ .done (.acquired lease))
    (hrenewing : ∀ id, c.renewing = some id → c'.renewing = some id) :
    Exclusive ⟨{ stores with table := table }, before ++ c' :: after⟩ := by
  refine h.resumed (fun d hd => ?_) hok hreserved hused
    (fun lease hc => absurd hc (hreturned lease)) fun lease hlease hidle row hrow hactive hlive => ?_
  · exact (h.ok d (mem_middle.mpr (Or.inr hd))).ends hx (Nat.le_refl _) he
  · exact h.keeps (returned_before hlease (hreturns lease)) (idle_before hidle (hrenewing _)) hx
      (he _) hrow hactive hlive

theorem Exclusive.insert (request : Reservation) (ttlMs : Nat) (keys : List String)
    (h : Exclusive ⟨stores, before ++ .insert request ttlMs keys :: after⟩) :
    Exclusive ⟨(resumeLease stores (.insert request ttlMs keys)).1,
      before ++ (resumeLease stores (.insert request ttlMs keys)).2 :: after⟩ := by
  have hx := LeaseTable.extends_insertLease stores.table request ttlMs stores.now
  have he := LeaseTable.ends_insertLease stores.table request ttlMs stores.now
  simp only [resumeLease]
  by_cases hoccupied : stores.table.occupied request
  · have hnone : stores.table.insertLease request ttlMs stores.now =
        (stores.table.skipFence, none) := by
      unfold LeaseTable.insertLease
      rw [dif_pos hoccupied]
    rw [hnone] at hx he ⊢
    exact h.statement hx he (nextEndpoint_ok _ _ _ _) (by simp [nextEndpoint_reserved])
      (by simp [nextEndpoint_used]) (by simp) (nextEndpoint_ne _ _ _) (by simp [LeaseCall.renewing])
  · have hsome : stores.table.insertLease request ttlMs stores.now =
        (stores.table.insert request ttlMs stores.now hoccupied,
          some (stores.table.newLease request ttlMs stores.now)) := by
      unfold LeaseTable.insertLease
      rw [dif_neg hoccupied]
    rw [hsome] at hx he ⊢
    have hrow : (stores.table.insert request ttlMs stores.now hoccupied).row? stores.table.nextId =
        some (stores.table.newLease request ttlMs stores.now) := by
      rw [LeaseTable.row?_insert, if_pos rfl]
    refine h.statement hx he ⟨⟨_, hrow, rfl, rfl⟩, fun row hrow' _ => ?_⟩ (fun id hid => ?_)
      (by simp [LeaseCall.used]) (by simp) (by simp) (by simp [LeaseCall.renewing])
    · obtain rfl := Option.some.inj (hrow.symm.trans hrow')
      exact Nat.le_refl _
    · exact Or.inr (Nat.le_of_eq (Option.some.inj hid))

theorem Exclusive.lock (l : ProxyLease) (ttlMs : Nat) (keys : List String)
    (h : Exclusive ⟨stores, before ++ .lock l ttlMs keys :: after⟩) :
    Exclusive ⟨(resumeLease stores (.lock l ttlMs keys)).1,
      before ++ (resumeLease stores (.lock l ttlMs keys)).2 :: after⟩ := by
  obtain ⟨hhas, hbounded⟩ := h.ok _ (mem_middle.mpr (Or.inl rfl))
  have hothers : ∀ d ∈ before ++ after, d.Ok stores :=
    fun d hd => h.ok d (mem_middle.mpr (Or.inr hd))
  simp only [resumeLease]
  rcases hacquire : stores.locks.acquire l.lockKey l.lockValue ttlMs stores.now with ⟨locks, _ | _⟩
  · have hlocks : locks = stores.locks := by
      unfold ExpiringLocks.acquire at hacquire
      split at hacquire
      · exact absurd (congrArg Prod.snd hacquire) (by simp)
      · exact (congrArg Prod.fst hacquire).symm
    subst hlocks
    refine h.resumed hothers hhas (fun id hid => Or.inl hid) (by simp [LeaseCall.used]) (by simp)
      fun lease hlease hidle row hrow hactive hlive => ?_
    exact h.held lease (returned_before hlease (by simp))
      (idle_before hidle (by simp [LeaseCall.renewing])) row hrow hactive hlive
  · have hok : (stores.locks.acquire l.lockKey l.lockValue ttlMs stores.now).2 = true := by
      rw [hacquire]
    have hlocks : (stores.locks.acquire l.lockKey l.lockValue ttlMs stores.now).1 = locks := by
      rw [hacquire]
    refine h.resumed (fun d hd => hothers d hd) hhas (fun id hid => Or.inl hid)
      (by simp [LeaseCall.used]) (by simp) fun lease hlease hidle row hrow hactive hlive => ?_
    show locks.Keeps lease.lockKey lease.lockValue row.expiresAt
    rw [← hlocks]
    by_cases hsame : lease = l
    · subst hsame
      exact (ExpiringLocks.acquire_ok hok).2.mono (hbounded row hrow hactive)
    · have hold := h.held lease (returned_before hlease (by simpa using Ne.symm hsame))
        (idle_before hidle (by simp [LeaseCall.renewing])) row hrow hactive hlive
      exact hold.acquire hlive

/-- The row of a lease that is released by its holder is over. -/
theorem over_release (hhas : stores.table.Has lease) {state : LeaseState} (hstate : state ≠ .active)
    {ownerId : String} (howner : lease.ownerId = ownerId) :
    (stores.table.release ownerId lease.leaseId lease.fencingToken state).1.Over lease.leaseId := by
  obtain ⟨row, hrow, hrequest, htoken⟩ := hhas
  intro row' hrow' hactive
  rw [LeaseTable.row?_release, hrow] at hrow'
  obtain rfl := Option.some.inj hrow'
  have howns : row.ownerId = ownerId := (congrArg (·.ownerId) hrequest).trans howner
  unfold LeaseTable.releaseRow at hactive
  split at hactive
  · exact hstate hactive
  · rename_i hnot
    exact hnot (LeaseTable.holds_iff.mpr ⟨LeaseTable.row?_id hrow, howns, htoken, hactive⟩)

theorem Exclusive.renewRow (ownerId : String) (l : ProxyLease) (ttlMs : Nat)
    (h : Exclusive ⟨stores, before ++ .renewRow ownerId l ttlMs :: after⟩)
    (hsteady : ∀ d ∈ before ++ after, d.endures l.leaseId ttlMs = true) :
    Exclusive ⟨(resumeLease stores (.renewRow ownerId l ttlMs)).1,
      before ++ (resumeLease stores (.renewRow ownerId l ttlMs)).2 :: after⟩ := by
  have hhas : stores.table.Has l := h.ok _ (mem_middle.mpr (Or.inl rfl))
  have hx := stores.table.extends_renew ownerId l.leaseId l.fencingToken ttlMs stores.now
  simp only [resumeLease]
  rcases hrenew : stores.table.renew ownerId l.leaseId l.fencingToken ttlMs stores.now with
    ⟨table, _ | renewed⟩
  · have he := LeaseTable.renew_none (congrArg Prod.snd hrenew)
    rw [hrenew] at hx he
    exact h.statement hx he trivial (by simp [LeaseCall.reserved]) (by simp [LeaseCall.used])
      (by simp) (by simp) (by simp [LeaseCall.renewing])
  · obtain ⟨row, hrow, howner, htoken, hactive, hlive, hrenewed⟩ :=
      LeaseTable.renew_some (congrArg Prod.snd hrenew)
    have hends : ∀ id, id ≠ l.leaseId → stores.table.Ends table id := by
      intro id hne
      have he := stores.table.ends_renew ownerId l.fencingToken ttlMs stores.now hne
      rw [hrenew] at he
      exact he
    have hextended : ∀ bound, stores.now + ttlMs ≤ bound → table.Bounded l.leaseId bound := by
      intro bound hbound row' hrow' _
      have hmap := stores.table.row?_renew ownerId l.leaseId l.fencingToken ttlMs stores.now l.leaseId
      rw [hrenew, hrow, Option.map_some] at hmap
      obtain rfl := Option.some.inj (hmap.symm.trans hrow')
      have hholds := LeaseTable.holds_iff.mpr ⟨LeaseTable.row?_id hrow, howner, htoken, hactive⟩
      unfold LeaseTable.renewRow
      rw [if_pos ⟨hholds, hlive⟩]
      exact hbound
    rw [hrenew] at hx
    have hreturned : LeaseCall.done (.acquired l) ∈ before ++ after := by
      rcases mem_middle.mp (h.used _ (mem_middle.mpr (Or.inl rfl)) l rfl) with hsame | hother
      · exact absurd hsame (by simp)
      · exact hother
    obtain ⟨known, hknown, hrequest, -⟩ := hhas
    obtain rfl := Option.some.inj (hrow.symm.trans hknown)
    have hhas' : table.Has l := LeaseTable.Has.step ⟨row, hrow, hrequest, htoken⟩ hx
    have howns : l.ownerId = ownerId := (congrArg (·.ownerId) hrequest).symm.trans howner
    refine h.resumed (fun d hd => ?_) ⟨hhas', howns, hextended _ (Nat.le_refl _)⟩
      (by simp [LeaseCall.reserved]) (fun lease hlease => hlease) (by simp)
      fun lease hlease hidle row' hrow' hactive' hlive' => ?_
    · have hok := h.ok d (mem_middle.mpr (Or.inr hd))
      refine hok.step hx fun lease ttl hw => ?_
      by_cases hsame : lease.leaseId = l.leaseId
      · rw [hsame]
        refine hextended _ (Nat.add_le_add_left ?_ _)
        cases d with
        | lock held ttl' keys =>
          obtain ⟨rfl, rfl⟩ := Prod.mk.inj (Option.some.inj hw)
          have hcalls := h.reserved_unique (mem_middle.mpr (Or.inr hd))
            (mem_middle.mpr (Or.inr hreturned)) rfl (congrArg some hsame.symm)
          exact absurd hcalls (by simp)
        | renewLock owner held renewed' ttl' =>
          obtain ⟨rfl, rfl⟩ := Prod.mk.inj (Option.some.inj hw)
          simpa [LeaseCall.endures, hsame] using hsteady _ hd
        | _ => exact absurd hw (by simp [LeaseCall.writes])
      · obtain ⟨hhasd, hbounded⟩ := hok.bounded hw
        exact hbounded.step hhasd hx (hends _ hsame) (Nat.le_refl _)
    · have hne : lease.leaseId ≠ l.leaseId := fun hsame =>
        hidle ⟨_, mem_middle.mpr (Or.inl rfl), congrArg some hsame.symm⟩
      exact h.keeps (returned_before hlease (by simp))
        (idle_before hidle (by simp [LeaseCall.renewing])) hx (hends _ hne) hrow' hactive' hlive'

theorem Exclusive.renewLock (ownerId : String) (l renewed : ProxyLease) (ttlMs : Nat)
    (h : Exclusive ⟨stores, before ++ .renewLock ownerId l renewed ttlMs :: after⟩) :
    Exclusive ⟨(resumeLease stores (.renewLock ownerId l renewed ttlMs)).1,
      before ++ (resumeLease stores (.renewLock ownerId l renewed ttlMs)).2 :: after⟩ := by
  obtain ⟨hhas, howner, hbounded⟩ := h.ok _ (mem_middle.mpr (Or.inl rfl))
  have hothers : ∀ d ∈ before ++ after, d.Ok stores :=
    fun d hd => h.ok d (mem_middle.mpr (Or.inr hd))
  simp only [resumeLease]
  rcases hrenew : stores.locks.renew l.lockKey l.lockValue ttlMs stores.now with ⟨locks, _ | _⟩
  · have hlocks : locks = stores.locks := by
      unfold ExpiringLocks.renew at hrenew
      split at hrenew
      · exact absurd (congrArg Prod.snd hrenew) (by simp)
      · exact (congrArg Prod.fst hrenew).symm
    subst hlocks
    refine h.resumed hothers ⟨hhas, howner⟩ (by simp [LeaseCall.reserved])
      (fun lease hlease => hlease) (by simp) fun lease hlease hidle row hrow hactive hlive => ?_
    exact h.held lease (returned_before hlease (by simp)) (idle_before hidle fun hid => hid)
      row hrow hactive hlive
  · have hok : (stores.locks.renew l.lockKey l.lockValue ttlMs stores.now).2 = true := by
      rw [hrenew]
    have hlocks : (stores.locks.renew l.lockKey l.lockValue ttlMs stores.now).1 = locks := by
      rw [hrenew]
    refine h.resumed (fun d hd => hothers d hd) trivial (by simp [LeaseCall.reserved])
      (by simp [LeaseCall.used]) (by simp) fun lease hlease hidle row hrow hactive hlive => ?_
    have hbefore : Leasing.returned
        ⟨stores, before ++ .renewLock ownerId l renewed ttlMs :: after⟩ lease :=
      returned_before hlease (by simp)
    show locks.Keeps lease.lockKey lease.lockValue row.expiresAt
    rw [← hlocks]
    by_cases hsame : lease.leaseId = l.leaseId
    · have hreturned := h.used _ (mem_middle.mpr (Or.inl rfl)) l rfl
      have hcalls := h.reserved_unique hbefore hreturned rfl (congrArg some hsame.symm)
      obtain rfl : lease = l := by simpa using hcalls
      exact (ExpiringLocks.renew_ok hok).2.mono (hbounded row hrow hactive)
    · have hold := h.held lease hbefore
        (idle_before hidle fun hid => absurd (Option.some.inj hid).symm hsame) row hrow hactive hlive
      exact hold.renew hlive fun hvalue => hsame (lockValue_id hvalue).symm

theorem Exclusive.renewUndo (ownerId : String) (l : ProxyLease)
    (h : Exclusive ⟨stores, before ++ .renewUndo ownerId l :: after⟩) :
    Exclusive ⟨(resumeLease stores (.renewUndo ownerId l)).1,
      before ++ (resumeLease stores (.renewUndo ownerId l)).2 :: after⟩ := by
  obtain ⟨hhas, howner⟩ := h.ok _ (mem_middle.mpr (Or.inl rfl))
  have hx := stores.table.extends_release ownerId l.leaseId l.fencingToken .expired
  have he := stores.table.ends_release ownerId l.leaseId l.fencingToken
  have hover : (stores.table.release ownerId l.leaseId l.fencingToken .expired).1.Over l.leaseId :=
    over_release hhas (by simp) howner
  refine h.resumed (fun d hd => ?_) trivial (by simp [resumeLease, LeaseCall.reserved])
    (by simp [resumeLease, LeaseCall.used]) (by simp)
    fun lease hlease hidle row hrow hactive hlive => ?_
  · exact (h.ok d (mem_middle.mpr (Or.inr hd))).ends hx (Nat.le_refl _) fun id => he id .expired
  · by_cases hsame : lease.leaseId = l.leaseId
    · rw [hsame] at hrow
      exact absurd hactive (hover row hrow)
    · exact h.keeps (returned_before hlease (by simp [resumeLease]))
        (idle_before hidle fun hid => absurd (Option.some.inj hid).symm hsame) hx
        (he _ .expired) hrow hactive hlive

theorem Exclusive.releaseRow (ownerId : String) (l : ProxyLease) (state : LeaseState)
    (h : Exclusive ⟨stores, before ++ .releaseRow ownerId l state :: after⟩) :
    Exclusive ⟨(resumeLease stores (.releaseRow ownerId l state)).1,
      before ++ (resumeLease stores (.releaseRow ownerId l state)).2 :: after⟩ := by
  obtain ⟨hhas, hstate⟩ := h.ok _ (mem_middle.mpr (Or.inl rfl))
  have hx := stores.table.extends_release ownerId l.leaseId l.fencingToken state
  have he := fun id => stores.table.ends_release ownerId l.leaseId l.fencingToken id state
  simp only [resumeLease]
  rcases hrelease : stores.table.release ownerId l.leaseId l.fencingToken state with ⟨table, _ | _⟩
  · rw [hrelease] at hx he
    exact h.statement hx he trivial (by simp [LeaseCall.reserved]) (by simp [LeaseCall.used])
      (by simp) (by simp) (by simp [LeaseCall.renewing])
  · have hover : table.Over l.leaseId := by
      obtain ⟨row, hmem, hholds⟩ := List.any_eq_true.mp (congrArg Prod.snd hrelease)
      obtain ⟨hid, howner, -, -⟩ := LeaseTable.holds_iff.mp hholds
      have hrow := (find?_key_eq_some_iff stores.table.distinct).mpr ⟨hmem, hid⟩
      obtain ⟨known, hknown, hrequest, -⟩ := id hhas
      obtain rfl := Option.some.inj (hrow.symm.trans hknown)
      have hover := over_release hhas hstate ((congrArg (·.ownerId) hrequest).symm.trans howner)
      rw [hrelease] at hover
      exact hover
    rw [hrelease] at hx he
    exact h.statement hx he ⟨LeaseTable.Has.step hhas hx, hover⟩ (by simp [LeaseCall.reserved])
      (fun lease hlease => hlease) (by simp) (by simp) (by simp [LeaseCall.renewing])

theorem Exclusive.releaseLock (l : ProxyLease)
    (h : Exclusive ⟨stores, before ++ .releaseLock l :: after⟩) :
    Exclusive ⟨(resumeLease stores (.releaseLock l)).1,
      before ++ (resumeLease stores (.releaseLock l)).2 :: after⟩ := by
  obtain ⟨hhas, hover⟩ := h.ok _ (mem_middle.mpr (Or.inl rfl))
  refine h.resumed (fun d hd => h.ok d (mem_middle.mpr (Or.inr hd))) trivial
    (by simp [resumeLease, LeaseCall.reserved]) (by simp [resumeLease, LeaseCall.used]) (by simp)
    fun lease hlease hidle row hrow hactive hlive => ?_
  by_cases hsame : lease.leaseId = l.leaseId
  · rw [hsame] at hrow
    exact absurd hactive (hover row hrow)
  · have hold := h.held lease (returned_before hlease (by simp [resumeLease]))
      (idle_before hidle (by simp [LeaseCall.renewing])) row hrow hactive hlive
    exact hold.release hlive fun hvalue => hsame (lockValue_id hvalue).symm

/-- **A step of an operation keeps the invariant.** -/
theorem Exclusive.step (h : Exclusive ⟨stores, before ++ c :: after⟩)
    (hsteady : ∀ ownerId lease ttlMs, c = .renewRow ownerId lease ttlMs →
      ∀ d ∈ before ++ after, d.endures lease.leaseId ttlMs = true) :
    Exclusive ⟨(resumeLease stores c).1, before ++ (resumeLease stores c).2 :: after⟩ := by
  cases c with
  | sweep request ttlMs keys =>
    exact h.statement (stores.table.extends_reapExpired stores.now)
      (stores.table.ends_reapExpired stores.now) trivial (by simp [resumeLease, LeaseCall.reserved])
      (by simp [resumeLease, LeaseCall.used]) (by simp) (by simp [resumeLease])
      (by simp [LeaseCall.renewing])
  | insert request ttlMs keys => exact h.insert request ttlMs keys
  | lock l ttlMs keys => exact h.lock l ttlMs keys
  | undo l ttlMs keys =>
    have he := fun id => stores.table.ends_release l.ownerId l.leaseId l.fencingToken id .released
    exact h.statement (stores.table.extends_release _ _ _ _) he (nextEndpoint_ok _ _ _ _)
      (by simp [resumeLease, nextEndpoint_reserved]) (by simp [resumeLease, nextEndpoint_used])
      (by simp) (nextEndpoint_ne _ _ _) (by simp [LeaseCall.renewing])
  | renewRow ownerId l ttlMs => exact h.renewRow ownerId l ttlMs (hsteady ownerId l ttlMs rfl)
  | renewLock ownerId l renewed ttlMs => exact h.renewLock ownerId l renewed ttlMs
  | renewUndo ownerId l => exact h.renewUndo ownerId l
  | releaseRow ownerId l state => exact h.releaseRow ownerId l state
  | releaseLock l => exact h.releaseLock l
  | reap =>
    exact h.statement (stores.table.extends_reapExpired stores.now)
      (stores.table.ends_reapExpired stores.now) trivial (by simp [resumeLease, LeaseCall.reserved])
      (by simp [resumeLease, LeaseCall.used]) (by simp) (by simp [resumeLease])
      (by simp [LeaseCall.renewing])
  | done result => exact h

end Step

/-! ## Every interleaving -/

/-- No lease is released to the state `active`, and no renewal outlasts another one of its lease that
is between its steps. -/
def Steady (s : Leasing) : CallEvent LeaseInput → Prop
  | .input (.release _ _ state) => state ≠ .active
  | .input _ => True
  | .resume n =>
    match s.calls[n]? with
    | some (.renewRow _ lease ttlMs) => s.calls.all (·.endures lease.leaseId ttlMs) = true
    | _ => True

instance (s : Leasing) (e : CallEvent LeaseInput) : Decidable (Steady s e) := by
  unfold Steady
  split <;> (try split) <;> infer_instance

theorem exclusive_initial : Exclusive Leasing.initial where
  ok := fun _ hc => absurd hc List.not_mem_nil
  unique := List.nodup_nil
  used := fun _ hc => absurd hc List.not_mem_nil
  held := fun _ hlease => absurd hlease List.not_mem_nil

/-- An operation that is called, before its first step. -/
theorem Exclusive.start (h : Exclusive s) (hok : c.Ok s.shared) (hreserved : c.reserved = none)
    (hused : ∀ lease, c.used = some lease → s.returned lease)
    (hreturns : ∀ lease, c ≠ .done (.acquired lease)) :
    Exclusive ⟨s.shared, s.calls ++ [c]⟩ := by
  have hreturned : ∀ lease, Leasing.returned ⟨s.shared, s.calls ++ [c]⟩ lease → s.returned lease := by
    intro lease hlease
    rcases List.mem_append.mp hlease with hold | hnew
    · exact hold
    · exact absurd (List.mem_singleton.mp hnew).symm (hreturns lease)
  refine ⟨fun d hd => ?_, ?_, fun d hd lease hlease => ?_, fun lease hlease hidle => ?_⟩
  · rcases List.mem_append.mp hd with hold | hnew
    · exact h.ok d hold
    · rw [List.mem_singleton.mp hnew]
      exact hok
  · rw [List.filterMap_append]
    simpa [hreserved] using h.unique
  · refine List.mem_append_left _ ?_
    rcases List.mem_append.mp hd with hold | hnew
    · exact h.used d hold lease hlease
    · rw [List.mem_singleton.mp hnew] at hlease
      exact hused lease hlease
  · refine h.held lease (hreturned lease hlease) fun hrenew => hidle ?_
    obtain ⟨d, hd, hid⟩ := hrenew
    exact ⟨d, List.mem_append_left _ hd, hid⟩

theorem Exclusive.tick (h : Exclusive s) (ms : Nat) :
    Exclusive ⟨{ s.shared with now := s.shared.now + ms }, s.calls⟩ where
  ok := fun d hd => (h.ok d hd).ends (LeaseTable.extends_refl _) (Nat.le_add_right _ _)
    (LeaseTable.ends_refl _)
  unique := h.unique
  used := h.used
  held := fun lease hlease hidle row hrow hactive hlive =>
    h.held lease hlease hidle row hrow hactive (Nat.lt_of_le_of_lt (Nat.le_add_right _ _) hlive)

theorem leaseAt_returned {n : Nat} (h : leaseAt s.calls n = some lease) : s.returned lease := by
  unfold leaseAt at h
  split at h
  · rename_i hcall
    obtain rfl := Option.some.inj h
    exact List.mem_of_getElem? hcall
  · exact absurd h (by simp)

theorem Exclusive.accept (h : Exclusive s) (i : LeaseInput) (hsteady : Steady s (.input i)) :
    Exclusive ⟨(coordinators.accept s i).1, s.calls ++ (coordinators.accept s i).2.toList⟩ := by
  cases i with
  | tick ms =>
    simpa [coordinators] using h.tick ms
  | acquire ownerId input =>
    show Exclusive ⟨s.shared, s.calls ++ [startAcquire ownerId input]⟩
    rcases startAcquire_cases ownerId input with ⟨message, hdone⟩ | ⟨request, ttlMs, keys, hnext⟩
    · rw [hdone]
      exact h.start trivial rfl (by simp [LeaseCall.used]) (by simp)
    · rw [hnext]
      refine h.start (nextEndpoint_ok _ _ _ _) (nextEndpoint_reserved _ _ _) (fun l hl => ?_)
        (nextEndpoint_ne _ _ _)
      rw [nextEndpoint_used] at hl
      exact absurd hl (by simp)
  | renew ownerId n ttlMs =>
    show Exclusive ⟨s.shared, s.calls ++ ((leaseAt s.calls n).map _).toList⟩
    cases hlease : leaseAt s.calls n with
    | none => simpa using h
    | some lease =>
      have hreturned := leaseAt_returned hlease
      refine h.start ((h.ok _ hreturned).has rfl) rfl (fun l hl => ?_) (by simp)
      rw [← Option.some.inj hl]
      exact hreturned
  | release ownerId n state =>
    show Exclusive ⟨s.shared, s.calls ++ ((leaseAt s.calls n).map _).toList⟩
    cases hlease : leaseAt s.calls n with
    | none => simpa using h
    | some lease =>
      have hreturned := leaseAt_returned hlease
      refine h.start ⟨(h.ok _ hreturned).has rfl, hsteady⟩ rfl (fun l hl => ?_) (by simp)
      rw [← Option.some.inj hl]
      exact hreturned
  | reapExpired => exact h.start trivial rfl (by simp [LeaseCall.used]) (by simp)

/-- **The step lemma.** -/
theorem Exclusive.next (h : Exclusive s) {e : CallEvent LeaseInput} (hsteady : Steady s e) :
    Exclusive (coordinators.events.next s e) := by
  have hnext := coordinators.next_cases s e
  generalize coordinators.events.next s e = s' at hnext
  cases hnext with
  | idle n => exact h
  | input i => exact h.accept i hsteady
  | resume n before after c hcall hcalls =>
    obtain ⟨stores, calls⟩ := s
    obtain rfl : calls = before ++ c :: after := hcalls
    refine h.step fun ownerId lease ttlMs hc d hd => ?_
    subst hc
    simp only [Steady, hcall] at hsteady
    exact List.all_eq_true.mp hsteady d (mem_middle.mpr (Or.inr hd))

/-- **The run lemma.** -/
theorem exclusive_run {es : List (CallEvent LeaseInput)}
    (hsteady : coordinators.events.Along Steady Leasing.initial es) :
    Exclusive (coordinators.events.run Leasing.initial es) :=
  EventSystem.run_inv exclusive_initial (fun _ _ h hs => h.next hs) hsteady

/-! ## Fencing tokens -/

/-- What any event does to the table: a sweep, a release or a renewal rewrites it, an insert adds the
next lease or takes a number. -/
inductive TableStep (t : LeaseTable) : LeaseTable → Prop
  | same : TableStep t t
  | rewrite (f : ProxyLease → ProxyLease) (hf : ∀ lease, Rewrites lease (f lease)) :
      TableStep t (t.rewrite f hf)
  | skip : TableStep t t.skipFence
  | insert (request : Reservation) (ttlMs now : Nat) (h : ¬t.occupied request) :
      TableStep t (t.insert request ttlMs now h)

theorem resume_renewRow_table (stores : LeaseStores) (ownerId : String) (lease : ProxyLease)
    (ttlMs : Nat) : (resumeLease stores (.renewRow ownerId lease ttlMs)).1 = { stores with
      table := (stores.table.renew ownerId lease.leaseId lease.fencingToken ttlMs stores.now).1 } := by
  simp only [resumeLease]
  split
  · rename_i hrenew
    rw [hrenew]
  · rename_i hrenew
    rw [hrenew]

theorem resume_releaseRow_table (stores : LeaseStores) (ownerId : String) (lease : ProxyLease)
    (state : LeaseState) : (resumeLease stores (.releaseRow ownerId lease state)).1 = { stores with
      table := (stores.table.release ownerId lease.leaseId lease.fencingToken state).1 } := by
  simp only [resumeLease]
  split
  · rename_i hrelease
    rw [hrelease]
  · rename_i hrelease
    rw [hrelease]

theorem resume_insert_table (stores : LeaseStores) (request : Reservation) (ttlMs : Nat)
    (keys : List String) : (resumeLease stores (.insert request ttlMs keys)).1 = { stores with
      table := (stores.table.insertLease request ttlMs stores.now).1 } := by
  simp only [resumeLease]
  split
  · rename_i hinsert
    rw [hinsert]
  · rename_i hinsert
    rw [hinsert]

theorem resume_table (stores : LeaseStores) (c : LeaseCall) :
    TableStep stores.table (resumeLease stores c).1.table := by
  cases c with
  | sweep request ttlMs keys => exact .rewrite _ (LeaseTable.sweepRow_rewrites stores.now)
  | insert request ttlMs keys =>
    rw [resume_insert_table]
    unfold LeaseTable.insertLease
    by_cases hoccupied : stores.table.occupied request
    · rw [dif_pos hoccupied]
      exact .skip
    · rw [dif_neg hoccupied]
      exact .insert request ttlMs stores.now hoccupied
  | lock l ttlMs keys =>
    simp only [resumeLease]
    split <;> exact .same
  | undo l ttlMs keys => exact .rewrite _ (LeaseTable.releaseRow_rewrites _ _ _ _)
  | renewRow ownerId l ttlMs =>
    rw [resume_renewRow_table]
    exact .rewrite _ (LeaseTable.renewRow_rewrites _ _ _ _ _)
  | renewLock ownerId l renewed ttlMs =>
    simp only [resumeLease]
    split <;> exact .same
  | renewUndo ownerId l => exact .rewrite _ (LeaseTable.releaseRow_rewrites _ _ _ _)
  | releaseRow ownerId l state =>
    rw [resume_releaseRow_table]
    exact .rewrite _ (LeaseTable.releaseRow_rewrites _ _ _ _)
  | releaseLock l => exact .same
  | reap => exact .rewrite _ (LeaseTable.sweepRow_rewrites stores.now)
  | done result => exact .same

/-- **What an event does to the table.** -/
theorem next_table (s : Leasing) (e : CallEvent LeaseInput) :
    TableStep s.shared.table (coordinators.events.next s e).shared.table := by
  have hnext := coordinators.next_cases s e
  generalize coordinators.events.next s e = s' at hnext
  cases hnext with
  | idle n => exact .same
  | input i => cases i <;> exact .same
  | resume n before after c hcall hcalls => exact resume_table s.shared c

variable {t t' t0 : LeaseTable}

/-- Every row of the table is an old one, or it was given a higher token than all of them. -/
def NewlyFenced (t0 t : LeaseTable) : Prop :=
  t0.fence ≤ t.fence ∧ ∀ row ∈ t.leases,
    (∃ old ∈ t0.leases, old.leaseId = row.leaseId ∧ old.fencingToken = row.fencingToken) ∨
      t0.fence < row.fencingToken

theorem TableStep.newlyFenced (h : TableStep t t') (hold : NewlyFenced t0 t) : NewlyFenced t0 t' := by
  obtain ⟨hfence, hrows⟩ := hold
  cases h with
  | same => exact ⟨hfence, hrows⟩
  | rewrite f hf =>
    refine ⟨hfence, fun row hrow => ?_⟩
    obtain ⟨before, hbefore, rfl⟩ := List.mem_map.mp hrow
    rw [(hf before).leaseId, (hf before).fencingToken]
    exact hrows before hbefore
  | skip => exact ⟨Nat.le_succ_of_le hfence, hrows⟩
  | insert request ttlMs now hfree =>
    refine ⟨Nat.le_succ_of_le hfence, fun row hrow => ?_⟩
    rcases List.mem_append.mp hrow with hbefore | hnew
    · exact hrows row hbefore
    · rw [List.mem_singleton.mp hnew]
      exact Or.inr (Nat.lt_succ_of_le hfence)

/-- An active lease has the highest token of its pool's endpoint. -/
def Topmost (t : LeaseTable) : Prop :=
  ∀ a ∈ t.leases, ∀ b ∈ t.leases, a.slot = b.slot → a.state = .active → b.leaseId ≠ a.leaseId →
    b.fencingToken < a.fencingToken

theorem TableStep.topmost (h : TableStep t t') (htop : Topmost t) : Topmost t' := by
  cases h with
  | same => exact htop
  | rewrite f hf =>
    intro a ha b hb hslot hactive hne
    obtain ⟨a', ha', rfl⟩ := List.mem_map.mp ha
    obtain ⟨b', hb', rfl⟩ := List.mem_map.mp hb
    rw [(hf a').request, (hf b').request] at hslot
    rw [(hf a').leaseId, (hf b').leaseId] at hne
    rw [(hf a').fencingToken, (hf b').fencingToken]
    exact htop a' ha' b' hb' hslot ((hf a').active hactive) hne
  | skip => exact htop
  | insert request ttlMs now hfree =>
    intro a ha b hb hslot hactive hne
    rcases List.mem_append.mp ha with ha | ha <;> rcases List.mem_append.mp hb with hb | hb
    · exact htop a ha b hb hslot hactive hne
    · rw [List.mem_singleton.mp hb] at hslot
      exact absurd ⟨a, ha, hactive, hslot⟩ hfree
    · rw [List.mem_singleton.mp ha]
      exact Nat.lt_succ_of_le (t.fenced b hb)
    · rw [List.mem_singleton.mp ha, List.mem_singleton.mp hb] at hne
      exact absurd rfl hne

/-- The fencing tokens of the leases of a state. -/
structure TokensIncrease (s : Leasing) : Prop where
  later : ∀ es, ∀ row ∈ (coordinators.events.run s es).shared.table.leases,
    (∀ old ∈ s.shared.table.leases, old.leaseId ≠ row.leaseId) →
    ∀ old ∈ s.shared.table.leases, old.fencingToken < row.fencingToken
  topmost : Topmost s.shared.table

/-! ## Stale holders -/

/-- A lease is active and unexpired. -/
def LeaseStores.live (s : LeaseStores) (id : Nat) : Bool :=
  (s.table.row? id).any fun row => row.state = .active ∧ s.now < row.expiresAt

theorem live_iff {id : Nat} : stores.live id = true ↔
    ∃ row, stores.table.row? id = some row ∧ row.state = .active ∧ stores.now < row.expiresAt := by
  unfold LeaseStores.live
  cases stores.table.row? id with
  | none => simp
  | some row => simp

theorem live_of_ends {id : Nat} (hknown : (stores.table.row? id).isSome = true)
    (hx : stores.table.Extends t) (he : stores.table.Ends t id)
    (hlive : LeaseStores.live { stores with table := t } id = true) : stores.live id = true := by
  obtain ⟨row', hrow', hactive, hexpiry⟩ := live_iff.mp hlive
  obtain ⟨row, hrow⟩ := Option.isSome_iff_exists.mp hknown
  obtain ⟨same, hsame, hrewrite⟩ := hx.rows id row hrow
  obtain rfl := Option.some.inj (hsame.symm.trans hrow')
  refine live_iff.mpr ⟨row, hrow, hrewrite.active hactive, ?_⟩
  rw [← he row same hrow hrow' hactive]
  exact hexpiry

/-- A lease that has ended is not renewed. -/
theorem renew_ended (ownerId : String) (ttlMs : Nat) (hover : stores.live lease.leaseId = false) :
    (stores.table.renew ownerId lease.leaseId lease.fencingToken ttlMs stores.now).2 = none := by
  cases hrenew :
      (stores.table.renew ownerId lease.leaseId lease.fencingToken ttlMs stores.now).2 with
  | none => rfl
  | some renewed =>
    obtain ⟨row, hrow, -, -, hactive, hlive, -⟩ := LeaseTable.renew_some hrenew
    rw [live_iff.mpr ⟨row, hrow, hactive, hlive⟩] at hover
    exact absurd hover (by simp)

theorem resume_renewRow {ownerId : String} {ttlMs : Nat} (hover : stores.live lease.leaseId = false) :
    (resumeLease stores (.renewRow ownerId lease ttlMs)).2 = .done (.renewed none) := by
  have hnone := renew_ended ownerId ttlMs hover
  simp only [resumeLease]
  split
  · rfl
  · rename_i hrenew
    rw [hrenew] at hnone
    exact absurd hnone (by simp)

/-- **A step revives no lease.** -/
theorem resume_live {id : Nat} (hknown : (stores.table.row? id).isSome = true)
    (hlive : (resumeLease stores c).1.live id = true) : stores.live id = true := by
  cases c with
  | sweep request ttlMs keys =>
    exact live_of_ends hknown (stores.table.extends_reapExpired stores.now)
      (stores.table.ends_reapExpired stores.now id) hlive
  | insert request ttlMs keys =>
    rw [resume_insert_table] at hlive
    exact live_of_ends hknown (stores.table.extends_insertLease request ttlMs stores.now)
      (stores.table.ends_insertLease request ttlMs stores.now id) hlive
  | lock l ttlMs keys =>
    simp only [resumeLease] at hlive
    split at hlive <;> exact hlive
  | undo l ttlMs keys =>
    exact live_of_ends hknown (stores.table.extends_release _ _ _ _)
      (stores.table.ends_release _ _ _ id _) hlive
  | renewRow ownerId l ttlMs =>
    rw [resume_renewRow_table] at hlive
    by_cases hsame : id = l.leaseId
    · subst hsame
      cases hover : stores.live l.leaseId with
      | true => rfl
      | false =>
        rw [← hover]
        exact live_of_ends hknown (stores.table.extends_renew _ _ _ _ _)
          (LeaseTable.renew_none (renew_ended ownerId ttlMs hover) _) hlive
    · exact live_of_ends hknown (stores.table.extends_renew _ _ _ _ _)
        (stores.table.ends_renew _ _ _ _ hsame) hlive
  | renewLock ownerId l renewed ttlMs =>
    simp only [resumeLease] at hlive
    split at hlive <;> exact hlive
  | renewUndo ownerId l =>
    exact live_of_ends hknown (stores.table.extends_release _ _ _ _)
      (stores.table.ends_release _ _ _ id _) hlive
  | releaseRow ownerId l state =>
    rw [resume_releaseRow_table] at hlive
    exact live_of_ends hknown (stores.table.extends_release _ _ _ _)
      (stores.table.ends_release _ _ _ id _) hlive
  | releaseLock l => exact hlive
  | reap =>
    exact live_of_ends hknown (stores.table.extends_reapExpired stores.now)
      (stores.table.ends_reapExpired stores.now id) hlive
  | done result => exact hlive

/-- A lease that has ended. -/
def LeaseStores.Ended (s : LeaseStores) (id : Nat) : Prop :=
  (s.table.row? id).isSome = true ∧ s.live id = false

theorem TableStep.extends (h : TableStep t t') : t.Extends t' := by
  cases h with
  | same => exact LeaseTable.extends_refl t
  | rewrite f hf => exact LeaseTable.extends_rewrite t f hf
  | skip => exact ⟨fun _ row h => ⟨row, h, .rfl row⟩, Nat.le_succ _⟩
  | insert request ttlMs now hfree =>
    have hx := t.extends_insertLease request ttlMs now
    unfold LeaseTable.insertLease at hx
    rw [dif_neg hfree] at hx
    exact hx

theorem LeaseStores.Ended.next {id : Nat} (h : s.shared.Ended id) (e : CallEvent LeaseInput) :
    (coordinators.events.next s e).shared.Ended id := by
  refine ⟨?_, ?_⟩
  · obtain ⟨row, hrow⟩ := Option.isSome_iff_exists.mp h.1
    obtain ⟨row', hrow', -⟩ := (next_table s e).extends.rows id row hrow
    exact Option.isSome_iff_exists.mpr ⟨row', hrow'⟩
  · refine Bool.eq_false_iff.mpr fun hlive => ?_
    have hbefore : s.shared.live id = true := by
      have hnext := coordinators.next_cases s e
      generalize coordinators.events.next s e = s' at hnext hlive
      cases hnext with
      | idle n => exact hlive
      | input i =>
        cases i with
        | tick ms =>
          obtain ⟨row, hrow, hactive, hexpiry⟩ := live_iff.mp hlive
          exact live_iff.mpr ⟨row, hrow, hactive, Nat.lt_of_le_of_lt (Nat.le_add_right _ _) hexpiry⟩
        | _ => exact hlive
      | resume n before after c hcall hcalls => exact resume_live h.1 hlive
    rw [h.2] at hbefore
    exact absurd hbefore (by simp)

theorem map_row? {f : ProxyLease → ProxyLease} {id : Nat}
    (hf : ∀ row, row.leaseId = id → f row = row) : (t.row? id).map f = t.row? id := by
  cases hrow : t.row? id with
  | none => rfl
  | some row => rw [Option.map_some, hf row (LeaseTable.row?_id hrow)]

theorem not_holds {ownerId : String} {leaseId token id : Nat} {row : ProxyLease}
    (hrow : row.leaseId = id) (hne : id ≠ leaseId) :
    ¬LeaseTable.holds ownerId leaseId token row = true :=
  fun h => hne (hrow.symm.trans (LeaseTable.holds_iff.mp h).1)

/-- A renewal or a release leaves the rows of other leases alone. -/
theorem resume_rows (hused : c.used = some lease) {id : Nat} (hne : id ≠ lease.leaseId) :
    (resumeLease stores c).1.table.row? id = stores.table.row? id := by
  have hrelease : ∀ ownerId state, (stores.table.release ownerId lease.leaseId lease.fencingToken
      state).1.row? id = stores.table.row? id := by
    intro ownerId state
    rw [LeaseTable.row?_release]
    refine map_row? fun row hrow => ?_
    unfold LeaseTable.releaseRow
    rw [if_neg (not_holds hrow hne)]
  cases c with
  | renewRow ownerId l ttlMs =>
    obtain rfl := Option.some.inj hused
    rw [resume_renewRow_table, LeaseTable.row?_renew]
    refine map_row? fun row hrow => ?_
    unfold LeaseTable.renewRow
    rw [if_neg fun h => not_holds hrow hne h.1]
  | renewLock ownerId l renewed ttlMs =>
    simp only [resumeLease]
    split <;> rfl
  | renewUndo ownerId l =>
    obtain rfl := Option.some.inj hused
    exact hrelease ownerId .expired
  | releaseRow ownerId l state =>
    obtain rfl := Option.some.inj hused
    rw [resume_releaseRow_table]
    exact hrelease ownerId state
  | releaseLock l => rfl
  | _ => exact absurd hused (by simp [LeaseCall.used])

/-- And the entries of other leases. -/
theorem resume_locks (hused : c.used = some lease) {key value : String}
    (hvalue : value ≠ lease.lockValue) (hentry : stores.locks.get key stores.now = some value) :
    (resumeLease stores c).1.locks.get key stores.now = some value := by
  cases c with
  | renewRow ownerId l ttlMs =>
    rw [resume_renewRow_table]
    exact hentry
  | renewLock ownerId l renewed ttlMs =>
    obtain rfl := Option.some.inj hused
    have hkept := ExpiringLocks.get_renew l.lockKey ttlMs hvalue hentry
    simp only [resumeLease]
    split
    · rename_i hrenew
      rw [hrenew] at hkept
      exact hkept
    · rename_i hrenew
      rw [hrenew] at hkept
      exact hkept
  | renewUndo ownerId l => exact hentry
  | releaseRow ownerId l state =>
    rw [resume_releaseRow_table]
    exact hentry
  | releaseLock l =>
    obtain rfl := Option.some.inj hused
    exact ExpiringLocks.get_release hvalue hentry
  | _ => exact absurd hused (by simp [LeaseCall.used])

/-- What the holder of a lease can do to others, and with a lease that has ended or was replaced. -/
structure Harmless (s : Leasing) : Prop where
  ended : ∀ id, s.shared.Ended id → ∀ es, (coordinators.events.run s es).shared.Ended id
  renewRow : ∀ n ownerId lease ttlMs, s.calls[n]? = some (.renewRow ownerId lease ttlMs) →
    s.shared.live lease.leaseId = false →
    (coordinators.events.next s (.resume n)).calls[n]? = some (.done (.renewed none))
  renewLock : ∀ n ownerId lease renewed ttlMs,
    s.calls[n]? = some (.renewLock ownerId lease renewed ttlMs) →
    s.shared.locks.get lease.lockKey s.shared.now ≠ some lease.lockValue →
    (coordinators.events.next s (.resume n)).calls[n]? = some (.renewUndo ownerId lease)
  renewUndo : ∀ n ownerId lease, s.calls[n]? = some (.renewUndo ownerId lease) →
    (coordinators.events.next s (.resume n)).calls[n]? = some (.done (.renewed none))
  rows : ∀ n c lease, s.calls[n]? = some c → c.used = some lease → ∀ id, id ≠ lease.leaseId →
    (coordinators.events.next s (.resume n)).shared.table.row? id = s.shared.table.row? id
  locks : ∀ n c lease, s.calls[n]? = some c → c.used = some lease → ∀ key value,
    value ≠ lease.lockValue → s.shared.locks.get key s.shared.now = some value →
    (coordinators.events.next s (.resume n)).shared.locks.get key s.shared.now = some value

theorem harmless (s : Leasing) : Harmless s where
  ended := by
    intro id h es
    exact EventSystem.run_inv_true (P := fun s' : Leasing => s'.shared.Ended id) h
      fun s' e hs => hs.next e
  renewRow := by
    intro n ownerId lease ttlMs hcall hover
    rw [CallSystem.next_resume_call hcall]
    exact congrArg some (resume_renewRow hover)
  renewLock := by
    intro n ownerId lease renewed ttlMs hcall hentry
    rw [CallSystem.next_resume_call hcall]
    simp only [coordinators, resumeLease, ExpiringLocks.renew_refused hentry]
  renewUndo := by
    intro n ownerId lease hcall
    rw [CallSystem.next_resume_call hcall]
    rfl
  rows := by
    intro n c lease hcall hused id hne
    rw [CallSystem.next_resume hcall]
    exact resume_rows hused hne
  locks := by
    intro n c lease hcall hused key value hvalue hentry
    rw [CallSystem.next_resume hcall]
    exact resume_locks hused hvalue hentry

theorem tokens_increase (es : List (CallEvent LeaseInput)) :
    TokensIncrease (coordinators.events.run Leasing.initial es) where
  later := by
    intro es' row hrow hnew old hold
    generalize coordinators.events.run Leasing.initial es = s at hrow hnew hold
    have hstart : NewlyFenced s.shared.table s.shared.table :=
      ⟨Nat.le_refl _, fun row hrow => Or.inl ⟨row, hrow, rfl, rfl⟩⟩
    have hrun : NewlyFenced s.shared.table (coordinators.events.run s es').shared.table :=
      EventSystem.run_inv_true (P := fun s' => NewlyFenced s.shared.table s'.shared.table) hstart
        fun s' e h => (next_table s' e).newlyFenced h
    rcases hrun.2 row hrow with ⟨before, hbefore, hid, -⟩ | hhigher
    · exact absurd hid (hnew before hbefore)
    · exact Nat.lt_of_le_of_lt (s.shared.table.fenced old hold) hhigher
  topmost := by
    have hstart : Topmost LeaseTable.empty := fun a ha => absurd ha List.not_mem_nil
    exact EventSystem.run_inv_true (P := fun s : Leasing => Topmost s.shared.table) hstart
      fun s e h => (next_table s e).topmost h

/-- A lease that is active and unexpired. In the middle of a renewal it needs its entry, too. -/
def Leasing.holding (s : Leasing) (lease : ProxyLease) : Prop :=
  s.shared.live lease.leaseId = true ∧ (s.renewing lease.leaseId →
    s.shared.locks.get lease.lockKey s.shared.now = some lease.lockValue)

theorem Exclusive.entry (h : Exclusive s) (hlease : s.returned lease) (hholding : s.holding lease) :
    s.shared.locks.get lease.lockKey s.shared.now = some lease.lockValue := by
  by_cases hrenewing : s.renewing lease.leaseId
  · exact hholding.2 hrenewing
  · obtain ⟨row, hrow, hactive, hlive⟩ := live_iff.mp hholding.1
    exact (h.held lease hlease hrenewing row hrow hactive hlive).get hlive

/-- The state after some events. -/
def Leasing.after (es : List (CallEvent LeaseInput)) : Leasing :=
  coordinators.events.run Leasing.initial es

/-- **An endpoint has one holder**, but for leases in the middle of a renewal that have lost their
entry; its fencing tokens increase; and stale holders do no harm. -/
theorem proxy_exclusion (es : List (CallEvent LeaseInput)) :
    (coordinators.events.Along Steady Leasing.initial es → ∀ a b : ProxyLease,
      (Leasing.after es).returned a → (Leasing.after es).returned b →
      a.providerId = b.providerId → a.endpointKey = b.endpointKey →
      (Leasing.after es).holding a → (Leasing.after es).holding b → a = b) ∧
    TokensIncrease (Leasing.after es) ∧ Harmless (Leasing.after es) := by
  refine ⟨fun hsteady a b ha hb hprovider hendpoint holdsa holdsb => ?_, tokens_increase es,
    harmless _⟩
  have h : Exclusive (Leasing.after es) := exclusive_run hsteady
  have hkey : a.lockKey = b.lockKey := by
    unfold Reservation.lockKey
    rw [hprovider, hendpoint]
  have hentry := h.entry ha holdsa
  rw [hkey, h.entry hb holdsb] at hentry
  have hid : b.leaseId = a.leaseId := lockValue_id (Option.some.inj hentry)
  simpa using h.reserved_unique ha hb rfl (congrArg some hid)

namespace Sample

/-- The endpoint, through one of its pools. -/
def endpoint (poolId : String) : AcquireInput where
  providerId := "provider"
  poolId := poolId
  campaignId := "record"
  endpointKeys := ["gateway:12321"]
  sessionId := none
  rotationMode := "port-pool"
  ttlMs := some 10000

/-- All steps of the `n`-th call. -/
def finish (n steps : Nat) : List (CallEvent LeaseInput) := List.replicate steps (.resume n)

/-- A lease by `worker-a`, and half of a renewal; its entry expires, and `worker-b` comes through the
other pool. -/
def overlap : List (CallEvent LeaseInput) :=
  [.input (.acquire "worker-a" (endpoint "pool-1"))] ++ finish 0 3 ++
    [.input (.tick 5000), .input (.renew "worker-a" 0 (some 60000)), .resume 1,
      .input (.tick 6000), .input (.acquire "worker-b" (endpoint "pool-2"))] ++ finish 2 3

/-- A lease by `worker-a`, released to the state `active`; `worker-b` comes through the other pool. -/
def reopened : List (CallEvent LeaseInput) :=
  [.input (.acquire "worker-a" (endpoint "pool-1"))] ++ finish 0 3 ++
    [.input (.release "worker-a" 0 .active)] ++ finish 1 2 ++
    [.input (.acquire "worker-b" (endpoint "pool-2"))] ++ finish 2 3

/-- `worker-a` reserves the endpoint; `worker-b` does so later, and is done first. -/
def overtaken : List (CallEvent LeaseInput) :=
  [.input (.acquire "worker-a" (endpoint "pool-1")), .resume 0, .resume 0,
    .input (.acquire "worker-b" (endpoint "pool-2"))] ++ finish 1 3

/-- Then `worker-b` releases its lease, and `worker-a` is given the other one. -/
def returnedLate : List (CallEvent LeaseInput) :=
  [.input (.release "worker-b" 1 .released), .resume 2, .resume 2, .resume 0]

/-- A lease, a renewal of it, and a second coordinator that is refused. -/
def renewedOnce : List (CallEvent LeaseInput) :=
  [.input (.acquire "worker-a" (endpoint "pool-1"))] ++ finish 0 3 ++
    [.input (.renew "worker-a" 0 (some 60000))] ++ finish 1 2 ++
    [.input (.acquire "worker-b" (endpoint "pool-2"))] ++ finish 2 4

/-- The lease of the endpoint with a number. -/
def proxyLease (ownerId poolId : String) (leaseId createdAt : Nat) : ProxyLease where
  providerId := "provider"
  poolId := poolId
  campaignId := "record"
  endpointKey := "gateway:12321"
  ownerId := ownerId
  sessionId := none
  rotationMode := "port-pool"
  leaseId := leaseId
  fencingToken := leaseId + 1
  state := .active
  createdAt := createdAt
  expiresAt := createdAt + 10000

end Sample

instance (s : Leasing) (lease : ProxyLease) : Decidable (s.returned lease) :=
  inferInstanceAs (Decidable (_ ∈ s.calls))

instance (s : Leasing) (id : Nat) : Decidable (s.renewing id) :=
  inferInstanceAs (Decidable (∃ c ∈ s.calls, _))

instance (s : Leasing) (lease : ProxyLease) : Decidable (s.holding lease) :=
  inferInstanceAs (Decidable (_ ∧ (_ → _)))

/-- A lease that is renewed keeps another coordinator out. -/
theorem proxy_exclusion_renewed :
    (Leasing.after Sample.renewedOnce).holding (Sample.proxyLease "worker-a" "pool-1" 0 0) ∧
      ∀ b : ProxyLease, (Leasing.after Sample.renewedOnce).returned b → "provider" = b.providerId →
        "gateway:12321" = b.endpointKey → (Leasing.after Sample.renewedOnce).holding b →
        Sample.proxyLease "worker-a" "pool-1" 0 0 = b :=
  have hholding : (Leasing.after Sample.renewedOnce).holding
      (Sample.proxyLease "worker-a" "pool-1" 0 0) := by decide +kernel
  ⟨hholding, fun b hb hprovider hendpoint => (proxy_exclusion Sample.renewedOnce).1
    (by decide +kernel) _ b (by decide +kernel) hb hprovider hendpoint hholding⟩

/-- **A lease in the middle of a renewal beside its successor**; a lease that was released to
`active` beside its successor; and a token below the one of the lease that was returned before. -/
theorem renewal_overlaps :
    (¬∀ es (a b : ProxyLease), (Leasing.after es).returned a → (Leasing.after es).returned b →
      a.providerId = b.providerId → a.endpointKey = b.endpointKey →
      (Leasing.after es).shared.live a.leaseId = true →
      (Leasing.after es).shared.live b.leaseId = true → a = b) ∧
    (¬∀ es (a b : ProxyLease), (∀ e ∈ es, ∀ o n t, e ≠ .input (.renew o n t)) →
      (Leasing.after es).returned a → (Leasing.after es).returned b →
      a.providerId = b.providerId → a.endpointKey = b.endpointKey →
      (Leasing.after es).shared.live a.leaseId = true →
      (Leasing.after es).shared.live b.leaseId = true → a = b) ∧
    ¬∀ es es' (a b : ProxyLease), (Leasing.after es).returned a → ¬(Leasing.after es).returned b →
      (Leasing.after (es ++ es')).returned b → a.providerId = b.providerId →
      a.endpointKey = b.endpointKey → a.fencingToken < b.fencingToken := by
  refine ⟨fun hall => ?_, fun hall => ?_, fun hall => ?_⟩
  · have hsame := hall Sample.overlap (Sample.proxyLease "worker-a" "pool-1" 0 0)
      (Sample.proxyLease "worker-b" "pool-2" 1 11000) (by decide +kernel) (by decide +kernel) rfl rfl
      (by decide +kernel) (by decide +kernel)
    exact absurd hsame (by decide)
  · have hsame := hall Sample.reopened (Sample.proxyLease "worker-a" "pool-1" 0 0)
      (Sample.proxyLease "worker-b" "pool-2" 1 0) (by simp [Sample.reopened, Sample.finish])
      (by decide +kernel) (by decide +kernel) rfl rfl (by decide +kernel) (by decide +kernel)
    exact absurd hsame (by decide)
  · have hlater := hall Sample.overtaken Sample.returnedLate
      (Sample.proxyLease "worker-b" "pool-2" 1 0) (Sample.proxyLease "worker-a" "pool-1" 0 0)
      (by decide +kernel) (by decide +kernel) (by decide +kernel) rfl rfl
    exact absurd hlater (by decide)

end LinkSuffix
