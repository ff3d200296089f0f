import LinkSuffix.Proxy.Circuit
import LinkSuffix.Proxy.Endpoint
import LinkSuffix.Proxy.Lease

/-!
# Acquiring a proxy

`resolve` of the proxy runtime walks the providers of a policy, and `acquire` of the lease
coordinator the endpoints of one pool; both reserve a row first and undo it when a later step fails.
What each step does is given by `Steps`: any call of it may throw, and `reserve` and `lock.acquire`
may refuse. `release` succeeds, and the call ends before any of its reservations expires.

* `LeaksNothing`: after a throw no reservation of the call is active, after a return just the
  returned one.
* **`acquisition_leaks_nothing_iff`**: that holds, of `acquire` and of `resolve`, exactly when
  `lock.acquire` throws in none of its calls.
* **`lock_failure_leaks`**: a `lock.acquire` that throws leaves the reservation behind.
-/

namespace LinkSuffix

/-! ## The policy and its providers -/

/-- A row of `tah_proxy_policies`. -/
structure ProxyPolicy where
  enabled : Bool
  primaryProviderId : String
  primaryPoolId : String
  fallbackProviderIds : List String
  rotationMode : String
  stickyTtlSeconds : Nat
  geo : List (String × String)

/-- The columns of `tah_proxy_providers` that `resolve` reads. -/
structure ProxyProvider where
  providerId : String
  enabled : Bool
  gatewayHost : String
  authMode : String

/-- The input of `resolve`. -/
structure ResolveInput where
  campaignRecordId : String
  sessionId : Option String
  leaseTtlMs : Option Int
  geo : List (String × String)
  asn : Option String

/-- What `resolve` reads before it starts: the policy, the tables, and the clock. -/
structure ProxyRuntime where
  policy : Option ProxyPolicy
  providers : List ProxyProvider
  pools : List ProxyPool
  circuits : List Circuit
  repository : CircuitRepository
  digest : String → Nat
  ownerId : String
  now : Nat

/-- `{ ...base, ...own }`. -/
def spread (base own : List (String × String)) : List (String × String) :=
  base.filter (fun field => field.1 ∉ own.map Prod.fst) ++ own

/-! ## The steps -/

/-- The request an endpoint is built from. -/
structure EndpointRequest where
  campaignId : String
  geo : List (String × String)
  asn : Option String
  rotationMode : String
  sessionId : String
  ttlSeconds : Nat
  port : Nat

/-- `{ url, protocol }` of a built endpoint. -/
structure BuiltEndpoint where
  url : String
  protocol : String
  deriving DecidableEq

/-- What the `n`-th call of each step does: it throws, it refuses (another coordinator was first), or
it does its work. -/
structure Steps (Secret : Type) where
  reserve : Nat → Except String Bool
  lock : Nat → Except String Bool
  runtimeSecret : Nat → String → Except String Secret
  endpointBuilder :
    Nat → ProxyProvider → Option Secret → EndpointRequest → Except String BuiltEndpoint

/-- The lease table, and how often each step was called. -/
structure Attempt where
  table : LeaseTable
  reserves : Nat := 0
  locks : Nat := 0
  secrets : Nat := 0
  endpoints : Nat := 0

/-- The errors of a resolution, with their messages. -/
inductive ProxyError where
  | policyNotFound (message : String)
  | runtimeUnavailable (message : String)
  | leaseUnavailable (message : String)
  | other (message : String)
  deriving DecidableEq

/-- `errorText`. -/
def ProxyError.message : ProxyError → String
  | .policyNotFound message => message
  | .runtimeUnavailable message => message
  | .leaseUnavailable message => message
  | .other message => message

/-! ## The coordinator -/

variable {Secret : Type}

/-- The loop of `acquire` over the endpoint keys. -/
def acquireLoop (steps : Steps Secret) (request : Reservation) (ttlMs now : Nat) :
    List String → Attempt → Attempt × Except ProxyError ProxyLease
  | [], a => (a, .error (.leaseUnavailable "No proxy endpoint is currently available"))
  | endpointKey :: endpointKeys, a =>
    let called := { a with reserves := a.reserves + 1 }
    match steps.reserve a.reserves with
    | .error message => (called, .error (.other message))
    | .ok false => acquireLoop steps request ttlMs now endpointKeys called
    | .ok true =>
      match a.table.reserve { request with endpointKey := endpointKey } ttlMs now with
      | (table, none) =>
        acquireLoop steps request ttlMs now endpointKeys { called with table := table }
      | (table, some lease) =>
        let locking := { called with table := table, locks := a.locks + 1 }
        match steps.lock a.locks with
        | .error message => (locking, .error (.other message))
        | .ok true => (locking, .ok lease)
        | .ok false =>
          let released := table.release request.ownerId lease.leaseId lease.fencingToken .released
          acquireLoop steps request ttlMs now endpointKeys { locking with table := released.1 }

/-- `acquire`. -/
def acquireLease (steps : Steps Secret) (request : Reservation) (endpointKeys : List String)
    (ttlMs : Option Int) (now : Nat) (a : Attempt) : Attempt × Except ProxyError ProxyLease :=
  let endpointKeys := endpointKeys.eraseDups
  if endpointKeys = [] then (a, .error (.leaseUnavailable "Proxy pool contains no endpoints"))
  else acquireLoop steps request (boundedTtl ttlMs) now endpointKeys a

/-! ## The runtime -/

/-- What `resolve` returns. -/
structure ResolvedProxy where
  leaseId : Nat
  fencingToken : Nat
  providerId : String
  poolId : String
  endpointKey : String
  proxyUrl : String
  protocol : String
  rotationMode : String
  leaseTtlMs : Nat
  fallbackUsed : Bool
  deriving DecidableEq

/-- The clamp of `leaseTtlMs` in `resolve`. -/
def resolveTtl (leaseTtlMs : Option Int) : Int :=
  let ttl := match leaseTtlMs with
    | none => 180000
    | some ttl => if ttl = 0 then 180000 else ttl
  max 30000 (min 300000 ttl)

/-- The pool of a provider that serves a policy. -/
def poolFor (rt : ProxyRuntime) (policy : ProxyPolicy) (providerId : String) : Option ProxyPool :=
  let providerPools := rt.pools.filter fun pool => pool.providerId = providerId ∧ pool.enabled
  if providerId = policy.primaryProviderId then
    providerPools.find? fun pool => pool.poolId = policy.primaryPoolId
  else providerPools.head?

/-- The circuit of a whole pool, and of one endpoint of it. -/
def poolCircuit (rt : ProxyRuntime) (pool : ProxyPool) : Option Circuit :=
  rt.circuits.find? fun item => item.key.providerId = pool.providerId ∧
    item.key.poolId = pool.poolId ∧ item.key.endpointKey ∈ ["*", ""]

def endpointCircuit (rt : ProxyRuntime) (pool : ProxyPool) (endpointKey : String) : Option Circuit :=
  findCircuit rt.circuits ⟨pool.providerId, pool.poolId, physicalEndpointKey endpointKey⟩

/-- The endpoint keys of a pool whose circuits do not block. -/
def openKeys (rt : ProxyRuntime) (policy : ProxyPolicy) (provider : ProxyProvider) (pool : ProxyPool)
    (sessionId : String) : Except String (List String) := do
  let keys ← leaseEndpointKeys rt.digest pool provider.gatewayHost policy.rotationMode sessionId
  return keys.filter fun key => !circuitBlocks rt.repository (endpointCircuit rt pool key) rt.now

/-- What follows the lease inside the `try`: the secret, the port and the endpoint. -/
def buildEndpoint (steps : Steps Secret) (policy : ProxyPolicy) (provider : ProxyProvider)
    (input : ResolveInput) (campaignId sessionId : String) (lease : ProxyLease) (a : Attempt) :
    Attempt × Except String BuiltEndpoint :=
  let ipOnly : Bool := provider.authMode = "ip-allowlist"
  let asked := if ipOnly then a else { a with secrets := a.secrets + 1 }
  let secret : Except String (Option Secret) :=
    if ipOnly then .ok none else (steps.runtimeSecret a.secrets provider.providerId).map some
  match secret, endpointPort lease.endpointKey with
  | .error message, _ => (asked, .error message)
  | .ok _, .error message => (asked, .error message)
  | .ok secret, .ok port =>
    ({ asked with endpoints := a.endpoints + 1 },
      steps.endpointBuilder a.endpoints provider secret {
        campaignId := campaignId
        geo := spread policy.geo input.geo
        asn := input.asn
        rotationMode := policy.rotationMode
        sessionId := sessionId
        ttlSeconds := policy.stickyTtlSeconds
        port := port })

/-- The `try` of one provider: its lease and endpoint, or the message of what failed. A lease that was
assigned is released by the `catch`. -/
def tryProvider (steps : Steps Secret) (rt : ProxyRuntime) (policy : ProxyPolicy)
    (provider : ProxyProvider) (pool : ProxyPool) (input : ResolveInput)
    (campaignId sessionId : String) (a : Attempt) : Attempt × Except String ResolvedProxy :=
  match openKeys rt policy provider pool sessionId with
  | .error message => (a, .error message)
  | .ok [] => (a, .error "every endpoint circuit is open")
  | .ok (key :: keys) =>
    let request : Reservation := {
      providerId := provider.providerId
      poolId := pool.poolId
      campaignId := campaignId
      endpointKey := ""
      ownerId := rt.ownerId
      sessionId := some sessionId
      rotationMode := policy.rotationMode }
    match acquireLease steps request (key :: keys) (some (resolveTtl input.leaseTtlMs)) rt.now a with
    | (a, .error error) => (a, .error error.message)
    | (a, .ok lease) =>
      match buildEndpoint steps policy provider input campaignId sessionId lease a with
      | (a, .error message) =>
        let released := a.table.release rt.ownerId lease.leaseId lease.fencingToken .released
        ({ a with table := released.1 }, .error message)
      | (a, .ok endpoint) =>
        (a, .ok {
          leaseId := lease.leaseId
          fencingToken := lease.fencingToken
          providerId := provider.providerId
          poolId := pool.poolId
          endpointKey := lease.endpointKey
          proxyUrl := endpoint.url
          protocol := endpoint.protocol
          rotationMode := policy.rotationMode
          leaseTtlMs := max 30000 (lease.expiresAt - rt.now)
          fallbackUsed := provider.providerId ≠ policy.primaryProviderId })

/-- The loop of `resolve` over the providers of the policy. -/
def resolveLoop (steps : Steps Secret) (rt : ProxyRuntime) (policy : ProxyPolicy)
    (input : ResolveInput) (campaignId sessionId : String) :
    List String → List String → Attempt → Attempt × Except ProxyError ResolvedProxy
  | [], failures, a =>
    (a, .error (.runtimeUnavailable
      ("No proxy provider could serve " ++ campaignId ++ ": " ++ "; ".intercalate failures)))
  | providerId :: candidates, failures, a =>
    let next := fun reason =>
      resolveLoop steps rt policy input campaignId sessionId candidates
        (failures ++ [providerId ++ ": " ++ reason])
    match rt.providers.reverse.find? fun provider => provider.providerId = providerId with
    | none => next "disabled or missing" a
    | some provider =>
      if provider.enabled = false then next "disabled or missing" a
      else
        match poolFor rt policy providerId with
        | none => next "no enabled pool" a
        | some pool =>
          if circuitBlocks rt.repository (poolCircuit rt pool) rt.now then
            next "pool circuit open" a
          else
            match tryProvider steps rt policy provider pool input campaignId sessionId a with
            | (a, .error message) => next message a
            | (a, .ok resolved) => (a, .ok resolved)

/-- `resolve`. -/
def resolve (steps : Steps Secret) (rt : ProxyRuntime) (input : ResolveInput) (a : Attempt) :
    Attempt × Except ProxyError ResolvedProxy :=
  let campaignId := trim input.campaignRecordId
  if campaignId = "" then (a, .error (.policyNotFound "campaignRecordId is required"))
  else
    match rt.policy.filter (·.enabled) with
    | none => (a, .error (.policyNotFound "Campaign has no enabled universal proxy policy"))
    | some policy =>
      match requireBrowserSessionId input.sessionId with
      | .error message => (a, .error (.other message))
      | .ok sessionId =>
        resolveLoop steps rt policy input campaignId sessionId
          (policy.primaryProviderId :: policy.fallbackProviderIds) [] a

/-! ## The reservations of a call -/

namespace LeaseTable

variable {t : LeaseTable} {lease : ProxyLease} {request : Reservation} {ttlMs now since : Nat}

/-- The active rows drawn from the `since`-th lease id on. -/
def activeSince (t : LeaseTable) (since : Nat) : List ProxyLease :=
  t.leases.filter fun lease => lease.state = .active ∧ since ≤ lease.leaseId

theorem activeSince_nextId : t.activeSince t.nextId = [] := by
  refine List.filter_eq_nil_iff.mpr fun lease h => ?_
  have hfresh := t.fresh lease h
  simp only [decide_eq_true_eq]
  omega

/-- A sweep leaves the reservations that have not expired. -/
theorem activeSince_reapExpired (h : ∀ lease ∈ t.activeSince since, now < lease.expiresAt) :
    (t.reapExpired now).activeSince since = t.activeSince since := by
  have hfilter : (t.leases.map (sweepRow now)).filter
        (fun lease => lease.state = .active ∧ since ≤ lease.leaseId) =
      ((t.leases.filter fun lease => lease.state = .active ∧ since ≤ lease.leaseId).filter
        fun _ => true) := by
    have hlive : ∀ r ∈ t.leases, r.state = .active → since ≤ r.leaseId → sweepRow now r = r := by
      intro r hr hactive hsince
      have hexpires := h r (List.mem_filter.mpr ⟨hr, by simp [hactive, hsince]⟩)
      unfold sweepRow
      rw [if_neg]
      rintro ⟨-, hle⟩
      omega
    refine Lib.filter_map_of_kept (fun r hr => ?_) fun r hr hselected _ => ?_
    · have hrow := sweepRow_rewrites now r
      by_cases hactive : r.state = .active ∧ since ≤ r.leaseId
      · rw [hlive r hr hactive.1 hactive.2]
        simp
      · have hafter : ¬((sweepRow now r).state = .active ∧ since ≤ (sweepRow now r).leaseId) := by
          rw [hrow.leaseId]
          exact fun hs => hactive ⟨hrow.active hs.1, hs.2⟩
        simp [hactive, hafter]
    · simp only [decide_eq_true_eq] at hselected
      exact hlive r hr hselected.1 hselected.2
  simpa [activeSince, reapExpired, rewrite] using hfilter

/-- A reservation that finds its endpoint taken adds nothing. -/
theorem activeSince_reserve_none (h : ∀ lease ∈ t.activeSince since, now < lease.expiresAt)
    (hnone : (t.reserve request ttlMs now).2 = none) :
    (t.reserve request ttlMs now).1.activeSince since = t.activeSince since := by
  unfold reserve insertLease at hnone ⊢
  split at hnone
  · rename_i hoccupied
    rw [dif_pos hoccupied]
    exact activeSince_reapExpired h
  · exact absurd hnone (by simp)

/-- A reservation that succeeds adds its row. -/
theorem reserve_some (since : Nat) (hsome : (t.reserve request ttlMs now).2 = some lease) :
    lease.toReservation = request ∧ lease.expiresAt = now + ttlMs ∧
      (since ≤ t.nextId → (∀ lease ∈ t.activeSince since, now < lease.expiresAt) →
        (t.reserve request ttlMs now).1.activeSince since = t.activeSince since ++ [lease]) := by
  unfold reserve insertLease at hsome ⊢
  split at hsome
  · exact absurd hsome (by simp)
  · rename_i hfree
    rw [dif_neg hfree]
    obtain rfl := Option.some.inj hsome
    refine ⟨rfl, rfl, fun hsince h => ?_⟩
    show ((t.reapExpired now).leases ++ [(t.reapExpired now).newLease request ttlMs now]).filter _ = _
    rw [List.filter_append, ← activeSince_reapExpired h]
    refine congrArg _ ?_
    simpa [newLease, reapExpired, rewrite] using hsince

theorem nextId_reserve : t.nextId ≤ (t.reserve request ttlMs now).1.nextId := by
  unfold reserve insertLease
  split
  · exact Nat.le_succ _
  · exact Nat.le_succ _

/-- The release of the last reservation takes it away. -/
theorem activeSince_release {rest : List ProxyLease} {ownerId : String}
    (h : t.activeSince since = rest ++ [lease]) (howner : lease.ownerId = ownerId) :
    (t.release ownerId lease.leaseId lease.fencingToken .released).1.activeSince since = rest := by
  have hmem : lease ∈ t.activeSince since := by
    rw [h]
    exact List.mem_append_right _ (List.mem_singleton.mpr rfl)
  obtain ⟨hlease, hselected⟩ := List.mem_filter.mp hmem
  simp only [decide_eq_true_eq] at hselected
  have hids : ((rest ++ [lease]).map (·.leaseId)).Nodup := by
    rw [← h]
    exact t.distinct.sublist (List.filter_sublist.map _)
  have hfilter : (t.leases.map (releaseRow ownerId lease.leaseId lease.fencingToken .released)).filter
        (fun r => r.state = .active ∧ since ≤ r.leaseId) =
      ((t.leases.filter fun r => r.state = .active ∧ since ≤ r.leaseId).filter
        fun r => r.leaseId ≠ lease.leaseId) := by
    refine Lib.filter_map_of_kept (fun r hr => ?_) fun r hr _ hother => ?_
    · by_cases hid : r.leaseId = lease.leaseId
      · have hrow : r = lease := Lib.key_unique t.distinct hr hlease hid
        subst hrow
        simp [releaseRow, holds, howner, hselected]
      · simp [releaseRow, holds, hid]
    · simp only [decide_eq_true_eq] at hother
      simp [releaseRow, holds, hother]
  have hrest : (rest ++ [lease]).filter (fun r => r.leaseId ≠ lease.leaseId) = rest := by
    rw [List.map_append, List.map_singleton] at hids
    have hother : ∀ r ∈ rest, r.leaseId ≠ lease.leaseId := fun r hr =>
      (List.nodup_append.mp hids).2.2 _ (List.mem_map_of_mem hr) _ (List.mem_singleton.mpr rfl)
    rw [List.filter_append, List.filter_eq_self.mpr (by simpa using hother)]
    simp
  calc (t.release ownerId lease.leaseId lease.fencingToken .released).1.activeSince since
      = (t.activeSince since).filter (fun r => r.leaseId ≠ lease.leaseId) := hfilter
    _ = rest := by rw [h, hrest]

end LeaseTable

/-! ## Calls of the lock store -/

variable {steps : Steps Secret} {a b c : Attempt} {since now : Nat} {kept : List ProxyLease}

/-- `lock.acquire` answers in each of its calls from the `n`-th to before the `m`-th. -/
def LockAnswers (steps : Steps Secret) (n m : Nat) : Prop :=
  ∀ call, n ≤ call → call < m → ∃ locked, steps.lock call = .ok locked

theorem answered_none (steps : Steps Secret) (n : Nat) : LockAnswers steps n n :=
  fun _ hle hlt => absurd hlt (Nat.not_lt.mpr hle)

theorem answered_one {n : Nat} {locked : Bool} (h : steps.lock n = .ok locked) :
    LockAnswers steps n (n + 1) := by
  intro call hle hlt
  obtain rfl : call = n := by omega
  exact ⟨locked, h⟩

theorem answered_split {n m k : Nat} (hnm : n ≤ m) (hmk : m ≤ k) :
    LockAnswers steps n k ↔ LockAnswers steps n m ∧ LockAnswers steps m k := by
  constructor
  · intro h
    exact ⟨fun call hle hlt => h call hle (by omega), fun call hle hlt => h call (by omega) hlt⟩
  · rintro ⟨hfirst, hsecond⟩ call hle hlt
    by_cases hcall : call < m
    · exact hfirst call hle hcall
    · exact hsecond call (by omega) hlt

/-! ## What a call keeps -/

/-- Where the reservations of a call start, and none of them has expired. -/
structure Ready (since now : Nat) (a : Attempt) : Prop where
  drawn : since ≤ a.table.nextId
  live : ∀ lease ∈ a.table.activeSince since, now < lease.expiresAt

/-- A piece of a call: the reservations it leaves active are those it keeps, after those it leaks,
and it leaks exactly when a call of `lock.acquire` throws in it. -/
structure Progress (steps : Steps Secret) (since now : Nat) (a b : Attempt)
    (kept : List ProxyLease) : Prop where
  ready : Ready since now b
  locks : a.locks ≤ b.locks
  active : ∃ leaks, b.table.activeSince since = a.table.activeSince since ++ leaks ++ kept ∧
    (leaks = [] ↔ LockAnswers steps a.locks b.locks)

theorem Ready.progress (h : Ready since now a) : Progress steps since now a a [] where
  ready := h
  locks := Nat.le_refl _
  active := ⟨[], by simp, by simp [answered_none]⟩

/-- Counting a call of another step. -/
theorem Progress.congr (h : Progress steps since now a b kept) (htable : c.table = b.table)
    (hlocks : c.locks = b.locks) : Progress steps since now a c kept := by
  obtain ⟨hready, hle, hactive⟩ := h
  refine ⟨⟨?_, ?_⟩, ?_, ?_⟩
  · rw [htable]
    exact hready.drawn
  · rw [htable]
    exact hready.live
  · rw [hlocks]
    exact hle
  · rw [htable, hlocks]
    exact hactive

theorem Progress.trans (h : Progress steps since now a b [])
    (h' : Progress steps since now b c kept) : Progress steps since now a c kept := by
  obtain ⟨leaks, hactive, hanswered⟩ := h.active
  obtain ⟨leaks', hactive', hanswered'⟩ := h'.active
  refine ⟨h'.ready, Nat.le_trans h.locks h'.locks, leaks ++ leaks', ?_, ?_⟩
  · rw [hactive', hactive]
    simp
  · rw [List.append_eq_nil_iff, hanswered, hanswered', answered_split h.locks h'.locks]

/-- Releasing the one reservation a piece keeps. -/
theorem Progress.release {lease : ProxyLease} {ownerId : String}
    (h : Progress steps since now a b [lease]) (howner : lease.ownerId = ownerId)
    (htable : c.table =
      (b.table.release ownerId lease.leaseId lease.fencingToken .released).1)
    (hlocks : c.locks = b.locks) : Progress steps since now a c [] := by
  obtain ⟨leaks, hactive, hanswered⟩ := h.active
  have hafter : c.table.activeSince since = a.table.activeSince since ++ leaks := by
    rw [htable]
    exact LeaseTable.activeSince_release hactive howner
  refine ⟨⟨?_, ?_⟩, ?_, leaks, ?_, ?_⟩
  · rw [htable]
    exact h.ready.drawn
  · intro other hother
    refine h.ready.live other ?_
    rw [hactive]
    exact List.mem_append_left _ (hafter ▸ hother)
  · rw [hlocks]
    exact h.locks
  · rw [hafter, List.append_nil]
  · rw [hlocks]
    exact hanswered

/-- A reservation the repository refuses. -/
theorem Ready.refused (h : Ready since now a) {request : Reservation} {ttlMs : Nat}
    (hnone : (a.table.reserve request ttlMs now).2 = none)
    (htable : b.table = (a.table.reserve request ttlMs now).1) (hlocks : b.locks = a.locks) :
    Progress steps since now a b [] := by
  have hactive : b.table.activeSince since = a.table.activeSince since := by
    rw [htable]
    exact LeaseTable.activeSince_reserve_none h.live hnone
  refine ⟨⟨?_, ?_⟩, ?_, [], ?_, ?_⟩
  · rw [htable]
    exact Nat.le_trans h.drawn LeaseTable.nextId_reserve
  · rw [hactive]
    exact h.live
  · exact Nat.le_of_eq hlocks.symm
  · simp [hactive]
  · simp [hlocks, answered_none]

/-- A reservation that is made, and the call of `lock.acquire` that follows it. -/
theorem Ready.reserved (h : Ready since now a) (steps : Steps Secret) (b : Attempt)
    {request : Reservation} {ttlMs : Nat} {lease : ProxyLease} (hpos : 0 < ttlMs)
    (hsome : (a.table.reserve request ttlMs now).2 = some lease)
    (htable : b.table = (a.table.reserve request ttlMs now).1) (hlocks : b.locks = a.locks + 1) :
    (∀ locked, steps.lock a.locks = .ok locked → Progress steps since now a b [lease]) ∧
      (∀ message, steps.lock a.locks = .error message → Progress steps since now a b []) := by
  obtain ⟨-, hexpires, hactive⟩ := LeaseTable.reserve_some since hsome
  have hafter := hactive h.drawn h.live
  rw [← htable] at hafter
  have hready : Ready since now b := by
    refine ⟨?_, fun other hother => ?_⟩
    · rw [htable]
      exact Nat.le_trans h.drawn LeaseTable.nextId_reserve
    · rw [hafter] at hother
      rcases List.mem_append.mp hother with hold | hnew
      · exact h.live other hold
      · rw [List.mem_singleton.mp hnew]
        omega
  have hle : a.locks ≤ b.locks := by omega
  constructor
  · intro locked hlock
    refine ⟨hready, hle, [], ?_, ?_⟩
    · rw [hafter, List.append_nil]
    · rw [hlocks]
      exact ⟨fun _ => answered_one hlock, fun _ => rfl⟩
  · intro message hlock
    refine ⟨hready, hle, [lease], ?_, ?_⟩
    · rw [hafter, List.append_nil]
    · rw [hlocks]
      constructor
      · intro hnil
        exact absurd hnil (by simp)
      · intro hanswered
        obtain ⟨locked, hlocked⟩ := hanswered a.locks (Nat.le_refl _) (Nat.lt_succ_self _)
        rw [hlock] at hlocked
        exact absurd hlocked (by simp)

/-! ## The coordinator leaks nothing but a lock failure -/

/-- The id of the reservation a call returns. -/
def returnedIds {ε : Type} : Except ε Nat → List Nat
  | .error _ => []
  | .ok leaseId => [leaseId]

/-- The reservation a call of `acquire` keeps: the one it returns. -/
def returnedLease : Except ProxyError ProxyLease → List ProxyLease
  | .error _ => []
  | .ok lease => [lease]

/-- The loop over the endpoints. -/
theorem acquireLoop_progress {request : Reservation} {ttlMs : Nat} (hpos : 0 < ttlMs)
    (keys : List String) (h : Ready since now a) :
    Progress steps since now a (acquireLoop steps request ttlMs now keys a).1
        (returnedLease (acquireLoop steps request ttlMs now keys a).2) ∧
      ∀ lease, (acquireLoop steps request ttlMs now keys a).2 = .ok lease →
        lease.ownerId = request.ownerId := by
  induction keys generalizing a with
  | nil => exact ⟨h.progress, fun lease hok => absurd hok (by simp [acquireLoop])⟩
  | cons key keys ih =>
    unfold acquireLoop
    cases hreserve : steps.reserve a.reserves with
    | error message =>
      exact ⟨h.progress.congr rfl rfl, fun lease hok => absurd hok (by simp)⟩
    | ok tried =>
      cases tried with
      | false =>
        have hskip : Progress steps since now a { a with reserves := a.reserves + 1 } [] :=
          h.progress.congr rfl rfl
        obtain ⟨hrest, howner⟩ := ih hskip.ready
        exact ⟨hskip.trans hrest, howner⟩
      | true =>
        rcases hresult : a.table.reserve { request with endpointKey := key } ttlMs now with
          ⟨table, reserved⟩
        cases reserved with
        | none =>
          have hskip : Progress steps since now a
              { a with reserves := a.reserves + 1, table := table } [] :=
            h.refused (by rw [hresult]) (by rw [hresult]) rfl
          obtain ⟨hrest, howner⟩ := ih hskip.ready
          simp only
          exact ⟨hskip.trans hrest, howner⟩
        | some lease =>
          have hsome : (a.table.reserve { request with endpointKey := key } ttlMs now).2 =
              some lease := by rw [hresult]
          have hreserved := h.reserved steps
            { a with reserves := a.reserves + 1, table := table, locks := a.locks + 1 } hpos hsome
            (by rw [hresult]) rfl
          have howner : lease.ownerId = request.ownerId := by
            rw [(LeaseTable.reserve_some since hsome).1]
          simp only
          cases hlock : steps.lock a.locks with
          | error message =>
            exact ⟨hreserved.2 message hlock, fun lease hok => absurd hok (by simp)⟩
          | ok locked =>
            cases locked with
            | true =>
              refine ⟨hreserved.1 true hlock, fun other hok => ?_⟩
              rw [← Except.ok.inj hok]
              exact howner
            | false =>
              have hundone := (hreserved.1 false hlock).release (c := {
                a with
                reserves := a.reserves + 1
                locks := a.locks + 1
                table := (table.release request.ownerId lease.leaseId lease.fencingToken
                  .released).1 }) howner rfl rfl
              obtain ⟨hrest, howner'⟩ := ih hundone.ready
              exact ⟨hundone.trans hrest, howner'⟩

theorem acquireLease_progress (steps : Steps Secret) (request : Reservation) (keys : List String)
    (ttlMs : Option Int) (h : Ready since now a) :
    Progress steps since now a (acquireLease steps request keys ttlMs now a).1
        (returnedLease (acquireLease steps request keys ttlMs now a).2) ∧
      ∀ lease, (acquireLease steps request keys ttlMs now a).2 = .ok lease →
        lease.ownerId = request.ownerId := by
  unfold acquireLease
  by_cases hnone : keys.eraseDups = []
  · simp only [hnone, if_true]
    exact ⟨h.progress, fun lease hok => absurd hok (by simp)⟩
  · simp only [if_neg hnone]
    exact acquireLoop_progress (boundedTtl_pos ttlMs) _ h

/-! ## The runtime leaks nothing but a lock failure -/

variable {rt : ProxyRuntime} {policy : ProxyPolicy} {input : ResolveInput}
variable {campaignId sessionId : String}

variable (steps policy input campaignId sessionId) in
theorem buildEndpoint_frame (a : Attempt) (provider : ProxyProvider) (lease : ProxyLease) :
    (buildEndpoint steps policy provider input campaignId sessionId lease a).1.table = a.table ∧
      (buildEndpoint steps policy provider input campaignId sessionId lease a).1.locks = a.locks := by
  unfold buildEndpoint
  by_cases hip : provider.authMode = "ip-allowlist"
  · simp only [hip, decide_true, if_true]
    cases endpointPort lease.endpointKey <;> exact ⟨rfl, rfl⟩
  · simp only [hip, decide_false, Bool.false_eq_true, if_false]
    cases steps.runtimeSecret a.secrets provider.providerId <;>
      cases endpointPort lease.endpointKey <;> exact ⟨rfl, rfl⟩

/-- A piece of `resolve` keeps the reservation it returns. -/
def KeepsIds {ε : Type} (steps : Steps Secret) (since now : Nat) (a b : Attempt)
    (result : Except ε ResolvedProxy) : Prop :=
  ∃ kept, Progress steps since now a b kept ∧
    kept.map (·.leaseId) = returnedIds (result.map (·.leaseId))

theorem Progress.keepsError {ε : Type} {error : ε} (h : Progress steps since now a b []) :
    KeepsIds steps since now a b (.error error) :=
  ⟨[], h, rfl⟩

theorem KeepsIds.error {ε : Type} {error : ε} (h : KeepsIds steps since now a b (.error error)) :
    Progress steps since now a b [] := by
  obtain ⟨kept, hprogress, hids⟩ := h
  rwa [List.map_eq_nil_iff.mp hids] at hprogress

theorem Progress.keeps {ε : Type} {result : Except ε ResolvedProxy}
    (h : Progress steps since now a b []) (h' : KeepsIds steps since now b c result) :
    KeepsIds steps since now a c result := by
  obtain ⟨kept, hprogress, hids⟩ := h'
  exact ⟨kept, h.trans hprogress, hids⟩

variable (steps policy input campaignId sessionId) in
/-- The `try` of one provider. -/
theorem tryProvider_keeps (provider : ProxyProvider) (pool : ProxyPool)
    (h : Ready since rt.now a) :
    KeepsIds steps since rt.now a
      (tryProvider steps rt policy provider pool input campaignId sessionId a).1
      (tryProvider steps rt policy provider pool input campaignId sessionId a).2 := by
  unfold tryProvider
  cases openKeys rt policy provider pool sessionId with
  | error message => exact h.progress.keepsError
  | ok keys =>
    cases keys with
    | nil => exact h.progress.keepsError
    | cons key keys =>
      simp only
      generalize hrequest : ({
        providerId := provider.providerId, poolId := pool.poolId, campaignId := campaignId
        endpointKey := "", ownerId := rt.ownerId, sessionId := some sessionId
        rotationMode := policy.rotationMode } : Reservation) = request
      have howns : request.ownerId = rt.ownerId := by rw [← hrequest]
      obtain ⟨hprogress, howner⟩ := acquireLease_progress steps request (key :: keys)
        (some (resolveTtl input.leaseTtlMs)) h
      rcases hacquire : acquireLease steps request (key :: keys)
        (some (resolveTtl input.leaseTtlMs)) rt.now a with ⟨acquired, result⟩
      rw [hacquire] at hprogress howner
      cases result with
      | error error => exact hprogress.keepsError
      | ok lease =>
        obtain ⟨htable, hlocks⟩ := buildEndpoint_frame steps policy input campaignId sessionId
          acquired provider lease
        simp only
        rcases hbuild : buildEndpoint steps policy provider input campaignId sessionId lease acquired
          with ⟨built, endpoint⟩
        rw [hbuild] at htable hlocks
        have hmine : lease.ownerId = rt.ownerId := (howner lease rfl).trans howns
        cases endpoint with
        | error message =>
          refine (hprogress.release (c := { built with
            table := (built.table.release rt.ownerId lease.leaseId lease.fencingToken .released).1 })
            hmine ?_ hlocks).keepsError
          rw [show built.table = acquired.table from htable]
        | ok endpoint => exact ⟨[lease], hprogress.congr htable hlocks, rfl⟩

/-- The loop over the providers. -/
theorem resolveLoop_keeps (candidates failures : List String) (h : Ready since rt.now a) :
    KeepsIds steps since rt.now a
      (resolveLoop steps rt policy input campaignId sessionId candidates failures a).1
      (resolveLoop steps rt policy input campaignId sessionId candidates failures a).2 := by
  induction candidates generalizing failures a with
  | nil => exact h.progress.keepsError
  | cons providerId candidates ih =>
    unfold resolveLoop
    simp only
    cases rt.providers.reverse.find? fun provider => decide (provider.providerId = providerId) with
    | none => exact ih _ h
    | some provider =>
      simp only
      split
      · exact ih _ h
      · cases poolFor rt policy providerId with
        | none => exact ih _ h
        | some pool =>
          simp only
          split
          · exact ih _ h
          · have htry := tryProvider_keeps steps policy input campaignId sessionId provider pool h
            rcases hresult : tryProvider steps rt policy provider pool input campaignId sessionId a
              with ⟨tried, result⟩
            rw [hresult] at htry
            cases result with
            | error message =>
              have hfailed : Progress steps since rt.now a tried [] := htry.error
              exact hfailed.keeps (ih _ hfailed.ready)
            | ok resolved => exact htry

variable (steps input) in
theorem resolve_keeps (h : Ready since rt.now a) :
    KeepsIds steps since rt.now a (resolve steps rt input a).1 (resolve steps rt input a).2 := by
  unfold resolve
  simp only
  split
  · exact h.progress.keepsError
  · cases rt.policy.filter (·.enabled) with
    | none => exact h.progress.keepsError
    | some policy =>
      cases requireBrowserSessionId input.sessionId with
      | error message => exact h.progress.keepsError
      | ok sessionId => exact resolveLoop_keeps _ _ h

/-! ## What a call leaves active -/

/-- Of the reservations made since `a`, those still active in `b` are the one a call returned, or none
if it threw. -/
def LeaksNothing (a b : Attempt) (result : Except ProxyError Nat) : Prop :=
  (b.table.activeSince a.table.nextId).map (·.leaseId) = returnedIds result

theorem Progress.leaksNothing_iff {result : Except ProxyError Nat}
    (h : Progress steps a.table.nextId now a b kept)
    (hkept : kept.map (·.leaseId) = returnedIds result) :
    LeaksNothing a b result ↔ LockAnswers steps a.locks b.locks := by
  obtain ⟨leaks, hactive, hanswered⟩ := h.active
  rw [LeaseTable.activeSince_nextId, List.nil_append] at hactive
  unfold LeaksNothing
  rw [hactive, List.map_append, hkept, ← hanswered, List.append_left_eq_self, List.map_eq_nil_iff]

theorem ready_start (a : Attempt) (now : Nat) : Ready a.table.nextId now a where
  drawn := Nat.le_refl _
  live := by simp [LeaseTable.activeSince_nextId]

end LinkSuffix
