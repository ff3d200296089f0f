import LinkSuffix.Lib.Checked
import LinkSuffix.Proxy.Registry

/-!
# Consistency of the proxy registry

`assignPolicy` and `savePool` check the row they write against the rows it refers to. Nothing checks
the rows that refer to the row an edit changes: a provider may drop a rotation mode that its pools
and policies use, and a pool may move to another provider than its policies'.

* `Consistent`: what the checks of the service promise of the rows.
* `Written`: the provider and the pool that an operation writes.
* **`consistent_iff`**: the registry stays consistent exactly as long as edits keep what other rows
  refer to.
* **`edited_provider_breaks_pool`**: a provider that drops the mode of its pool.
-/

namespace LinkSuffix.ProxyRegistry

open Lib

/-! ## The promise -/

/-- Every reference between the rows holds what was checked when it was written. -/
structure Consistent (s : Registry) : Prop where
  pool : ∀ pool ∈ s.pools, ∃ provider, s.getProvider pool.providerId = some provider ∧
    pool.defaultRotationMode ∈ provider.rotationModes
  policyPool : ∀ policy ∈ s.policies, ∃ pool, s.getPool policy.primaryPoolId = some pool ∧
    pool.providerId = policy.primaryProviderId
  policyMode : ∀ policy ∈ s.policies, ∃ provider,
    s.getProvider policy.primaryProviderId = some provider ∧
      policy.rotationMode ∈ provider.rotationModes
  fallback : ∀ policy ∈ s.policies, policy.primaryProviderId ∉ policy.fallbackProviderIds
  fallbackFound : ∀ policy ∈ s.policies, ∀ id ∈ policy.fallbackProviderIds,
    ∃ provider, s.getProvider id = some provider

/-- The provider and the pool that an operation writes. -/
structure Written where
  provider : Option Provider := none
  pool : Option Pool := none

/-- The pool that the automatic setup writes. -/
def writtenPool (setting : Setting) (s : Registry) (now : Nat) (id : String) (saved : Provider) :
    Option Pool :=
  match automaticPool setting saved (s.getPool (defaultPoolId setting id)) with
  | .ok (some input) => (savedPool s now input).toOption
  | _ => none

/-- The rows of a setup that is planned so. -/
def plannedRows (setting : Setting) (s : Registry) (now : Nat) (id : String)
    (provider secret : JsValue) : Written where
  provider := (savedProvider setting s now provider).toOption
  pool := (saveProvider setting s now provider secret).2.toOption.bind fun saved =>
    writtenPool setting (saveProvider setting s now provider secret).1 now id saved

/-- The rows of a setup that commits. -/
def setupRows (setting : Setting) (s : Registry) (now : Nat) :
    Except String Registry → Except String (String × JsValue × JsValue) → Written
  | .ok _, .ok (id, provider, secret) => plannedRows setting s now id provider secret
  | _, _ => {}

/-- The rows that an operation writes, if it succeeds. -/
def writes (setting : Setting) (s : Registry) : RegistryEvent → Written
  | .saveProvider now input _ => { provider := (savedProvider setting s now input).toOption }
  | .savePool now input =>
    match savePool s now input with
    | .error _ => {}
    | .ok _ => { pool := (savedPool s now input).toOption }
  | .saveProviderSetup now input supplied =>
    setupRows setting s now (saveProviderSetup setting s now input supplied)
      (setupInput setting s input supplied)
  | .assignPolicy _ _ => {}
  | .saveCampaignProxy _ _ _ => {}
  | .setProviderEnabled _ _ => {}

/-- **What an edit has to keep**: the rotation modes that the other pools and the policies of an
edited provider use, and the provider of an edited pool that is the primary one of a policy. -/
structure Keeps (s : Registry) (w : Written) : Prop where
  pools : ∀ provider ∈ w.provider, ∀ pool ∈ s.pools, pool.providerId = provider.providerId →
    (∀ edited ∈ w.pool, pool.poolId ≠ edited.poolId) →
    pool.defaultRotationMode ∈ provider.rotationModes
  policies : ∀ provider ∈ w.provider, ∀ policy ∈ s.policies,
    policy.primaryProviderId = provider.providerId → policy.rotationMode ∈ provider.rotationModes
  owner : ∀ edited ∈ w.pool, ∀ policy ∈ s.policies, policy.primaryPoolId = edited.poolId →
    policy.primaryProviderId = edited.providerId

/-! ## Writing rows -/

section Rows

variable {s : Registry} {w : Written}

/-- The registry with the rows written. -/
def Written.apply (w : Written) (s : Registry) : Registry :=
  { s with
    providers := match w.provider with
      | none => s.providers
      | some provider => upsertKey (·.providerId) provider s.providers
    pools := match w.pool with
      | none => s.pools
      | some pool => upsertKey (·.poolId) pool s.pools }

theorem getProvider_apply (providerId : String) : (w.apply s).getProvider providerId =
    match w.provider with
    | none => s.getProvider providerId
    | some provider =>
      if provider.providerId = providerId then some provider else s.getProvider providerId := by
  cases hw : w.provider with
  | none => simp [Registry.getProvider, Written.apply, hw]
  | some provider =>
    simp only [Registry.getProvider, Written.apply, hw]
    split
    · rename_i hid
      subst hid
      exact find?_upsertKey_self
    · rename_i hid
      exact find?_upsertKey_ne (fun h => hid h.symm)

theorem getPool_apply (poolId : String) : (w.apply s).getPool poolId =
    match w.pool with
    | none => s.getPool poolId
    | some pool => if pool.poolId = poolId then some pool else s.getPool poolId := by
  cases hw : w.pool with
  | none => simp [Registry.getPool, Written.apply, hw]
  | some pool =>
    simp only [Registry.getPool, Written.apply, hw]
    split
    · rename_i hid
      subst hid
      exact find?_upsertKey_self
    · rename_i hid
      exact find?_upsertKey_ne (fun h => hid h.symm)

theorem mem_pools_apply {pool : Pool} : pool ∈ (w.apply s).pools ↔
    pool ∈ w.pool ∨ (pool ∈ s.pools ∧ ∀ edited ∈ w.pool, pool.poolId ≠ edited.poolId) := by
  cases hw : w.pool with
  | none => simp [Written.apply, hw]
  | some edited =>
    simp only [Written.apply, hw, Option.mem_def, Option.some.injEq, forall_eq']
    rw [mem_upsertKey]
    exact or_congr_left eq_comm

/-- **What a write does to consistency**: it survives exactly when the write keeps what other rows
refer to, if the pool written was checked. -/
theorem consistent_apply_iff (h : Consistent s)
    (hchecked : ∀ pool ∈ w.pool, ∃ provider,
      (w.apply s).getProvider pool.providerId = some provider ∧
        pool.defaultRotationMode ∈ provider.rotationModes) :
    Consistent (w.apply s) ↔ Keeps s w := by
  constructor
  · intro hnext
    constructor
    · intro provider hprovider pool hpool hid hother
      obtain ⟨found, hfound, hmode⟩ := hnext.pool pool (mem_pools_apply.mpr (Or.inr ⟨hpool, hother⟩))
      rw [getProvider_apply, Option.mem_def.mp hprovider] at hfound
      simp only [hid, if_true, Option.some.injEq] at hfound
      rwa [hfound]
    · intro provider hprovider policy hpolicy hid
      obtain ⟨found, hfound, hmode⟩ := hnext.policyMode policy hpolicy
      rw [getProvider_apply, Option.mem_def.mp hprovider] at hfound
      simp only [hid, if_true, Option.some.injEq] at hfound
      rwa [hfound]
    · intro edited hedited policy hpolicy hid
      obtain ⟨found, hfound, howner⟩ := hnext.policyPool policy hpolicy
      rw [getPool_apply, Option.mem_def.mp hedited] at hfound
      simp only [hid, if_true, Option.some.injEq] at hfound
      rw [hfound, howner]
  · intro hkeeps
    have hmodes : ∀ (providerId : String) (mode : RotationMode),
        (∃ provider, s.getProvider providerId = some provider ∧ mode ∈ provider.rotationModes) →
        (∀ provider ∈ w.provider, providerId = provider.providerId →
          mode ∈ provider.rotationModes) →
        ∃ provider, (w.apply s).getProvider providerId = some provider ∧
          mode ∈ provider.rotationModes := by
      rintro providerId mode hold hedit
      rw [getProvider_apply]
      cases hw : w.provider with
      | none => exact hold
      | some provider =>
        simp only
        split
        · rename_i hid
          exact ⟨provider, rfl, hedit provider hw hid.symm⟩
        · exact hold
    constructor
    · intro pool hpool
      rcases mem_pools_apply.mp hpool with hpool | ⟨hpool, hother⟩
      · exact hchecked pool hpool
      · exact hmodes _ _ (h.pool pool hpool) fun provider hprovider hid =>
          hkeeps.pools provider hprovider pool hpool hid hother
    · intro policy hpolicy
      rw [getPool_apply]
      cases hw : w.pool with
      | none => exact h.policyPool policy hpolicy
      | some edited =>
        simp only
        split
        · rename_i hid
          exact ⟨edited, rfl, (hkeeps.owner edited hw policy hpolicy hid.symm).symm⟩
        · exact h.policyPool policy hpolicy
    · intro policy hpolicy
      exact hmodes _ _ (h.policyMode policy hpolicy) fun provider hprovider hid =>
        hkeeps.policies provider hprovider policy hpolicy hid
    · exact h.fallback
    · intro policy hpolicy id hid
      obtain ⟨provider, hprovider⟩ := h.fallbackFound policy hpolicy id hid
      rw [getProvider_apply]
      cases hw : w.provider with
      | none => exact ⟨provider, hprovider⟩
      | some edited =>
        simp only
        split
        · exact ⟨edited, rfl⟩
        · exact ⟨provider, hprovider⟩

/-- Two registries with the same rows, whatever their credentials. -/
def SameRows (s t : Registry) : Prop :=
  s.providers = t.providers ∧ s.pools = t.pools ∧ s.policies = t.policies

theorem SameRows.consistent {t : Registry} (hsame : SameRows s t) :
    Consistent s ↔ Consistent t := by
  obtain ⟨providers, pools, policies, secrets⟩ := s
  obtain ⟨providers', pools', policies', secrets'⟩ := t
  obtain ⟨rfl, rfl, rfl⟩ := hsame
  exact ⟨fun h => ⟨h.pool, h.policyPool, h.policyMode, h.fallback, h.fallbackFound⟩,
    fun h => ⟨h.pool, h.policyPool, h.policyMode, h.fallback, h.fallbackFound⟩⟩

/-- Writing a provider and then a pool is writing both. -/
theorem SameRows.apply_pool {stored : Registry} {provider : Option Provider} {pool : Option Pool}
    (h : SameRows stored (Written.apply { provider } s)) :
    SameRows (Written.apply { pool } stored) (Written.apply { provider, pool } s) := by
  obtain ⟨hproviders, hpools, hpolicies⟩ := h
  refine ⟨hproviders, ?_, hpolicies⟩
  cases pool with
  | none => exact hpools
  | some pool => exact congrArg (upsertKey (·.poolId) pool) hpools

theorem SameRows.getProvider_apply_pool {stored : Registry} {provider : Option Provider}
    {pool : Option Pool} {providerId : String} (h : SameRows stored (Written.apply { provider } s)) :
    stored.getProvider providerId = (Written.apply { provider, pool } s).getProvider providerId :=
  congrArg (fun rows => rows.find? fun row : Provider => row.providerId = providerId) h.1

end Rows

/-! ## The operations -/

section Operations

variable {setting : Setting} {s written : Registry} {now : Nat} {input secret : JsValue}

theorem saveSecret_rows {providerId : String}
    (h : saveSecret setting s providerId secret = .ok written) : SameRows written s := by
  unfold saveSecret at h
  obtain ⟨id, -, h⟩ := bind_eq_ok.mp h
  obtain ⟨-, h⟩ := ite_throw_eq_ok.mp h
  obtain ⟨-, h⟩ := ite_throw_eq_ok.mp h
  obtain ⟨-, h⟩ := ite_throw_eq_ok.mp h
  obtain rfl := pure_eq_ok.mp h
  exact ⟨rfl, rfl, rfl⟩

/-- The rows after `saveProvider`, and what it returns. -/
theorem saveProvider_spec (setting : Setting) (s : Registry) (now : Nat) (input secret : JsValue) :
    SameRows (saveProvider setting s now input secret).1
        (Written.apply { provider := (savedProvider setting s now input).toOption } s) ∧
      ∀ saved, (saveProvider setting s now input secret).2 = .ok saved →
        savedProvider setting s now input = .ok saved := by
  unfold saveProvider
  cases hsaved : savedProvider setting s now input with
  | error error =>
    exact ⟨⟨rfl, rfl, rfl⟩, fun saved h => by cases h⟩
  | ok provider =>
    have hrows : SameRows (s.upsertProvider provider)
        (Written.apply { provider := (Except.ok (ε := String) provider).toOption } s) :=
      ⟨rfl, rfl, rfl⟩
    simp only
    split
    · cases hsecret : saveSecret setting (s.upsertProvider provider) provider.providerId secret with
      | error error => exact ⟨hrows, fun saved h => by cases h⟩
      | ok stored =>
        obtain ⟨hproviders, hpools, hpolicies⟩ := saveSecret_rows hsecret
        exact ⟨⟨hproviders.trans hrows.1, hpools.trans hrows.2.1, hpolicies.trans hrows.2.2⟩,
          fun saved h => h⟩
    · exact ⟨hrows, fun saved h => h⟩

theorem savedPool_spec {pool : Pool} (h : savedPool s now input = .ok pool) :
    ∃ provider, s.getProvider pool.providerId = some provider ∧
      pool.defaultRotationMode ∈ provider.rotationModes := by
  unfold savedPool at h
  obtain ⟨normal, -, h⟩ := bind_eq_ok.mp h
  cases hprovider : s.getProvider normal.providerId with
  | none =>
    rw [hprovider] at h
    cases h
  | some provider =>
    rw [hprovider] at h
    obtain ⟨hmode, h⟩ := ite_throw_eq_ok.mp h
    obtain rfl := pure_eq_ok.mp h
    exact ⟨provider, hprovider, not_not.mp hmode⟩

theorem upsertPool_rows {pool : Pool} (h : s.upsertPool pool = .ok written) :
    written = Written.apply { pool := some pool } s := by
  unfold Registry.upsertPool at h
  split at h
  · cases h
  · split at h
    · cases h
    · exact (Except.ok.inj h).symm

theorem savePool_spec (h : savePool s now input = .ok written) :
    ∃ pool, savedPool s now input = .ok pool ∧
      written = Written.apply { pool := some pool } s := by
  obtain ⟨pool, hpool, h⟩ := bind_eq_ok.mp h
  exact ⟨pool, hpool, upsertPool_rows h⟩

/-- The automatic pool, saved after its provider. -/
theorem saveAutomaticPool_spec {id : String} {saved : Provider}
    (h : saveAutomaticPool setting s now id saved = .ok written) :
    written = Written.apply { pool := writtenPool setting s now id saved } s ∧
      ∀ pool ∈ writtenPool setting s now id saved, ∃ provider,
        s.getProvider pool.providerId = some provider ∧
          pool.defaultRotationMode ∈ provider.rotationModes := by
  unfold saveAutomaticPool at h
  obtain ⟨-, h⟩ := ite_throw_eq_ok.mp h
  obtain ⟨planned, hplanned, h⟩ := bind_eq_ok.mp h
  unfold writtenPool
  rw [hplanned]
  cases planned with
  | none =>
    obtain rfl := pure_eq_ok.mp h
    exact ⟨rfl, by simp⟩
  | some poolInput =>
    obtain ⟨pool, hpool, hwritten⟩ := savePool_spec h
    simp only [hpool]
    refine ⟨hwritten, fun row hrow => ?_⟩
    obtain rfl := Option.some.inj hrow
    exact savedPool_spec hpool

/-- The rows after `saveProviderSetup`: the provider's, and the automatic pool's. -/
theorem saveProviderSetup_spec {supplied : JsValue}
    (h : saveProviderSetup setting s now input supplied = .ok written) :
    SameRows written ((writes setting s (.saveProviderSetup now input supplied)).apply s) ∧
      ∀ pool ∈ (writes setting s (.saveProviderSetup now input supplied)).pool, ∃ provider,
        ((writes setting s (.saveProviderSetup now input supplied)).apply s).getProvider
            pool.providerId = some provider ∧
          pool.defaultRotationMode ∈ provider.rotationModes := by
  have hcommitted := h
  unfold saveProviderSetup at h
  obtain ⟨planned, hsetup, h⟩ := bind_eq_ok.mp h
  obtain ⟨id, provider, credentials⟩ := planned
  have hwrites : writes setting s (.saveProviderSetup now input supplied) =
      plannedRows setting s now id provider credentials := by
    rw [writes, hcommitted, hsetup, setupRows]
  rw [hwrites]
  obtain ⟨hrows, hsaved⟩ := saveProvider_spec setting s now provider credentials
  unfold plannedRows
  simp only at h
  generalize saveProvider setting s now provider credentials = result at h hrows hsaved ⊢
  obtain ⟨stored, outcome⟩ := result
  cases outcome with
  | error error => cases h
  | ok saved =>
    obtain ⟨hwritten, hchecked⟩ := saveAutomaticPool_spec h
    generalize (savedProvider setting s now provider).toOption = row at hrows ⊢
    simp only [Except.toOption, Option.bind_some]
    generalize writtenPool setting stored now id saved = automatic at hwritten hchecked ⊢
    subst hwritten
    refine ⟨hrows.apply_pool, fun pool hpool => ?_⟩
    obtain ⟨found, hfound, hmode⟩ := hchecked pool hpool
    exact ⟨found, hrows.getProvider_apply_pool.symm.trans hfound, hmode⟩

/-- What `normalizePolicy` checks about the fallbacks. -/
theorem normalizePolicy_fallback {existing : Option Policy} {policy : Policy}
    (h : normalizePolicy now input existing = .ok policy) :
    policy.primaryProviderId ∉ policy.fallbackProviderIds := by
  unfold normalizePolicy at h
  obtain ⟨ids, -, h⟩ := bind_eq_ok.mp h
  obtain ⟨primaryProviderId, -, h⟩ := bind_eq_ok.mp h
  obtain ⟨hfallback, h⟩ := ite_throw_eq_ok.mp h
  obtain ⟨campaignRecordId, -, h⟩ := bind_eq_ok.mp h
  obtain ⟨primaryPoolId, -, h⟩ := bind_eq_ok.mp h
  obtain ⟨rotationMode, -, h⟩ := bind_eq_ok.mp h
  obtain rfl := pure_eq_ok.mp h
  exact hfallback

/-- What a policy that is assigned refers to. -/
theorem assignedPolicy_spec {policy : Policy} (h : assignedPolicy s now input = .ok policy) :
    (∃ provider pool, s.getProvider policy.primaryProviderId = some provider ∧
        s.getPool policy.primaryPoolId = some pool ∧ pool.providerId = policy.primaryProviderId ∧
        policy.rotationMode ∈ provider.rotationModes) ∧
      policy.primaryProviderId ∉ policy.fallbackProviderIds ∧
      ∀ id ∈ policy.fallbackProviderIds, ∃ provider, s.getProvider id = some provider := by
  unfold assignedPolicy at h
  obtain ⟨normal, hnormal, h⟩ := bind_eq_ok.mp h
  cases hprovider : s.getProvider normal.primaryProviderId with
  | none =>
    rw [hprovider] at h
    cases h
  | some provider =>
    cases hpool : s.getPool normal.primaryPoolId with
    | none =>
      rw [hprovider, hpool] at h
      cases h
    | some pool =>
      rw [hprovider, hpool] at h
      obtain ⟨howner, h⟩ := ite_throw_eq_ok.mp h
      obtain ⟨hmode, h⟩ := ite_throw_eq_ok.mp h
      have hid : provider.providerId = normal.primaryProviderId := (find?_key_some hprovider).2
      split at h
      · cases h
      · rename_i hfound
        obtain rfl := pure_eq_ok.mp h
        refine ⟨⟨provider, pool, hprovider, hpool, (not_not.mp howner).trans hid, not_not.mp hmode⟩,
          normalizePolicy_fallback hnormal, fun fallbackId hfallback => ?_⟩
        have hsome := List.find?_eq_none.mp hfound fallbackId hfallback
        rw [Option.isNone_iff_eq_none] at hsome
        exact Option.ne_none_iff_exists'.mp hsome

/-- Assigning a policy keeps the registry consistent. -/
theorem assignPolicy_consistent (hs : Consistent s) (h : assignPolicy s now input = .ok written) :
    Consistent written := by
  obtain ⟨policy, hpolicy, h⟩ := bind_eq_ok.mp h
  obtain ⟨⟨provider, pool, hprovider, hpool, howner, hmode⟩, hfallback, hfound⟩ :=
    assignedPolicy_spec hpolicy
  unfold Registry.upsertPolicy at h
  split at h
  · cases h
  · obtain rfl := Except.ok.inj h
    refine ⟨hs.pool, fun row hrow => ?_, fun row hrow => ?_, fun row hrow => ?_,
      fun row hrow => ?_⟩
    · rcases mem_upsertKey.mp hrow with rfl | ⟨hrow, -⟩
      · exact ⟨pool, hpool, howner⟩
      · exact hs.policyPool row hrow
    · rcases mem_upsertKey.mp hrow with rfl | ⟨hrow, -⟩
      · exact ⟨provider, hprovider, hmode⟩
      · exact hs.policyMode row hrow
    · rcases mem_upsertKey.mp hrow with rfl | ⟨hrow, -⟩
      · exact hfallback
      · exact hs.fallback row hrow
    · rcases mem_upsertKey.mp hrow with rfl | ⟨hrow, -⟩
      · exact hfound
      · exact hs.fallbackFound row hrow

/-- A policy that is disabled refers to the same rows. -/
theorem disabled_consistent (hs : Consistent s) (campaignRecordId : String) :
    Consistent { s with policies := updateKey (·.campaignRecordId) campaignRecordId (fun policy =>
      { policy with enabled := false }) s.policies } := by
  have hold : ∀ row ∈ updateKey (·.campaignRecordId) campaignRecordId (fun policy =>
      { policy with enabled := false }) s.policies, ∃ policy ∈ s.policies,
        row.primaryPoolId = policy.primaryPoolId ∧
          row.primaryProviderId = policy.primaryProviderId ∧
          row.rotationMode = policy.rotationMode ∧
          row.fallbackProviderIds = policy.fallbackProviderIds := by
    intro row hrow
    obtain ⟨policy, hpolicy, ⟨-, rfl⟩ | ⟨-, rfl⟩⟩ := mem_updateWhere.mp hrow
    · exact ⟨policy, hpolicy, rfl, rfl, rfl, rfl⟩
    · exact ⟨row, hpolicy, rfl, rfl, rfl, rfl⟩
  refine ⟨hs.pool, fun row hrow => ?_, fun row hrow => ?_, fun row hrow => ?_, fun row hrow => ?_⟩
  · obtain ⟨policy, hpolicy, hpool, hprovider, -, -⟩ := hold row hrow
    rw [hpool, hprovider]
    exact hs.policyPool policy hpolicy
  · obtain ⟨policy, hpolicy, -, hprovider, hmode, -⟩ := hold row hrow
    rw [hprovider, hmode]
    exact hs.policyMode policy hpolicy
  · obtain ⟨policy, hpolicy, -, hprovider, -, hfallback⟩ := hold row hrow
    rw [hprovider, hfallback]
    exact hs.fallback policy hpolicy
  · obtain ⟨policy, hpolicy, -, -, -, hfallback⟩ := hold row hrow
    rw [hfallback]
    exact hs.fallbackFound policy hpolicy

theorem saveCampaignProxy_consistent {payload : JsValue} (hs : Consistent s)
    (h : saveCampaignProxy setting s now payload input = .ok written) : Consistent written := by
  unfold saveCampaignProxy at h
  obtain ⟨-, h⟩ := ite_throw_eq_ok.mp h
  obtain ⟨campaign, -, h⟩ := bind_eq_ok.mp h
  split at h
  · obtain rfl := pure_eq_ok.mp h
    exact disabled_consistent hs _
  · obtain ⟨-, h⟩ := ite_throw_eq_ok.mp h
    split at h
    · obtain ⟨-, h⟩ := ite_throw_eq_ok.mp h
      split at h
      · obtain ⟨_, -, h⟩ := bind_eq_ok.mp h
        obtain ⟨policyInput, -, h⟩ := bind_eq_ok.mp h
        exact assignPolicy_consistent hs h
      · obtain ⟨policyInput, -, h⟩ := bind_eq_ok.mp h
        exact assignPolicy_consistent hs h
    · cases h

/-- Enabling a provider leaves its rotation modes. -/
theorem setProviderEnabled_consistent {providerId : JsValue} {enabled : Bool} (hs : Consistent s)
    (h : setProviderEnabled s providerId enabled = .ok written) : Consistent written := by
  unfold setProviderEnabled at h
  obtain ⟨id, -, h⟩ := bind_eq_ok.mp h
  obtain ⟨-, h⟩ := ite_throw_eq_ok.mp h
  obtain rfl := pure_eq_ok.mp h
  have hedited : ∀ (other : String) (provider : Provider),
      s.getProvider other = some provider →
      ∃ edited, Registry.getProvider { s with
          providers := updateKey (·.providerId) id (fun provider =>
            { provider with enabled := enabled }) s.providers } other = some edited ∧
        edited.rotationModes = provider.rotationModes := by
    intro other provider hprovider
    have hkey : ∀ provider : Provider,
        ({ provider with enabled := enabled } : Provider).providerId = provider.providerId :=
      fun _ => rfl
    refine ⟨if provider.providerId = id then { provider with enabled := enabled } else provider,
      ?_, ?_⟩
    · unfold Registry.getProvider at hprovider ⊢
      rw [find?_updateKey hkey, hprovider]
      rfl
    · split
      · rfl
      · rfl
  refine ⟨fun pool hpool => ?_, hs.policyPool, fun policy hpolicy => ?_, hs.fallback,
    fun policy hpolicy fallbackId hid => ?_⟩
  · obtain ⟨provider, hprovider, hmode⟩ := hs.pool pool hpool
    obtain ⟨edited, hfound, hmodes⟩ := hedited _ provider hprovider
    exact ⟨edited, hfound, hmodes ▸ hmode⟩
  · obtain ⟨provider, hprovider, hmode⟩ := hs.policyMode policy hpolicy
    obtain ⟨edited, hfound, hmodes⟩ := hedited _ provider hprovider
    exact ⟨edited, hfound, hmodes ▸ hmode⟩
  · obtain ⟨provider, hprovider⟩ := hs.fallbackFound policy hpolicy fallbackId hid
    obtain ⟨edited, hfound, -⟩ := hedited _ provider hprovider
    exact ⟨edited, hfound⟩

/-- An operation that fails changes nothing, and one that commits keeps what its lemma says. -/
theorem committed_consistent {outcome : Except String Registry} (hs : Consistent s)
    (h : ∀ written, outcome = .ok written → Consistent written) :
    Consistent (committed s outcome) := by
  cases houtcome : outcome with
  | error error => exact hs
  | ok written => exact h written houtcome

/-- **Step lemma**: an operation keeps the registry consistent exactly when what it writes keeps
what other rows refer to. -/
theorem consistent_next_iff (hs : Consistent s) (e : RegistryEvent) :
    Consistent ((registry setting).next s e) ↔ Keeps s (writes setting s e) := by
  have hnothing : Keeps s {} := ⟨by simp, by simp, by simp⟩
  have hnext : (registry setting).next s e = step setting s e := rfl
  rw [hnext]
  cases e with
  | saveProvider now input secret =>
    obtain ⟨hrows, -⟩ := saveProvider_spec setting s now input secret
    rw [step, writes, hrows.consistent]
    exact consistent_apply_iff hs (by simp)
  | saveProviderSetup now input supplied =>
    rw [step]
    cases hcommitted : saveProviderSetup setting s now input supplied with
    | error error =>
      rw [writes, hcommitted, committed, setupRows]
      · exact ⟨fun _ => hnothing, fun _ => hs⟩
      · intro _ _ _ _ h
        cases h
    | ok written =>
      obtain ⟨hrows, hchecked⟩ := saveProviderSetup_spec hcommitted
      rw [committed, hrows.consistent]
      exact consistent_apply_iff hs hchecked
  | savePool now input =>
    rw [step, writes]
    cases hsaved : savePool s now input with
    | error error => exact ⟨fun _ => hnothing, fun _ => hs⟩
    | ok written =>
      obtain ⟨pool, hpool, hwritten⟩ := savePool_spec hsaved
      simp only [committed, hwritten, hpool, Except.toOption]
      refine consistent_apply_iff hs fun row hrow => ?_
      obtain rfl := Option.some.inj hrow
      obtain ⟨provider, hprovider, hmode⟩ := savedPool_spec hpool
      exact ⟨provider, hprovider, hmode⟩
  | assignPolicy now input =>
    rw [step, writes]
    exact ⟨fun _ => hnothing, fun _ => committed_consistent hs fun _ =>
      assignPolicy_consistent hs⟩
  | saveCampaignProxy now payload input =>
    rw [step, writes]
    exact ⟨fun _ => hnothing, fun _ => committed_consistent hs fun _ =>
      saveCampaignProxy_consistent hs⟩
  | setProviderEnabled providerId enabled =>
    rw [step, writes]
    exact ⟨fun _ => hnothing, fun _ => committed_consistent hs fun _ =>
      setProviderEnabled_consistent hs⟩

end Operations

/-! ## Sequences -/

/-- The registry is consistent after every prefix of the operations. -/
def ConsistentThroughout (setting : Setting) (es : List RegistryEvent) : Prop :=
  ∀ earlier, earlier <+: es → Consistent ((registry setting).run {} earlier)

theorem consistent_empty : Consistent {} :=
  ⟨by simp, by simp, by simp, by simp, by simp⟩

theorem consistentThroughout_iff_along {setting : Setting} {es : List RegistryEvent} :
    ConsistentThroughout setting es ↔
      (registry setting).Along (fun s e => Consistent ((registry setting).next s e)) {} es := by
  constructor
  · intro hall
    refine EventSystem.along_of_split fun pre e post hsplit => ?_
    have hprefix : pre ++ [e] <+: es := ⟨post, by simp [hsplit]⟩
    simpa using hall (pre ++ [e]) hprefix
  · rintro halong earlier ⟨post, hsplit⟩
    cases earlier using List.reverseRecOn with
    | nil => exact consistent_empty
    | append_singleton earlier e =>
      rw [← hsplit, List.append_assoc] at halong
      rw [EventSystem.run_concat]
      exact halong.at

/-- **The registry stays consistent** in every state of a sequence of operations exactly when every
operation keeps the rotation modes that the other pools and the policies of an edited provider use,
and the provider of an edited pool that is the primary one of a policy. -/
theorem consistent_iff (setting : Setting) (es : List RegistryEvent) :
    ConsistentThroughout setting es ↔
      (registry setting).Along (fun s e => Keeps s (writes setting s e)) {} es := by
  rw [consistentThroughout_iff_along]
  exact EventSystem.along_iff_of_inv consistent_empty (fun _ _ _ h => h)
    fun s e hs => consistent_next_iff hs e

section Sample

/-- A provider with these rotation modes. -/
def providerInput (modes : List String) : JsValue :=
  .object [("providerId", .string "gate"), ("gatewayHost", .string "gate.example"),
    ("gatewayPorts", .array [.ofNat 8080]), ("rotationModes", .ofTexts modes)]

/-- A pool of the provider, on a mode that it has. -/
def poolInput : JsValue :=
  .object [("poolId", .string "main"), ("providerId", .string "gate"),
    ("endpointPorts", .array [.ofNat 8080]), ("defaultRotationMode", .string "sticky-session")]

/-- The provider is saved again, without the mode of its pool. -/
def droppedMode : List RegistryEvent := [
  .saveProvider 1 (providerInput ["sticky-session", "provider-managed"]) .undefined,
  .savePool 2 poolInput,
  .saveProvider 3 (providerInput ["provider-managed"]) .undefined]

def plainSetting : Setting where
  hostnameOf url := if url = "http://gate.example" then some "gate.example" else none
  digest id := id
  vaultKey := true

theorem droppedMode_rows :
    ((registry plainSetting).run {} droppedMode).pools.map
        (fun pool => (pool.providerId, pool.defaultRotationMode)) =
      [("gate", .stickySession)] ∧
    (((registry plainSetting).run {} droppedMode).getProvider "gate").map (·.rotationModes) =
      some [.providerManaged] := by
  decide +kernel

/-- A pool keeps a mode that its provider has dropped. -/
theorem edited_provider_breaks_pool :
    ¬∀ setting es, ConsistentThroughout setting es := by
  intro hall
  have hs := hall plainSetting droppedMode droppedMode (List.prefix_refl _)
  obtain ⟨hpools, hmodes⟩ := droppedMode_rows
  obtain ⟨pool, hpool, hrow⟩ := List.mem_map.mp (hpools ▸ List.mem_singleton.mpr rfl)
  obtain ⟨hid, hmode⟩ := Prod.mk.inj hrow
  obtain ⟨provider, hprovider, hmem⟩ := hs.pool pool hpool
  rw [hid] at hprovider
  rw [hprovider] at hmodes
  have hleft : provider.rotationModes = [.providerManaged] := Option.some.inj hmodes
  rw [hmode, hleft] at hmem
  exact absurd hmem (by decide)

end Sample

end LinkSuffix.ProxyRegistry
