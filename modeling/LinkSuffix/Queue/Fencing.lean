import LinkSuffix.Queue.Grants

/-!
# The fence around a Google Ads call

A worker script renews its leases before it calls Google Ads, and acknowledges afterwards. Between
the two its job is fenced: no lease may be handed out for the target, or two workers are inside a
mutation of one campaign. `site` composes the store with the fences of the worker scripts.

* `Fence`, `Site`, `site`: the composed system.
* `Fence.Guards`, `fenced_step`: the row of a fenced job stays leased, to its worker, in time.
* **`fences_run`**: fences hold in every run that pauses and removes no fenced target.
* **`paused_fence_leased`**: a pause ends the lease under the fence.
-/

namespace LinkSuffix

open Lib

variable {cfg : Config} {f : Fleet} {e : Event} {s s' : Store} {r : Except StoreError Reply}

/-! ## The composed system -/

/-- A job a worker renewed and has not acknowledged; its Google Ads call is over at `expiresAt`. -/
structure Fence where
  jobId : String
  targetId : String
  workerId : String
  tokenHash : String
  expiresAt : Nat
  deriving DecidableEq

/-- `renewLeases_` returns: the batch was accepted and `allRenewed` is not false. -/
def RenewResult.allRenewed (res : RenewResult) (input : RenewInput) : Bool :=
  input.leases.length ≤ maxLeaseJobs && res.staleJobIds.isEmpty

/-- The fences a renewal opens. -/
def Event.opened (cfg : Config) (f : Fleet) (e : Event) : List Fence :=
  match e.call, (fleet cfg).reply f e with
  | .renewBridgeLeases input, .ok (.renewed res) =>
    if res.allRenewed input then
      input.leases.filterMap fun lease => (f.store.job? lease.jobId).map fun j =>
        { jobId := lease.jobId, targetId := j.targetId, workerId := input.workerId
          tokenHash := cfg.digest lease.leaseToken, expiresAt := e.now + cfg.leaseMs }
    else []
  | _, _ => []

/-- A fence across an event: the worker's acknowledgement closes it, its next renewal extends it,
and a lease that starts after `expiresAt` finds the Google Ads call over. -/
def Fence.after (cfg : Config) (e : Event) (r : Except StoreError Reply) (x : Fence) :
    Option Fence :=
  match e.call, r with
  | .acknowledgeBridgeJob input, _ =>
    if input.jobId = x.jobId ∧ input.workerId = x.workerId
      ∧ cfg.digest input.leaseToken = x.tokenHash then none else some x
  | .leaseBridgeJobs _, _ => if x.expiresAt < e.now then none else some x
  | .renewBridgeLeases input, .ok (.renewed res) =>
    if input.workerId = x.workerId ∧ x.jobId ∈ res.renewedJobIds then
      some { x with expiresAt := e.now + cfg.leaseMs }
    else some x
  | _, _ => some x

/-- The store and the open fences of the worker scripts. -/
structure Site where
  fleet : Fleet
  fences : List Fence

def Site.initial : Site := ⟨Fleet.initial, []⟩

/-- Any number of worker scripts and the store. -/
def site (cfg : Config) : EventSystem Site Event (Except StoreError Reply) where
  step w e := (⟨(fleet cfg).next w.fleet e,
    w.fences.filterMap (Fence.after cfg e ((fleet cfg).reply w.fleet e)) ++ e.opened cfg w.fleet⟩,
    (fleet cfg).reply w.fleet e)

/-! ## Renewals -/

/-- Which entries a renewal reports as renewed, and which as stale. -/
theorem renewLoop_ids (input : RenewInput) (now : Nat) (leases : List LeaseRef) (s : Store) :
    (renewLoop cfg input now leases s).1 =
      ((leases.filter fun lease => s.jobs.any (s.renewable cfg input lease)).map (·.jobId),
        (leases.filter fun lease => !s.jobs.any (s.renewable cfg input lease)).map (·.jobId)) := by
  induction leases generalizing s with
  | nil => rfl
  | cons lease leases ih =>
    -- A renewal changes no column a later entry reads.
    have hsame : ∀ entry, (updateWhere (s.renewable cfg input lease) (DeliveryJob.renew cfg now)
        s.jobs).any (s.renewable cfg input entry) = s.jobs.any (s.renewable cfg input entry) := by
      intro entry
      unfold updateWhere
      rw [List.any_map]
      congr 1
      funext j
      simp only [Function.comp_apply]
      split <;> rfl
    have hih := ih { s with
      jobs := updateWhere (s.renewable cfg input lease) (DeliveryJob.renew cfg now) s.jobs }
    have hrenewable : ∀ entry, Store.renewable cfg { s with
        jobs := updateWhere (s.renewable cfg input lease) (DeliveryJob.renew cfg now) s.jobs }
        input entry = s.renewable cfg input entry := fun entry => rfl
    simp only [hrenewable, hsame] at hih
    rw [renewLoop, List.filter_cons, List.filter_cons]
    cases hany : s.jobs.any (s.renewable cfg input lease) with
    | true => simp only [hih, if_true, Bool.not_true, Bool.false_eq_true, if_false, List.map_cons]
    | false => simp only [hih, Bool.false_eq_true, if_false, Bool.not_false, if_true, List.map_cons]

/-- The ids in the answer to a renewal. -/
theorem renew_ids {input : RenewInput} {now : Nat} {res : RenewResult}
    (h : renewBridgeLeases cfg input now s = .ok (res, s')) :
    res.renewedJobIds = ((input.leases.take maxLeaseJobs).filter fun lease =>
        s.jobs.any (s.renewable cfg input lease)).map (·.jobId)
      ∧ res.staleJobIds = ((input.leases.take maxLeaseJobs).filter fun lease =>
        !s.jobs.any (s.renewable cfg input lease)).map (·.jobId) := by
  simp only [renewBridgeLeases, renewLoop_ids, Except.ok.injEq, Prod.mk.injEq] at h
  obtain ⟨rfl, -⟩ := h
  exact ⟨rfl, rfl⟩

/-- A renewal commits, or fails and leaves the rows. -/
theorem renew_cases (cfg : Config) (f : Fleet) {input : RenewInput} (he : e.call = .renewBridgeLeases input) :
    (∃ res, (fleet cfg).reply f e = .ok (.renewed res) ∧
        renewBridgeLeases cfg input e.now f.store = .ok (res, ((fleet cfg).next f e).store))
      ∨ (∃ error, (fleet cfg).reply f e = .error error)
        ∧ ((fleet cfg).next f e).store = f.store := by
  cases hr : (fleet cfg).reply f e with
  | error error =>
    rcases next_store cfg f e with ⟨r, hc⟩ | h
    · exact absurd (hc.symm.trans hr) (by simp)
    · exact Or.inr ⟨⟨error, rfl⟩, h⟩
  | ok r =>
    have hw := (Commits.work hr).2
    simp only [Event.work, he] at hw
    obtain ⟨res, hrun, rfl⟩ := Work.reply_ok.mp hw
    exact Or.inl ⟨res, rfl, hrun⟩

/-! ## A fence and the row of its job -/

/-- The job's row is leased under the fence. -/
structure Fence.Guards (x : Fence) (j : DeliveryJob) : Prop where
  jobId : j.jobId = x.jobId
  targetId : j.targetId = x.targetId
  leased : j.state = .leased
  worker : j.workerId = some x.workerId
  token : j.leaseTokenHash = some x.tokenHash
  inTime : ∃ u, j.leasedUntil = some u ∧ x.expiresAt ≤ u

/-- Every fence guards a job. -/
def Fenced (w : Site) : Prop := ∀ x ∈ w.fences, ∃ j ∈ w.fleet.store.jobs, x.Guards j

theorem renewable_row {input : RenewInput} {lease : LeaseRef} {j : DeliveryJob}
    (h : s.renewable cfg input lease j = true) :
    j.jobId = lease.jobId ∧ j.state = .leased ∧ j.workerId = some input.workerId
      ∧ j.leaseTokenHash = some (cfg.digest lease.leaseToken) := by
  unfold Store.renewable DeliveryJob.heldBy at h
  simp only [Bool.and_eq_true, decide_eq_true_eq] at h
  exact ⟨h.1.1.1, h.1.2, h.2.1, h.2.2⟩

/-- A renewal opens fences around rows it renewed. -/
theorem opened_guards {x : Fence} (hx : x ∈ e.opened cfg f) :
    ∃ k ∈ ((fleet cfg).next f e).store.jobs, x.Guards k := by
  unfold Event.opened at hx
  split at hx
  swap
  · exact absurd hx List.not_mem_nil
  rename_i input res he hr
  split at hx
  swap
  · exact absurd hx List.not_mem_nil
  rename_i hall
  unfold RenewResult.allRenewed at hall
  simp only [Bool.and_eq_true, decide_eq_true_eq, List.isEmpty_iff] at hall
  obtain ⟨hlength, hstale⟩ := hall
  rcases renew_cases cfg f he with ⟨res', hr', hrun⟩ | ⟨⟨error, hr'⟩, -⟩
  swap
  · exact absurd (hr.symm.trans hr') (by simp)
  obtain rfl := Reply.renewed.inj (Except.ok.inj (hr.symm.trans hr'))
  have hids := (renew_ids hrun).2
  have hjobs := (renew_frame hrun).1
  rw [List.take_of_length_le hlength] at hids hjobs
  obtain ⟨lease, hlease, hmap⟩ := List.mem_filterMap.mp hx
  obtain ⟨j, hj, rfl⟩ := Option.map_eq_some_iff.mp hmap
  obtain ⟨hj, hid⟩ := job?_some hj
  -- No entry is stale, so this one renewed the row of its job.
  have hany : f.store.jobs.any (f.store.renewable cfg input lease) = true := by
    rw [hstale, eq_comm, List.map_eq_nil_iff, List.filter_eq_nil_iff] at hids
    simpa using hids lease hlease
  obtain ⟨j', hj', hrenew⟩ := List.any_eq_true.mp hany
  obtain ⟨hid', hleased, hworker, htoken⟩ := renewable_row hrenew
  obtain rfl := key_unique (store_unique f).job_key hj' hj (hid'.trans hid.symm)
  refine ⟨j'.renew cfg e.now, ?_, hid, rfl, hleased, hworker, htoken, _, rfl, le_refl _⟩
  rw [hjobs]
  exact mem_updateWhere.mpr ⟨j', hj, Or.inl ⟨List.any_eq_true.mpr ⟨lease, hlease, hrenew⟩, rfl⟩⟩

/-- A renewal keeps the fences that are open. -/
theorem renew_guards {input : RenewInput} {x y : Fence} {j : DeliveryJob}
    (he : e.call = .renewBridgeLeases input) (hj : j ∈ f.store.jobs) (hx : x.Guards j)
    (hy : x.after cfg e ((fleet cfg).reply f e) = some y) :
    ∃ k ∈ ((fleet cfg).next f e).store.jobs, y.Guards k := by
  unfold Fence.after at hy
  rw [he] at hy
  rcases renew_cases cfg f he with ⟨res, hr, hrun⟩ | ⟨⟨error, hr⟩, hsame⟩
  · rw [hr] at hy
    simp only at hy
    rw [(renew_frame hrun).1]
    have hids := (renew_ids hrun).1
    cases hp : (input.leases.take maxLeaseJobs).any fun lease =>
        f.store.renewable cfg input lease j with
    | true =>
      refine ⟨_, mem_updateWhere.mpr ⟨j, hj, Or.inl ⟨hp, rfl⟩⟩, ?_⟩
      obtain ⟨lease, hlease, hrenew⟩ := List.any_eq_true.mp hp
      obtain ⟨hid, -, hworker, -⟩ := renewable_row hrenew
      have hrenewed : input.workerId = x.workerId ∧ x.jobId ∈ res.renewedJobIds := by
        refine ⟨Option.some.inj (hworker.symm.trans hx.worker), ?_⟩
        rw [hids, ← hx.jobId, hid]
        refine List.mem_map_of_mem (List.mem_filter.mpr ⟨hlease, ?_⟩)
        exact List.any_eq_true.mpr ⟨j, hj, hrenew⟩
      rw [if_pos hrenewed] at hy
      obtain rfl := Option.some.inj hy
      exact ⟨hx.jobId, hx.targetId, hx.leased, hx.worker, hx.token, _, rfl, le_refl _⟩
    | false =>
      refine ⟨_, mem_updateWhere.mpr ⟨j, hj, Or.inr ⟨hp, rfl⟩⟩, ?_⟩
      have hnot : ¬ (input.workerId = x.workerId ∧ x.jobId ∈ res.renewedJobIds) := by
        rintro ⟨-, hmem⟩
        rw [hids] at hmem
        obtain ⟨lease, hlease, hid⟩ := List.mem_map.mp hmem
        obtain ⟨hlease, hany⟩ := List.mem_filter.mp hlease
        obtain ⟨j', hj', hrenew⟩ := List.any_eq_true.mp hany
        have hjj : j' = j := key_unique (store_unique f).job_key hj' hj
          ((renewable_row hrenew).1.trans (hid.trans hx.jobId.symm))
        rw [hjj] at hrenew
        rw [List.any_eq_true.mpr ⟨lease, hlease, hrenew⟩] at hp
        exact absurd hp (by simp)
      rw [if_neg hnot] at hy
      obtain rfl := Option.some.inj hy
      exact hx
  · rw [hr] at hy
    obtain rfl := Option.some.inj hy
    exact ⟨j, hsame ▸ hj, hx⟩

/-- An event that is not a renewal extends no fence. -/
theorem Fence.after_eq {x y : Fence} (hn : ∀ input, e.call ≠ .renewBridgeLeases input)
    (hy : x.after cfg e r = some y) : y = x := by
  unfold Fence.after at hy
  split at hy
  · split at hy
    · exact absurd hy (by simp)
    · exact (Option.some.inj hy).symm
  · split at hy
    · exact absurd hy (by simp)
    · exact (Option.some.inj hy).symm
  · rename_i he
    exact absurd he (hn _)
  · exact (Option.some.inj hy).symm

/-- The row of a fenced job, across an event that neither renews nor pauses. -/
theorem JobMove.guards {x : Fence} {j k : DeliveryJob} (hm : JobMove cfg f.store s' e r j k)
    (hx : x.Guards j) (hn : ∀ input, e.call ≠ .renewBridgeLeases input)
    (hpause : e.pauses f x.targetId = false) (hopen : x.after cfg e r = some x) : x.Guards k := by
  have hwait : j.state.waiting = false := by
    rw [hx.leased]
    rfl
  have hack : ∀ {input : AckInput} {c : SuffixCapture} {t : CampaignTarget},
      e.call = .acknowledgeBridgeJob input → AckRow cfg input f.store j c t → False := by
    intro input c t he hrow
    have hheld := hrow.held
    unfold DeliveryJob.heldBy at hheld
    simp only [hx.worker, hx.token, Bool.and_eq_true, decide_eq_true_eq,
      Option.some.injEq] at hheld
    have hclosed : input.jobId = x.jobId ∧ input.workerId = x.workerId
        ∧ cfg.digest input.leaseToken = x.tokenHash :=
      ⟨hrow.jobId.symm.trans hx.jobId, hheld.1.symm, hheld.2.symm⟩
    unfold Fence.after at hopen
    rw [he] at hopen
    simp only [if_pos hclosed] at hopen
    exact absurd hopen (by simp)
  cases hm with
  | keep => exact hx
  | leased he hr hm =>
    cases hm with
    | swept hs =>
      cases hs with
      | keep => exact hx
      | stale hw => simp [hwait] at hw
      | expired hexp =>
        obtain ⟨u, hu, hle⟩ := hx.inTime
        unfold DeliveryJob.expired at hexp
        simp only [hu, Option.any_some, Bool.and_eq_true, decide_eq_true_eq] at hexp
        unfold Fence.after at hopen
        rw [he] at hopen
        simp only [if_pos (show x.expiresAt < e.now by omega)] at hopen
        exact absurd hopen (by simp)
    | killed hg =>
      have hw := hg.waiting
      simp [hwait] at hw
    | granted hg =>
      have hw := hg.waiting
      simp [hwait] at hw
  | replaced he ht hw => simp [hwait] at hw
  | revived he ht hc hd => simp [hx.leased] at hd
  | outdated he ht hc hw => simp [hwait] at hw
  | requeued he htm hen ht hc hcj hd => simp [hx.leased] at hd
  | verified he hrow => exact (hack he hrow).elim
  | refused he hrow => exact (hack he hrow).elim
  | renewed he => exact absurd he (hn _)
  | paused he htm hrec ht =>
    have hpauses := pauses_of_mem he htm hrec
    rw [← ht, hx.targetId, hpause] at hpauses
    exact absurd hpauses (by simp)

/-! ## The condition -/

/-- No fenced target is paused or removed. -/
def SparesFences (w : Site) (e : Event) : Prop :=
  ∀ x ∈ w.fences, e.pauses w.fleet x.targetId = false ∧ e.deletes w.fleet x.targetId = false

instance (w : Site) (e : Event) : Decidable (SparesFences w e) := by
  unfold SparesFences
  infer_instance

/-- **An event that spares the fences keeps them.** -/
theorem fenced_step {w : Site} (hinv : Inv cfg w.fleet) (h : Fenced w) (hs : SparesFences w e) :
    Fenced ((site cfg).next w e) := by
  intro y hy
  rcases List.mem_append.mp hy with hy | hy
  swap
  · exact opened_guards hy
  obtain ⟨x, hx, hxy⟩ := List.mem_filterMap.mp hy
  obtain ⟨j, hj, hg⟩ := h x hx
  obtain ⟨hpause, hdel⟩ := hs x hx
  by_cases hn : ∀ input, e.call ≠ .renewBridgeLeases input
  · obtain rfl := Fence.after_eq hn hxy
    rcases job_after cfg e hj with ⟨k, hk, hm⟩ | ⟨t, hr, hgone⟩
    · exact ⟨k, hk, hm.guards hg hn hpause hxy⟩
    · have htarget : j.targetId = t.targetId := by
        rcases hgone with h | ⟨c, hc, hcj, hct⟩
        · exact h
        · rw [← hinv.capture_of_target j hj c hc hcj, hct]
      have hdeletes := hr.deletes
      rw [← htarget, hg.targetId, hdel] at hdeletes
      exact absurd hdeletes (by simp)
  · push Not at hn
    obtain ⟨input, he⟩ := hn
    exact renew_guards he hj hg hxy

/-! ## What a fence excludes -/

/-- No lease is handed out for the target of a fence that is open. -/
def LeasesAround (cfg : Config) (w : Site) (e : Event) : Prop :=
  ∀ l ∈ leasesIn ((fleet cfg).reply w.fleet e), ∀ x ∈ w.fences, e.now ≤ x.expiresAt →
    ∀ k ∈ ((fleet cfg).next w.fleet e).store.jobs, k.jobId = l.jobId → k.targetId ≠ x.targetId

instance (w : Site) (e : Event) : Decidable (LeasesAround cfg w e) := by
  unfold LeasesAround
  infer_instance

/-- **While the fences hold, leases go around them.** -/
theorem fenced_leases {w : Site} (h : Fenced w) : LeasesAround cfg w e := by
  intro l hl x hx hnow k hk hkl htarget
  obtain ⟨g, req, c, hrow, hrows⟩ := leasesIn_row hl
  obtain ⟨j, hj, hguards⟩ := h x hx
  have hkc : k.targetId = c.job.targetId := hrows k hk hkl
  have he := hrow.call
  have hcj : j.jobId = c.job.jobId := by
    rcases job_after cfg e hj with ⟨k', hk', hm⟩ | ⟨t, ⟨input, he', -⟩, -⟩
    · have hguards' : x.Guards k' := by
        refine hm.guards hguards (fun input => by simp [he]) ?_ ?_
        · unfold Event.pauses
          rw [he]
        · unfold Fence.after
          rw [he]
          simp only [if_neg (not_lt.mpr hnow)]
      have hid := hrow.grants.alone k' hk'
        (hguards'.targetId.trans (htarget.symm.trans hkc)) hguards'.leased
      rwa [jobId_of_key hm.key] at hid
    · exact absurd (he.symm.trans he') (by simp)
  rcases hrow.origin with hc | hfresh
  · have hw := hrow.grants.waiting
    rw [key_unique (store_unique _).job_key hc hj hcj.symm, hguards.leased] at hw
    exact absurd hw (by simp [JobState.waiting])
  · exact hfresh j hj hcj

/-- No applied job is of a newer capture than the leased job of its target. -/
def AppliedOlder (s : Store) : Prop :=
  ∀ j ∈ s.jobs, ∀ k ∈ s.jobs, j.state = .leased → k.state = .applied → k.targetId = j.targetId →
    ∀ c ∈ s.captures, ∀ d ∈ s.captures, c.captureId = j.captureId → d.captureId = k.captureId →
      d.age ≤ c.age

theorem appliedOlder_step (hinv : Inv cfg f) (h : AppliedOlder f.store) :
    AppliedOlder ((fleet cfg).next f e).store := by
  intro j' hj' k' hk' hjl hka ht c' hc' d' hd' hcj hdk
  obtain ⟨j, hjm, hj⟩ := job_before hj'
  obtain ⟨k, hkm, hk⟩ := job_before hk'
  rcases hkm.to_applied hka with rfl | ⟨input, c, t, he, hrow, -⟩
  · have hk : k' ∈ f.store.jobs := hk.resolve_right fun hb => by
      simp [hb.born.pending] at hka
    obtain ⟨d, hd, hdk0⟩ := capture_of_job f hk
    have hdm := capture_moved hd hd' (hdk.trans hdk0.symm)
    rw [hdm.age]
    rcases hjm.to_leased hjl with ⟨hjl0, -⟩ | ⟨req, c, rfl, hh⟩
    · have hj : j ∈ f.store.jobs := hj.resolve_right fun hb => by
        simp [hb.born.pending] at hjl0
      obtain ⟨c, hc, hcj0⟩ := capture_of_job f hj
      have hcm := capture_moved hc hc'
        (hcj.trans ((captureId_of_key hjm.key).trans hcj0.symm))
      rw [hcm.age]
      exact h j hj k' hk hjl0 hka (ht.trans (targetId_of_key hjm.key)) c hc d hd hcj0 hdk0
    · -- The job was just handed out: its capture was the newest of the target.
      obtain ⟨hc, -⟩ := newestCapture_mem hh.grants.newest
      have hcm := capture_moved hc hc' (hcj.trans ((captureId_of_key hjm.key).trans
        hh.grants.captureId.symm))
      rw [hcm.age]
      refine le_newestCapture hh.grants.newest hd ?_
      rw [hinv.capture_of_target k' hk d hd hdk0, ht, targetId_of_key hjm.key]
  · exfalso
    rcases hjm.to_leased hjl with ⟨hjl0, -⟩ | ⟨req, c, rfl, hh⟩
    · have hj : j ∈ f.store.jobs := hj.resolve_right fun hb => by
        simp [hb.born.pending] at hjl0
      have htj : k.targetId = j.targetId := by
        rw [← targetId_of_key hkm.key, ← targetId_of_key hjm.key, ht]
      obtain rfl := hinv.exclusive k hrow.job j hj htj hrow.leased hjl0
      have hsame := key_unique (store_unique _).job_key hj' hk'
        ((jobId_of_key hjm.key).trans (jobId_of_key hkm.key).symm)
      rw [hsame, hka] at hjl
      exact absurd hjl (by simp)
    · exact absurd (he.symm.trans hh.call) (by simp)

/-! ## Runs -/

/-- The invariant of the composed system, while the fences hold. -/
structure FenceInv (cfg : Config) (w : Site) : Prop where
  inv : Inv cfg w.fleet
  fenced : Fenced w
  older : AppliedOlder w.fleet.store

theorem fenceInv_initial (cfg : Config) : FenceInv cfg Site.initial where
  inv := inv_initial cfg
  fenced := fun _ hx => absurd hx List.not_mem_nil
  older := fun _ hj => absurd hj List.not_mem_nil

theorem fenceInv_step (w : Site) (e : Event) (h : FenceInv cfg w) (hs : SparesFences w e) :
    FenceInv cfg ((site cfg).next w e) where
  inv := inv_step h.inv
  fenced := fenced_step h.inv h.fenced hs
  older := appliedOlder_step h.inv h.older

/-- **Google Ads calls are fenced.** In a run that pauses and removes no target under an open
fence, no lease is handed out for the target of an open fence, two open fences of one target are
of one lease, and no job of a newer capture than a fenced one was applied. -/
theorem fences_run (cfg : Config) (es : List Event)
    (hspares : (site cfg).Along SparesFences Site.initial es) :
    (site cfg).Along (LeasesAround cfg) Site.initial es
    ∧ (∀ x ∈ ((site cfg).run Site.initial es).fences,
        ∀ y ∈ ((site cfg).run Site.initial es).fences, x.targetId = y.targetId →
        x.jobId = y.jobId ∧ x.workerId = y.workerId ∧ x.tokenHash = y.tokenHash)
    ∧ ∀ x ∈ ((site cfg).run Site.initial es).fences,
        ∃ j ∈ ((site cfg).run Site.initial es).fleet.store.jobs,
          j.jobId = x.jobId ∧ j.targetId = x.targetId ∧ ∀ k ∈
            ((site cfg).run Site.initial es).fleet.store.jobs,
            k.targetId = x.targetId → k.state = .applied →
            ∀ c ∈ ((site cfg).run Site.initial es).fleet.store.captures,
            ∀ d ∈ ((site cfg).run Site.initial es).fleet.store.captures,
              c.captureId = j.captureId → d.captureId = k.captureId → d.age ≤ c.age := by
  obtain ⟨hinv, hfenced, holder⟩ :=
    EventSystem.run_inv (fenceInv_initial cfg) fenceInv_step hspares
  refine ⟨?_, fun x hx y hy ht => ?_, fun x hx => ?_⟩
  · exact EventSystem.along_of_inv (fenceInv_initial cfg) fenceInv_step
      (fun w e h _ => fenced_leases h.fenced) hspares
  · obtain ⟨j, hj, hxj⟩ := hfenced x hx
    obtain ⟨k, hk, hyk⟩ := hfenced y hy
    obtain rfl := hinv.exclusive j hj k hk (hxj.targetId.trans (ht.trans hyk.targetId.symm))
      hxj.leased hyk.leased
    exact ⟨hxj.jobId.symm.trans hyk.jobId, Option.some.inj (hxj.worker.symm.trans hyk.worker),
      Option.some.inj (hxj.token.symm.trans hyk.token)⟩
  · obtain ⟨j, hj, hxj⟩ := hfenced x hx
    refine ⟨j, hj, hxj.jobId, hxj.targetId, fun k hk ht hka => ?_⟩
    exact holder j hj k hk hxj.leased hka (ht.trans hxj.targetId.symm)

namespace Sample

/-- A renewal by worker `w` of one job. -/
def renew (now : Nat) (jobId token : String) : Event :=
  ⟨now, now, .renewBridgeLeases
    { shardId := shard, workerId := "w", leases := [⟨jobId, token⟩] }⟩

end Sample

/-- A worker inside its Google Ads call, and another poll of the shard. -/
def insideCall : List Event :=
  Sample.register 1 :: Sample.enqueue 2 "a=1" 1 1 "job1" ++
    [Sample.lease 3 "token1", Sample.renew 4 "job1" "token1"]

theorem fences_run_inside : (site Config.sample).Along (LeasesAround Config.sample) Site.initial
    (insideCall ++ Sample.enqueue 5 "a=2" 2 2 "job2" ++ [Sample.lease 6 "token2"]) :=
  (fences_run Config.sample _ (by decide +kernel)).1

/-- **A pause ends the lease under the fence**: after the resume a second worker is handed the job
while the first one is inside its Google Ads call. -/
theorem paused_fence_leased :
    ¬ ∀ (cfg : Config) (es : List Event),
      (site cfg).Along (LeasesAround cfg) Site.initial es := by
  intro h
  have := h Config.sample (insideCall ++ [Sample.setEnabled 5 false, Sample.setEnabled 6 true,
    ⟨7, 7, .queueLatestBridgeCapture "record" "job2"⟩, Sample.lease 8 "token2"])
  exact absurd this (by decide +kernel)

end LinkSuffix
