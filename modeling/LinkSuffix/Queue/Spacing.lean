import LinkSuffix.Queue.Grants

/-!
# Spacing of deliveries

A lease is handed out only when the target's last delivery is old enough, and an acknowledgement
records the delivery in the transaction that applies the job. Nothing checks the spacing at the
acknowledgement: it follows because a target has one leased job, because a worker presents a token
only after the lease that issued it committed, and because no other step applies a job.

* `Delivery`, `deliveries`: the jobs of a run that became applied.
* `Spacing`: what the target row and a leased job know of the deliveries so far.
* **`spacing_run`**: two deliveries of a target are an interval apart.
-/

namespace LinkSuffix

open Lib

variable {cfg : Config} {f : Fleet} {e : Event} {s s' : Store} {r : Except StoreError Reply}
  {es : List Event} {T : String}

/-! ## Deliveries -/

/-- A job that became applied: the times of its lease and of its acknowledgement. -/
structure Delivery where
  jobId : String
  targetId : String
  leasedAt : Option Nat
  appliedAt : Option Nat
  deriving DecidableEq

/-- The job was applied before. -/
def Store.hasApplied (s : Store) (jobId : String) : Bool :=
  s.jobs.any fun j => j.jobId = jobId && j.state = .applied

/-- The jobs an event makes applied. -/
def deliveriesOf (cfg : Config) (f : Fleet) (e : Event) : List Delivery :=
  (((fleet cfg).next f e).store.jobs.filter fun k =>
    k.state = .applied && !f.store.hasApplied k.jobId).map fun k =>
      ⟨k.jobId, k.targetId, (f.store.job? k.jobId).bind (·.leasedAt), k.appliedAt⟩

/-- The deliveries of a run, in order. -/
def deliveries (cfg : Config) (es : List Event) : List Delivery :=
  (fleet cfg).collect (deliveriesOf cfg) Fleet.initial es

/-- The second delivery was leased, and so applied, an interval after the first was applied. -/
def Spaced (interval : Nat) (d d' : Delivery) : Prop :=
  ∃ a ∈ d.appliedAt, ∃ l ∈ d'.leasedAt, ∃ a' ∈ d'.appliedAt, a + interval ≤ l ∧ l ≤ a'

/-- A job becomes applied by the exact acknowledgement of its lease, which records the delivery on
the target row. -/
theorem applied_now {k : DeliveryJob} (hk : k ∈ ((fleet cfg).next f e).store.jobs)
    (ha : k.state = .applied) (hnew : f.store.hasApplied k.jobId = false) :
    ∃ input j c t, e.call = .acknowledgeBridgeJob input ∧ AckRow cfg input f.store j c t
      ∧ k = j.verify e.now c.suffixHash
      ∧ ((fleet cfg).next f e).store.targets = updateKey (·.targetId) j.targetId (fun t => { t with
          lastAppliedAt := some e.now, lastAppliedSuffixHash := some c.suffixHash })
          f.store.targets := by
  have hnot : k ∉ f.store.jobs := fun hk => by
    simpa [ha] using List.any_eq_false.mp hnew k hk
  obtain ⟨j, hm, hj⟩ := job_before hk
  rcases hm.to_applied ha with rfl | ⟨input, c, t, he, hrow, -, -, rfl⟩
  · exact absurd (hj.resolve_right fun hb => by simp [hb.born.pending] at ha) hnot
  cases next_effect cfg f e with
  | idle h => exact absurd (h ▸ hk) hnot
  | acks he' hr h =>
    obtain rfl := Call.acknowledgeBridgeJob.inj (he.symm.trans he')
    cases h with
    | unchanged h => exact absurd (congrArg Store.jobs h ▸ hk) hnot
    | @verified j' c' t' hrow' hx h =>
      obtain rfl := key_unique (store_unique f).job_key hrow'.job hrow.job
        (hrow'.jobId.trans hrow.jobId.symm)
      obtain rfl := key_unique (store_unique f).capture_key hrow'.capture hrow.capture
        (hrow'.captureId.trans hrow.captureId.symm)
      exact ⟨input, j', c', t', he, hrow', rfl, congrArg Store.targets h⟩
    | refused hrow' hx h =>
      rw [congrArg Store.jobs h] at hk
      obtain ⟨i, hi, ⟨-, hki⟩ | ⟨-, hki⟩⟩ := mem_updateWhere.mp hk
      · rw [hki] at ha
        unfold DeliveryJob.refuse at ha
        simp only at ha
        split at ha <;> simp at ha
      · exact absurd (hki ▸ hi) hnot
  | enrols he' =>
    rcases he' with ⟨input', he', -⟩ | ⟨input', dateNow, he', -⟩
    · exact absurd (he.symm.trans he') (by simp)
    · exact absurd (he.symm.trans he') (by simp)
  | shards h => exact absurd (h.jobs ▸ hk) hnot
  | enqueues he' => exact absurd (he.symm.trans he') (by simp)
  | queues he' => exact absurd (he.symm.trans he') (by simp)
  | leases he' => exact absurd (he.symm.trans he') (by simp)
  | renews he' => exact absurd (he.symm.trans he') (by simp)
  | switches he' => exact absurd (he.symm.trans he') (by simp)
  | removes h =>
    obtain ⟨input', he', -⟩ := h
    exact absurd (he.symm.trans he') (by simp)

/-- A delivery of an event, with the row its acknowledgement read. -/
theorem mem_deliveriesOf {d : Delivery} (hd : d ∈ deliveriesOf cfg f e) :
    ∃ input j c t, e.call = .acknowledgeBridgeJob input ∧ AckRow cfg input f.store j c t
      ∧ d = ⟨j.jobId, j.targetId, j.leasedAt, some e.now⟩
      ∧ ((fleet cfg).next f e).store.targets = updateKey (·.targetId) j.targetId (fun t => { t with
          lastAppliedAt := some e.now, lastAppliedSuffixHash := some c.suffixHash })
          f.store.targets := by
  obtain ⟨k, hk, rfl⟩ := List.mem_map.mp hd
  obtain ⟨hk, hp⟩ := List.mem_filter.mp hk
  simp only [Bool.and_eq_true, decide_eq_true_eq, Bool.not_eq_true'] at hp
  obtain ⟨input, j, c, t, he, hrow, rfl, htargets⟩ := applied_now hk hp.1 hp.2
  have hjob : f.store.job? j.jobId = some j :=
    (job?_eq_some_iff (store_unique f)).mpr ⟨hrow.job, rfl⟩
  refine ⟨input, j, c, t, he, hrow, ?_, htargets⟩
  simp [DeliveryJob.verify, hjob]

/-- An event makes at most one job applied. -/
theorem deliveriesOf_pairwise {R : Delivery → Delivery → Prop} :
    (deliveriesOf cfg f e).Pairwise R := by
  have hnodup : ((deliveriesOf cfg f e).map (·.jobId)).Nodup := by
    unfold deliveriesOf
    rw [List.map_map]
    exact (List.filter_sublist.map _).nodup (store_unique ((fleet cfg).next f e)).job_key
  refine (List.pairwise_map.mp hnodup).imp_of_mem fun {d d'} hd hd' hne => ?_
  obtain ⟨input, j, c, t, he, hrow, rfl, -⟩ := mem_deliveriesOf hd
  obtain ⟨input', j', c', t', he', hrow', rfl, -⟩ := mem_deliveriesOf hd'
  obtain rfl := Call.acknowledgeBridgeJob.inj (he.symm.trans he')
  exact absurd (hrow.jobId.trans hrow'.jobId.symm) hne

/-! ## The invariant -/

/-- The deliveries of a target so far are spaced, the target row has the last of them, and a leased
job was leased an interval after it. -/
structure Spacing (cfg : Config) (T : String) (ds : List Delivery) (s : Store) : Prop where
  spaced : (ds.filter (·.targetId = T)).Pairwise (Spaced cfg.minIntervalMs)
  recorded : ∀ d ∈ ds, d.targetId = T → ∃ t ∈ s.targets, t.targetId = T
    ∧ ∃ a ∈ d.appliedAt, ∃ b ∈ t.lastAppliedAt, a ≤ b
  leased : ∀ j ∈ s.jobs, j.targetId = T → j.state = .leased → ∀ t ∈ s.targets, t.targetId = T →
    ∃ l ∈ j.leasedAt, ∀ b ∈ t.lastAppliedAt, b + cfg.minIntervalMs ≤ l

/-- An acknowledgement starts after the lease it reports on. -/
def AcksLater (cfg : Config) (f : Fleet) (e : Event) : Prop :=
  ∀ input j c t, e.call = .acknowledgeBridgeJob input → AckRow cfg input f.store j c t →
    ∀ l ∈ j.leasedAt, l ≤ e.now

/-- A delivery follows the last one by an interval. -/
theorem Spacing.follows {ds : List Delivery} (h : Spacing cfg T ds f.store)
    (hlater : AcksLater cfg f e) {d d' : Delivery} (hd : d ∈ ds) (hdT : d.targetId = T)
    (hd' : d' ∈ deliveriesOf cfg f e) (hdT' : d'.targetId = T) :
    Spaced cfg.minIntervalMs d d' := by
  obtain ⟨input, j, c, t, he, hrow, rfl, -⟩ := mem_deliveriesOf hd'
  obtain ⟨u, hu, huT, a, ha, b, hb, hab⟩ := h.recorded d hd hdT
  obtain ⟨l, hl, hbl⟩ := h.leased j hrow.job hdT' hrow.leased u hu huT
  have hspaced := hbl b hb
  exact ⟨a, ha, l, hl, e.now, rfl, by omega, hlater input j c t he hrow l hl⟩

theorem Spacing.spaced_step {ds : List Delivery} (h : Spacing cfg T ds f.store)
    (hlater : AcksLater cfg f e) :
    ((ds ++ deliveriesOf cfg f e).filter (·.targetId = T)).Pairwise
      (Spaced cfg.minIntervalMs) := by
  rw [List.filter_append, List.pairwise_append]
  refine ⟨h.spaced, deliveriesOf_pairwise.sublist List.filter_sublist, fun d hd d' hd' => ?_⟩
  obtain ⟨hd, hdT⟩ := List.mem_filter.mp hd
  obtain ⟨hd', hdT'⟩ := List.mem_filter.mp hd'
  exact h.follows hlater hd (of_decide_eq_true hdT) hd' (of_decide_eq_true hdT')

theorem Spacing.recorded_step {ds : List Delivery} (h : Spacing cfg T ds f.store)
    (hlater : AcksLater cfg f e) (hdel : e.deletes f T = false) :
    ∀ d ∈ ds ++ deliveriesOf cfg f e, d.targetId = T →
      ∃ t ∈ ((fleet cfg).next f e).store.targets, t.targetId = T
        ∧ ∃ a ∈ d.appliedAt, ∃ b ∈ t.lastAppliedAt, a ≤ b := by
  intro d hd hdT
  rcases List.mem_append.mp hd with hd | hd
  · obtain ⟨t, ht, htT, a, ha, b, hb, hab⟩ := h.recorded d hd hdT
    rcases target_after cfg e ht with ⟨u, hu, hm⟩ | hr
    · refine ⟨u, hu, hm.targetId.trans htT, a, ha, ?_⟩
      cases hm with
      | keep => exact ⟨b, hb, hab⟩
      | enrolled => exact ⟨b, hb, hab⟩
      | switched => exact ⟨b, hb, hab⟩
      | applied he hrow =>
        -- The job was leased an interval after the last delivery, and acknowledged later.
        obtain ⟨l, hl, hbl⟩ := h.leased _ hrow.job (hrow.targetId.symm.trans htT) hrow.leased t
          ht htT
        have hspaced := hbl b hb
        have hlate := hlater _ _ _ _ he hrow l hl
        exact ⟨e.now, rfl, by omega⟩
    · have hdeletes := hr.deletes
      rw [htT, hdel] at hdeletes
      exact absurd hdeletes (by simp)
  · obtain ⟨input, j, c, t, he, hrow, rfl, htargets⟩ := mem_deliveriesOf hd
    refine ⟨{ t with lastAppliedAt := some e.now, lastAppliedSuffixHash := some c.suffixHash },
      ?_, ?_, e.now, rfl, e.now, rfl, le_refl _⟩
    · rw [htargets]
      exact mem_updateWhere.mpr ⟨t, hrow.target, Or.inl ⟨decide_eq_true hrow.targetId, rfl⟩⟩
    · exact hrow.targetId.trans hdT

theorem Spacing.leased_step {ds : List Delivery} (hinv : Inv cfg f)
    (h : Spacing cfg T ds f.store) :
    ∀ k ∈ ((fleet cfg).next f e).store.jobs, k.targetId = T → k.state = .leased →
      ∀ u ∈ ((fleet cfg).next f e).store.targets, u.targetId = T →
        ∃ l ∈ k.leasedAt, ∀ b ∈ u.lastAppliedAt, b + cfg.minIntervalMs ≤ l := by
  intro k hk hkT hkl u hu huT
  obtain ⟨j, hm, hj⟩ := job_before hk
  have hjT : j.targetId = T := (targetId_of_key hm.key).symm.trans hkT
  rcases hm.to_leased hkl with ⟨hjl, hrow⟩ | ⟨req, c, rfl, hh⟩
  · have hj : j ∈ f.store.jobs := hj.resolve_right fun hb => by simp [hb.born.pending] at hjl
    have hleasedAt : k.leasedAt = j.leasedAt := by
      rcases hrow with rfl | ⟨input, lease, hr⟩
      · rfl
      · rw [hr.row]
        rfl
    rw [hleasedAt]
    rcases target_before hu with ⟨t, ht, htm⟩ | hborn
    · have hold := h.leased j hj hjT hjl t ht (htm.targetId.symm.trans huT)
      cases htm with
      | keep => exact hold
      | enrolled => exact hold
      | switched => exact hold
      | applied he hrow hx hjobs =>
        -- The acknowledged job is the leased one, which is applied now.
        obtain rfl := hinv.exclusive _ hrow.job j hj
          (hrow.targetId.symm.trans (huT.trans hjT.symm)) hrow.leased hjl
        have hsame := key_unique (store_unique _).job_key hk hjobs (jobId_of_key hm.key)
        rw [hsame] at hkl
        exact absurd hkl (by simp [DeliveryJob.verify])
    · obtain ⟨t, ht, htj⟩ := target_of_job f hj
      cases hborn with
      | @mk en _ he hn =>
        have hne : t.targetId ≠ en.id := by simpa using List.find?_eq_none.mp hn t ht
        exact absurd (htj.trans (hjT.trans huT.symm)) hne
  · have hleasedAt : k.leasedAt = some e.now := by
      rw [hh.row]
      rfl
    refine ⟨e.now, hleasedAt, fun b hb => ?_⟩
    rcases target_before hu with ⟨t, ht, htm⟩ | hborn
    · cases htm with
      | keep =>
        have hut : c.target = u := key_unique (store_unique f).target_key hh.grants.target ht
          (hh.grants.targetId.trans (hjT.trans huT.symm))
        have hdue := hh.grants.due
        unfold CampaignTarget.due at hdue
        rw [hut, hinv.interval u ht, hb] at hdue
        simpa using hdue
      | enrolled he =>
        rcases he with ⟨input, he, -⟩ | ⟨input, dateNow, he, -⟩
        · exact absurd (he.symm.trans hh.call) (by simp)
        · exact absurd (he.symm.trans hh.call) (by simp)
      | switched he => exact absurd (he.symm.trans hh.call) (by simp)
      | applied he => exact absurd (he.symm.trans hh.call) (by simp)
    · cases hborn with
      | mk he =>
        rcases he with ⟨input, he, -⟩ | ⟨input, dateNow, he, -⟩
        · exact absurd (he.symm.trans hh.call) (by simp)
        · exact absurd (he.symm.trans hh.call) (by simp)

/-- **Every event keeps the spacing.** -/
theorem Spacing.step {ds : List Delivery} (hinv : Inv cfg f) (h : Spacing cfg T ds f.store)
    (hlater : AcksLater cfg f e) (hdel : e.deletes f T = false) :
    Spacing cfg T (ds ++ deliveriesOf cfg f e) ((fleet cfg).next f e).store :=
  ⟨h.spaced_step hlater, h.recorded_step hlater hdel, h.leased_step hinv⟩

/-! ## Runs -/

/-- An acknowledgement that presents the token of a lease starts after that lease committed. -/
def Event.presentsIssued (cfg : Config) (log : List Grant) (e : Event) : Bool :=
  match e.call with
  | .acknowledgeBridgeJob input => log.all fun g => g.jobId ≠ input.jobId
    || cfg.digest input.leaseToken ≠ cfg.digest g.leaseToken || g.committedAt ≤ e.now
  | _ => true

/-- A worker presents a token only after the lease that issued it committed. -/
def TokensIssued (cfg : Config) (es : List Event) : Prop :=
  ∀ n, (h : n < es.length) → es[n].presentsIssued cfg (grantLog cfg (es.take n)) = true

theorem TokensIssued.before {fs : List Event} (h : TokensIssued cfg (es ++ fs)) :
    TokensIssued cfg es := by
  intro n hn
  have hn' : n < (es ++ fs).length := by
    rw [List.length_append]
    omega
  have hpresents := h n hn'
  rwa [List.getElem_append_left hn, List.take_append_of_le_length (by omega)] at hpresents

theorem TokensIssued.last (h : TokensIssued cfg (es ++ [e])) :
    e.presentsIssued cfg (grantLog cfg es) = true := by
  have hpresents := h es.length (by simp)
  rwa [List.getElem_concat_length rfl, List.take_left] at hpresents

/-- The clock does not run backwards within a transaction. -/
def ClockAdvances (es : List Event) : Prop := ∀ e ∈ es, e.now ≤ e.committedAt

theorem grant_clock {g : Grant} (hclock : ClockAdvances es) (hg : g ∈ grantLog cfg es) :
    g.now ≤ g.committedAt := by
  obtain ⟨pre, e, post, rfl, hof⟩ := EventSystem.mem_collect.mp hg
  obtain ⟨req, c, hrow⟩ := grantsOf_row hof
  rw [hrow.grant]
  exact hclock e (by simp)

/-- The times of a lease and of its acknowledgement, from the assumptions on the clock. -/
theorem acksLater_of_issued (hclock : ClockAdvances (es ++ [e]))
    (hissued : TokensIssued cfg (es ++ [e])) :
    AcksLater cfg ((fleet cfg).run Fleet.initial es) e := by
  intro input j c t he hrow l hl
  obtain ⟨g, hlast, hc⟩ := held_run cfg es j hrow.job (Or.inl hrow.leased)
  obtain ⟨hg, hid⟩ := lastGrant_mem hlast
  obtain rfl : g.now = l := Option.some.inj ((hc.leasedAt hrow.leased).symm.trans hl)
  have hheld := hrow.held
  unfold DeliveryJob.heldBy at hheld
  simp only [hc.token, Bool.and_eq_true, decide_eq_true_eq, Option.some.injEq] at hheld
  have hcommitted : g.committedAt ≤ e.now := by
    have hpresents := hissued.last
    unfold Event.presentsIssued at hpresents
    rw [he] at hpresents
    simpa [hid, hrow.jobId, hheld.2] using List.all_eq_true.mp hpresents g hg
  have hclock' : ClockAdvances es := fun e he => hclock e (List.mem_append_left _ he)
  exact (grant_clock hclock' hg).trans hcommitted

theorem spacing_of_run (cfg : Config) (T : String) (es : List Event) (hclock : ClockAdvances es)
    (hissued : TokensIssued cfg es)
    (hkept : (fleet cfg).Along (fun f e => e.deletes f T = false) Fleet.initial es) :
    Spacing cfg T (deliveries cfg es) ((fleet cfg).run Fleet.initial es).store := by
  induction es using List.reverseRecOn with
  | nil =>
    exact ⟨List.Pairwise.nil, fun d hd => absurd hd List.not_mem_nil,
      fun j hj => absurd hj List.not_mem_nil⟩
  | append_singleton es e ih =>
    obtain ⟨hbefore, hdel⟩ := EventSystem.along_concat.mp hkept
    have hs := ih (fun e he => hclock e (List.mem_append_left _ he)) hissued.before hbefore
    unfold deliveries
    rw [EventSystem.collect_concat, EventSystem.run_concat]
    exact hs.step (inv_run cfg es) (acksLater_of_issued hclock hissued) hdel

/-- **Deliveries are spaced.** Along every run in which the target is not removed, of two jobs of
the target that became applied the later one was leased, and so applied, at least the target's
minimum interval after the earlier one was applied. -/
theorem spacing_run (cfg : Config) (T : String) (es : List Event) (hclock : ClockAdvances es)
    (hissued : TokensIssued cfg es)
    (hkept : (fleet cfg).Along (fun f e => e.deletes f T = false) Fleet.initial es) :
    ∀ t ∈ ((fleet cfg).run Fleet.initial es).store.targets, t.targetId = T →
      ((deliveries cfg es).filter (·.targetId = T)).Pairwise (Spaced t.minDeliveryIntervalMs) := by
  intro t ht _
  rw [(inv_run cfg es).interval t ht]
  exact (spacing_of_run cfg T es hclock hissued hkept).spaced

/-- Two deliveries, the second one a minute after the first. -/
def twoDeliveries : List Event :=
  Sample.register 1 :: Sample.enqueue 2 "a=1" 1 1 "job1" ++
    [Sample.lease 3 "token1", Sample.ack 4 "job1" "token1" "a=1"] ++
    Sample.enqueue 5 "a=2" 2 2 "job2" ++
    [Sample.lease 60000 "token2", Sample.ack 60001 "job2" "token2" "a=2"]

theorem spacing_run_two : (deliveries Config.sample twoDeliveries).length = 2
    ∧ ∀ t ∈ ((fleet Config.sample).run Fleet.initial twoDeliveries).store.targets,
      t.targetId = Sample.id →
      ((deliveries Config.sample twoDeliveries).filter (·.targetId = Sample.id)).Pairwise
        (Spaced t.minDeliveryIntervalMs) := by
  refine (fun h : _ ∧ _ ∧ _ ∧ _ =>
    ⟨h.1, spacing_run Config.sample Sample.id twoDeliveries h.2.1 h.2.2.1 h.2.2.2⟩) ?_
  unfold ClockAdvances TokensIssued
  decide +kernel

end LinkSuffix
