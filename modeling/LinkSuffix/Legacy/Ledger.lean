import LinkSuffix.Legacy.Enrolled
import LinkSuffix.Store.Invariant

/-!
# The store calls and the legacy migration together

* `deployment`: any order of store calls and migration runs, each one transaction.
* `Coherent`: jobs and captures agree, and every recorded delivery has its job.
* **`ledger_run`**: every reachable state is coherent.
-/

namespace LinkSuffix

open Lib

namespace Legacy

open LegacyCandidate

/-- A store call or a run of the migration with `--apply`. -/
inductive Action where
  | call (e : Event)
  | migrate (sources : LegacySources) (draws : Draws)

/-- The migration commits, or nothing happens to the rows. -/
def runMigration (cfg : Config) (pg : Postgres) (sources : LegacySources) (draws : Draws)
    (f : Fleet) : Fleet × Except StoreError Unit :=
  match transaction (migrate cfg pg sources draws) f.db with
  | .error e => (f, .error e)
  | .ok (_, d) => (⟨d, f.inFlight⟩, .ok ())

/-- The deployment. -/
def deployment (cfg : Config) (pg : Postgres) : EventSystem Fleet Action (Except StoreError Unit)
    where
  step f action :=
    match action with
    | .call e => ((fleet cfg).next f e, ((fleet cfg).reply f e).map fun _ => ())
    | .migrate sources draws => runMigration cfg pg sources draws f

variable {cfg : Config} {pg : Postgres} {sources : LegacySources} {draws : Draws}
  {k : LegacyCandidate} {applied : Fields} {f : Fleet} {e : Event} {s s' : Store}

/-! ## The whole work -/

/-- The `verifiedAt` of every match can be cast. -/
def Castable (pg : Postgres) (applied : Fields) (now : Nat) (s : Store) : Prop :=
  ∀ j ∈ s.jobs, ∀ record c, matched pg applied s j = some (record, c) →
    verifiedAt pg applied now record ≠ none

/-- The store after both updates. -/
def updated (pg : Postgres) (applied : Fields) (draws : Draws) (s : Store) : Store :=
  recordLatest draws.jobOrder { s with jobs := s.jobs.map (markedRow pg applied draws.now s) }

theorem markApplied_ok_iff {now : Nat} : markApplied pg applied now s = .ok s' ↔
    Castable pg applied now s ∧ s' = { s with jobs := s.jobs.map (markedRow pg applied now s) } := by
  have hcastable : (s.jobs.any fun j => (matched pg applied s j).any fun m =>
      (verifiedAt pg applied now m.1).isNone) = false ↔ Castable pg applied now s := by
    simp only [List.any_eq_false, Option.any_eq_true, Prod.exists, Option.isNone_iff_eq_none,
      not_exists, not_and, Castable, ne_eq]
  unfold markApplied
  split
  · rename_i hbad
    have hnot : ¬Castable pg applied now s := fun h =>
      Bool.eq_false_iff.mp (hcastable.mpr h) hbad
    simp [hnot]
  · rename_i hgood
    have hcast := hcastable.mp (Bool.eq_false_iff.mpr hgood)
    simp only [hcast, true_and, Except.ok.injEq]
    exact eq_comm

/-- What committed work did: the loop and the updates. -/
theorem migrate_ok_iff : migrate cfg pg sources draws s = .ok ((), s') ↔
    ∃ s1 applied, migrateCandidates cfg draws sources.candidates s = .ok s1
      ∧ sources.applied = .ok applied ∧ Castable pg applied draws.now s1
      ∧ s' = updated pg applied draws s1 := by
  unfold migrate
  cases migrateCandidates cfg draws sources.candidates s with
  | error e => simp
  | ok s1 =>
    cases sources.applied with
    | error e => simp
    | ok applied =>
      dsimp only
      cases hmarked : markApplied pg applied draws.now s1 with
      | error e =>
        have hnot : ¬Castable pg applied draws.now s1 := fun h => by
          simp [markApplied_ok_iff.mpr ⟨h, rfl⟩] at hmarked
        simp [hnot]
      | ok s2 =>
        obtain ⟨hcast, rfl⟩ := markApplied_ok_iff.mp hmarked
        simp only [Except.ok.injEq, Prod.mk.injEq, true_and]
        constructor
        · rintro rfl
          exact ⟨s1, applied, rfl, rfl, hcast, rfl⟩
        · rintro ⟨_, _, rfl, rfl, -, rfl⟩
          rfl

/-! ## The updates keep the constraints -/

/-- A column of the job's identity is unchanged by the marks. -/
theorem map_markedRow (pg : Postgres) (applied : Fields) (now : Nat) (s : Store) {β : Type}
    (col : DeliveryJob → β) (hcol : ∀ v h j, col (mark v h j) = col j) :
    (s.jobs.map (markedRow pg applied now s)).map col = s.jobs.map col := by
  rw [List.map_map]
  refine List.map_congr_left fun j _ => ?_
  simp only [Function.comp_apply, markedRow]
  cases matched pg applied s j with
  | none => rfl
  | some p => exact hcol _ _ _

/-- A column of the target's identity is unchanged by the latest deliveries. -/
theorem map_updated (pg : Postgres) (applied : Fields) (draws : Draws) (s : Store) {β : Type}
    (col : CampaignTarget → β) (hcol : ∀ t d h,
      col { t with lastAppliedAt := d, lastAppliedSuffixHash := h } = col t) :
    (updated pg applied draws s).targets.map col = s.targets.map col := by
  unfold updated recordLatest
  rw [List.map_map]
  refine List.map_congr_left fun t _ => ?_
  simp only [Function.comp_apply, latestRow]
  cases draws.jobOrder.pick _ with
  | none => rfl
  | some j => exact hcol _ _ _

theorem updated_unique (h : s.Unique) : (updated pg applied draws s).Unique where
  target_key :=
    map_updated pg applied draws s (·.targetId) (fun _ _ _ => rfl) ▸ h.target_key
  target_record :=
    map_updated pg applied draws s (·.campaignRecordId) (fun _ _ _ => rfl) ▸ h.target_record
  target_campaign :=
    map_updated pg applied draws s
      (fun t => (t.managerCustomerId, t.customerId, t.googleCampaignId)) (fun _ _ _ => rfl)
      ▸ h.target_campaign
  capture_key := h.capture_key
  capture_version := h.capture_version
  job_key := map_markedRow pg applied draws.now s (·.jobId) (fun _ _ _ => rfl) ▸ h.job_key
  job_capture :=
    map_markedRow pg applied draws.now s (fun j => (j.targetId, j.captureId)) (fun _ _ _ => rfl)
      ▸ h.job_capture
  shard_key := h.shard_key
  manager_key := h.manager_key
  activity_key := h.activity_key

/-- A job after the updates is a job before, marked or not. -/
theorem mem_updated_jobs {k : DeliveryJob} : k ∈ (updated pg applied draws s).jobs ↔
    ∃ j ∈ s.jobs, markedRow pg applied draws.now s j = k :=
  List.mem_map

theorem markedRow_keys (pg : Postgres) (applied : Fields) (now : Nat) (s : Store)
    (j : DeliveryJob) : (markedRow pg applied now s j).jobId = j.jobId
      ∧ (markedRow pg applied now s j).targetId = j.targetId
      ∧ (markedRow pg applied now s j).captureId = j.captureId := by
  unfold markedRow
  cases matched pg applied s j with
  | none => exact ⟨rfl, rfl, rfl⟩
  | some p => exact ⟨rfl, rfl, rfl⟩

theorem updated_references (h : s.References) : (updated pg applied draws s).References := by
  have htargets := map_updated pg applied draws s (·.targetId) fun _ _ _ => rfl
  refine ⟨fun c hc => htargets ▸ h.capture_target c hc, fun j hj => ?_, fun j hj => ?_,
    h.activity_shard⟩
  · obtain ⟨i, hi, rfl⟩ := mem_updated_jobs.mp hj
    rw [(markedRow_keys pg applied draws.now s i).2.1, htargets]
    exact h.job_target i hi
  · obtain ⟨i, hi, rfl⟩ := mem_updated_jobs.mp hj
    rw [(markedRow_keys pg applied draws.now s i).2.2]
    exact h.job_capture i hi

theorem updated_checks (h : s.Checks) : (updated pg applied draws s).Checks := by
  refine { h with interval := fun t ht => ?_ }
  have hmem := List.mem_map_of_mem (f := (·.minDeliveryIntervalMs)) ht
  rw [map_updated pg applied draws s (·.minDeliveryIntervalMs) fun _ _ _ => rfl] at hmem
  obtain ⟨u, hu, heq⟩ := List.mem_map.mp hmem
  exact heq ▸ h.interval u hu

/-- **The work commits whenever it succeeds.** -/
theorem transaction_migrate {d : Database} (h : migrate cfg pg sources draws d.store = .ok ((), s')) :
    ∃ d' : Database, d'.store = s' ∧ transaction (migrate cfg pg sources draws) d = .ok ((), d') := by
  obtain ⟨s1, applied, hloop, -, -, rfl⟩ := migrate_ok_iff.mp h
  obtain ⟨hu, hr, hc⟩ := migrateCandidates_constraints hloop ⟨d.unique, d.references, d.checks⟩
  exact ⟨_, rfl, transaction_of_work h ⟨updated_unique hu, updated_references hr,
    updated_checks hc⟩⟩

/-! ## Coherence -/

/-- Jobs and captures agree, and a recorded delivery is that of an applied job. -/
structure Coherent (cfg : Config) (s : Store) : Prop where
  capture_of_target : ∀ j ∈ s.jobs, ∀ c ∈ s.captures, c.captureId = j.captureId →
    c.targetId = j.targetId
  capture_hash : ∀ c ∈ s.captures, c.suffixHash = cfg.digest c.exactSuffix
  delivered : ∀ t ∈ s.targets, t.lastAppliedAt ≠ none → ∃ j ∈ s.jobs, j.targetId = t.targetId
    ∧ j.state = .applied ∧ j.appliedAt = t.lastAppliedAt
    ∧ j.verifiedSuffixHash = t.lastAppliedSuffixHash

/-- The statements for a candidate keep the store coherent. -/
theorem coherent_enrolled (hk : k.Accepted cfg draws s) (hu : s.Unique) (hr : s.References)
    (h : Coherent cfg s) : Coherent cfg (k.enrolled cfg draws s) where
  capture_of_target := by
    intro j hj c hc hid
    rcases List.mem_append.mp hj with hj | hj
    · rcases List.mem_append.mp hc with hc | hc
      · exact h.capture_of_target j hj c hc hid
      · rcases newCaptures_cases cfg draws k s with hnew | ⟨-, hfree, hnew⟩
        · exact absurd hc (by simp [hnew])
        · -- An old job is for an old capture, and the new capture has a new id.
          rw [hnew, List.mem_singleton] at hc
          obtain ⟨d, hd, hdid⟩ := List.mem_map.mp (hr.job_capture j hj)
          refine absurd ?_ (collides_eq_false.mp (hfree d hd)).1
          rw [hdid, ← hid, hc]
          rfl
    · rcases newJobs_cases cfg draws k s with hnew | ⟨id, hcapture, -, hnew⟩
      · exact absurd hj (by simp [hnew])
      · obtain ⟨d, hd, hdid, hdt, -⟩ := captureId_mem hcapture
        rw [hnew, List.mem_singleton] at hj
        have hsame : c.captureId = d.captureId := by
          rw [hid, hj, hdid]
          rfl
        rw [key_unique (hk.unique hu).capture_key hc hd hsame, hdt, hj]
        rfl
  capture_hash := by
    intro c hc
    rcases List.mem_append.mp hc with hc | hc
    · exact h.capture_hash c hc
    · rcases newCaptures_cases cfg draws k s with hnew | ⟨-, -, hnew⟩
      · exact absurd hc (by simp [hnew])
      · rw [hnew, List.mem_singleton] at hc
        rw [hc]
        rfl
  delivered := by
    intro t ht hlast
    have hold : ∀ u ∈ s.targets, u.lastAppliedAt ≠ none →
        ∃ j ∈ (k.enrolled cfg draws s).jobs, j.targetId = u.targetId ∧ j.state = .applied
          ∧ j.appliedAt = u.lastAppliedAt ∧ j.verifiedSuffixHash = u.lastAppliedSuffixHash := by
      intro u hu hlast
      obtain ⟨j, hj, hrest⟩ := h.delivered u hu hlast
      exact ⟨j, List.mem_append_left _ hj, hrest⟩
    rcases List.mem_append.mp ht with ht | ht
    · obtain ⟨u, hu, ⟨-, rfl⟩ | ⟨-, rfl⟩⟩ := mem_updateWhere.mp ht
      · exact hold u hu hlast
      · exact hold t hu hlast
    · rcases newTargets_cases cfg k s with ⟨-, hnew⟩ | ⟨-, hnew⟩
      · exact absurd ht (by simp [hnew])
      · rw [hnew, List.mem_singleton] at ht
        exact absurd (by rw [ht]; rfl) hlast

theorem coherent_loop {ks : List LegacyCandidate}
    (hrun : migrateCandidates cfg draws ks s = .ok s') (hs : s.Unique ∧ s.References ∧ s.Checks)
    (h : Coherent cfg s) : Coherent cfg s' := by
  induction ks generalizing s with
  | nil => exact Except.ok.inj hrun ▸ h
  | cons k ks ih =>
    unfold migrateCandidates at hrun
    cases hstep : migrateCandidate cfg draws k s with
    | error e => simp [hstep] at hrun
    | ok s1 =>
      rw [hstep] at hrun
      obtain ⟨hk, rfl⟩ := migrateCandidate_ok_iff.mp hstep
      exact ih hrun ⟨hk.unique hs.1, hk.references hs.2.1, checks hs.2.2⟩
        (coherent_enrolled hk hs.1 hs.2.1 h)

theorem mem_deliveries {j : DeliveryJob} {targetId : String} : j ∈ deliveries s targetId ↔
    j ∈ s.jobs ∧ j.targetId = targetId ∧ j.state = .applied ∧ j.appliedAt ≠ none := by
  simp [deliveries, Option.isSome_iff_ne_none, and_assoc]

/-- A mark leaves an applied job applied. -/
theorem markedRow_applied (pg : Postgres) (applied : Fields) (now : Nat) (s : Store)
    {j : DeliveryJob} (hj : j.state = .applied) (hdate : j.appliedAt ≠ none) : (markedRow pg applied now s j).state = .applied
      ∧ (markedRow pg applied now s j).appliedAt ≠ none := by
  unfold markedRow
  cases matched pg applied s j with
  | none => exact ⟨hj, hdate⟩
  | some p => exact ⟨rfl, by simp [mark]⟩

theorem coherent_updated (h : Coherent cfg s) : Coherent cfg (updated pg applied draws s) where
  capture_of_target := by
    intro j hj c hc hid
    obtain ⟨i, hi, rfl⟩ := mem_updated_jobs.mp hj
    obtain ⟨-, htarget, hcapture⟩ := markedRow_keys pg applied draws.now s i
    rw [htarget]
    exact h.capture_of_target i hi c hc (hid.trans hcapture)
  capture_hash := h.capture_hash
  delivered := by
    intro u hu hlast
    obtain ⟨t, ht, rfl⟩ := List.mem_map.mp hu
    unfold latestRow at hlast ⊢
    cases hpick : draws.jobOrder.pick (deliveries
        { s with jobs := s.jobs.map (markedRow pg applied draws.now s) } t.targetId) with
    | some j =>
      obtain ⟨hj, htarget, hstate, -⟩ := mem_deliveries.mp (draws.jobOrder.pick_latest hpick).mem
      exact ⟨j, hj, htarget, hstate, rfl, rfl⟩
    | none =>
      -- The delivery recorded before is still one, so there is a latest delivery.
      simp only [hpick] at hlast
      obtain ⟨j, hj, htarget, hstate, hdate, -⟩ := h.delivered t ht hlast
      obtain ⟨hstate', hdate'⟩ := markedRow_applied pg applied draws.now s hstate (hdate ▸ hlast)
      have hmem : markedRow pg applied draws.now s j ∈ deliveries
          { s with jobs := s.jobs.map (markedRow pg applied draws.now s) } t.targetId :=
        mem_deliveries.mpr ⟨List.mem_map_of_mem hj,
          (markedRow_keys pg applied draws.now s j).2.1.trans htarget, hstate', hdate'⟩
      rw [draws.jobOrder.pick_eq_none.mp hpick] at hmem
      exact absurd hmem List.not_mem_nil

/-- The store and the captures in flight. -/
structure Ledger (cfg : Config) (f : Fleet) : Prop where
  coherent : Coherent cfg f.store
  ticket_hash : ∀ ticket ∈ f.inFlight, ticket.suffixHash = cfg.digest ticket.exactSuffix

theorem ledger_initial (cfg : Config) : Ledger cfg Fleet.initial where
  coherent := ⟨fun _ hj => absurd hj List.not_mem_nil, fun _ hc => absurd hc List.not_mem_nil,
    fun _ ht => absurd ht List.not_mem_nil⟩
  ticket_hash := fun _ ht => absurd ht List.not_mem_nil

/-- An event keeps an applied job as long as it keeps the job's target. -/
theorem applied_stays (h : Coherent cfg f.store) {j : DeliveryJob} (hj : j ∈ f.store.jobs)
    (hstate : j.state = .applied) {u : CampaignTarget}
    (hu : u ∈ ((fleet cfg).next f e).store.targets) (hut : j.targetId = u.targetId) :
    j ∈ ((fleet cfg).next f e).store.jobs := by
  rcases job_after cfg e hj with ⟨k, hk, hm⟩ | ⟨t, ⟨input, -, -, -, hs'⟩, hgone⟩
  · exact hm.of_applied hstate ▸ hk
  · have htarget : u.targetId = t.targetId := by
      rcases hgone with hgone | ⟨c, hc, hcid, hct⟩
      · exact hut.symm.trans hgone
      · exact hut.symm.trans ((h.capture_of_target j hj c hc hcid).symm.trans hct)
    rw [hs'] at hu
    exact absurd htarget (by simpa [removeTarget] using (List.mem_filter.mp hu).2)

theorem ledger_call (h : Ledger cfg f) : Ledger cfg ((fleet cfg).next f e) where
  coherent := by
    refine ⟨capture_of_target_step h.coherent.capture_of_target,
      capture_hash_step h.coherent.capture_hash h.ticket_hash, fun u hu hlast => ?_⟩
    have hkept : ∀ t ∈ f.store.targets, u.targetId = t.targetId →
        u.lastAppliedAt = t.lastAppliedAt → u.lastAppliedSuffixHash = t.lastAppliedSuffixHash →
        ∃ j ∈ ((fleet cfg).next f e).store.jobs, j.targetId = u.targetId ∧ j.state = .applied
          ∧ j.appliedAt = u.lastAppliedAt ∧ j.verifiedSuffixHash = u.lastAppliedSuffixHash := by
      intro t ht hid hdate hhash
      obtain ⟨j, hj, htarget, hstate, hjdate, hjhash⟩ :=
        h.coherent.delivered t ht (hdate ▸ hlast)
      exact ⟨j, applied_stays h.coherent hj hstate hu (htarget.trans hid.symm),
        htarget.trans hid.symm, hstate, hjdate.trans hdate.symm, hjhash.trans hhash.symm⟩
    rcases target_before hu with ⟨t, ht, hm⟩ | hborn
    · cases hm with
      | keep => exact hkept u ht rfl rfl rfl
      | enrolled he hid => exact hkept t ht hid.symm rfl rfl
      | switched => exact hkept t ht rfl rfl rfl
      | applied he hrow hx hjobs =>
        exact ⟨_, hjobs, hrow.targetId.symm, rfl, rfl, rfl⟩
    · cases hborn with
      | mk => exact absurd rfl hlast
  ticket_hash := ticket_hash_step h.ticket_hash

/-- **Every store call and every run of the migration keeps the ledger.** -/
theorem ledger_step (h : Ledger cfg f) (action : Action) :
    Ledger cfg ((deployment cfg pg).next f action) := by
  cases action with
  | call e => exact ledger_call h
  | migrate sources draws =>
    show Ledger cfg (runMigration cfg pg sources draws f).1
    unfold runMigration
    cases hrun : transaction (migrate cfg pg sources draws) f.db with
    | error e => exact h
    | ok p =>
      obtain ⟨⟨⟩, d⟩ := p
      obtain ⟨s1, applied, hloop, -, -, hstore⟩ := migrate_ok_iff.mp (transaction_ok hrun)
      refine ⟨?_, h.ticket_hash⟩
      show Coherent cfg d.store
      rw [hstore]
      exact coherent_updated (coherent_loop hloop ⟨f.db.unique, f.db.references, f.db.checks⟩
        h.coherent)

theorem ledger_run (cfg : Config) (pg : Postgres) (actions : List Action) :
    Ledger cfg ((deployment cfg pg).run Fleet.initial actions) :=
  EventSystem.run_inv_true (ledger_initial cfg) fun _ action h => ledger_step h action

end Legacy

end LinkSuffix
