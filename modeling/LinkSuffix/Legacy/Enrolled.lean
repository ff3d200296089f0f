import LinkSuffix.Legacy.Migration

/-!
# What the loop over the candidates leaves

* `Accepted.unique`, `Accepted.references`: the rows of a candidate meet the constraints.
* `Placed`: on a store that meets them, what PostgreSQL asks of the targets.
* **`migrateCandidates_ok_iff`**: the loop over candidates that share no record, no target and no
  drawn id commits when each is placed, and leaves what each alone would leave.
-/

namespace LinkSuffix

open Lib

namespace Legacy

open LegacyCandidate

variable {cfg : Config} {draws : Draws} {k : LegacyCandidate} {s s' : Store}

/-! ## The constraints -/

namespace LegacyCandidate

theorem newTargets_cases (cfg : Config) (k : LegacyCandidate) (s : Store) :
    (k.recorded s = true ∧ k.newTargets cfg s = [])
      ∨ (k.recorded s = false ∧ k.newTargets cfg s = [k.row cfg]) := by
  unfold newTargets
  by_cases hrecorded : k.recorded s = true
  · exact Or.inl ⟨hrecorded, if_pos hrecorded⟩
  · exact Or.inr ⟨by simpa using hrecorded, if_neg hrecorded⟩

theorem newCaptures_cases (cfg : Config) (draws : Draws) (k : LegacyCandidate) (s : Store) :
    k.newCaptures cfg draws s = []
      ∨ (k.captures cfg s = [] ∧ (∀ c ∈ s.captures, k.collides cfg draws c = false)
        ∧ k.newCaptures cfg draws s = [k.captureRow cfg (draws.nextval k) draws.now]) := by
  unfold newCaptures
  split
  · rename_i h
    obtain ⟨hnone, hfree⟩ := (Bool.and_eq_true_iff).mp h
    refine Or.inr ⟨List.isEmpty_iff.mp hnone, fun c hc => ?_, rfl⟩
    simpa using List.any_eq_false.mp (by simpa using hfree) c hc
  · exact Or.inl rfl

theorem newJobs_cases (cfg : Config) (draws : Draws) (k : LegacyCandidate) (s : Store) :
    k.newJobs cfg draws s = []
      ∨ ∃ id, k.captureId cfg draws s = some id
        ∧ (∀ j ∈ s.jobs, k.repeats cfg draws id j = false)
        ∧ k.newJobs cfg draws s =
          [newJob (draws.randomUUID k) (k.targetId cfg) id draws.now] := by
  unfold newJobs
  cases hid : k.captureId cfg draws s with
  | none => exact Or.inl rfl
  | some id =>
    by_cases hrepeats : s.jobs.any (k.repeats cfg draws id) = true
    · exact Or.inl (if_pos hrepeats)
    · refine Or.inr ⟨id, rfl, fun j hj => ?_, if_neg hrepeats⟩
      simpa using List.any_eq_false.mp (by simpa using hrepeats) j hj

/-- The candidate's job is for a capture of its target with its hash. -/
theorem captureId_mem {id : Nat} (h : k.captureId cfg draws s = some id) :
    ∃ c ∈ (k.enrolled cfg draws s).captures, c.captureId = id ∧ c.targetId = k.targetId cfg
      ∧ c.suffixHash = cfg.digest k.suffix := by
  unfold captureId at h
  cases hpick : draws.captureOrder.pick (k.captures cfg s) with
  | some c =>
    simp only [hpick, Option.some.injEq] at h
    obtain ⟨hc, htarget, hhash⟩ := mem_captures.mp (draws.captureOrder.pick_latest hpick).mem
    exact ⟨c, List.mem_append_left _ hc, h, htarget, hhash⟩
  | none =>
    simp only [hpick] at h
    have hnone := draws.captureOrder.pick_eq_none.mp hpick
    by_cases hcollides : s.captures.any (k.collides cfg draws) = true
    · simp [hcollides] at h
    · simp only [hcollides, Bool.false_eq_true, if_false, Option.some.injEq] at h
      refine ⟨k.captureRow cfg (draws.nextval k) draws.now, List.mem_append_right _ ?_, h, rfl, rfl⟩
      simp [newCaptures, hnone, hcollides]

/-- The target of the candidate is there after its statements, if a capture needs it. -/
theorem Accepted.targeted (h : k.Accepted cfg draws s) (hnew : k.newCaptures cfg draws s ≠ []) :
    ∃ t ∈ (k.enrolled cfg draws s).targets, t.targetId = k.targetId cfg := by
  rcases newTargets_cases cfg k s with ⟨hrecorded, -⟩ | ⟨-, hrow⟩
  · obtain ⟨t, ht, hid⟩ := targeted_iff.mp ((h.captured hrecorded).resolve_left hnew)
    have hkeys : (updateKey (·.campaignRecordId) k.campaignRecordId k.rename s.targets).map
        (·.targetId) = s.targets.map (·.targetId) := map_updateWhere fun _ _ => rfl
    obtain ⟨u, hu, huid⟩ := List.mem_map.mp (hkeys ▸ List.mem_map.mpr ⟨t, ht, hid⟩)
    exact ⟨u, List.mem_append_left _ hu, huid⟩
  · exact ⟨k.row cfg, List.mem_append_right _ (hrow ▸ List.mem_singleton_self _), rfl⟩

/-- The target rows before the new one keep their identities. -/
theorem renamed_map {β : Type} {col : CampaignTarget → β} (hcol : ∀ t, col (k.rename t) = col t) :
    (updateKey (·.campaignRecordId) k.campaignRecordId k.rename s.targets).map col =
      s.targets.map col :=
  map_updateWhere fun t _ => hcol t

/-- The new target repeats no value of a column in which it is fresh. -/
theorem enrolled_targets_nodup {β : Type} {col : CampaignTarget → β}
    (hcol : ∀ t, col (k.rename t) = col t) (hs : (s.targets.map col).Nodup)
    (hfresh : k.recorded s = false → ∀ t ∈ s.targets, col t ≠ col (k.row cfg)) :
    ((k.enrolled cfg draws s).targets.map col).Nodup := by
  unfold enrolled
  rw [← renamed_map (k := k) hcol] at hs
  rcases newTargets_cases cfg k s with ⟨-, hnew⟩ | ⟨hrecorded, hnew⟩
  · rw [hnew, List.append_nil]
    exact hs
  · rw [hnew]
    refine nodup_map_concat hs fun hmem => ?_
    rw [renamed_map hcol] at hmem
    obtain ⟨t, ht, heq⟩ := List.mem_map.mp hmem
    exact hfresh hrecorded t ht heq

/-- The new capture repeats no value of a column in which it is fresh. -/
theorem enrolled_captures_nodup {β : Type} {col : SuffixCapture → β}
    (hs : (s.captures.map col).Nodup)
    (hfresh : ∀ c, k.collides cfg draws c = false →
      col c ≠ col (k.captureRow cfg (draws.nextval k) draws.now)) :
    ((k.enrolled cfg draws s).captures.map col).Nodup := by
  unfold enrolled
  rcases newCaptures_cases cfg draws k s with hnew | ⟨-, hfree, hnew⟩
  · rw [hnew, List.append_nil]
    exact hs
  · rw [hnew]
    refine nodup_map_concat hs fun hmem => ?_
    obtain ⟨c, hc, heq⟩ := List.mem_map.mp hmem
    exact hfresh c (hfree c hc) heq

/-- The new job repeats no value of a column in which it is fresh. -/
theorem enrolled_jobs_nodup {β : Type} {col : DeliveryJob → β} (hs : (s.jobs.map col).Nodup)
    (hfresh : ∀ id j, k.repeats cfg draws id j = false →
      col j ≠ col (newJob (draws.randomUUID k) (k.targetId cfg) id draws.now)) :
    ((k.enrolled cfg draws s).jobs.map col).Nodup := by
  unfold enrolled
  rcases newJobs_cases cfg draws k s with hnew | ⟨id, -, hfree, hnew⟩
  · rw [hnew, List.append_nil]
    exact hs
  · rw [hnew]
    refine nodup_map_concat hs fun hmem => ?_
    obtain ⟨j, hj, heq⟩ := List.mem_map.mp hmem
    exact hfresh id j (hfree j hj) heq

theorem collides_eq_false {c : SuffixCapture} : k.collides cfg draws c = false ↔
    c.captureId ≠ draws.nextval k ∧ ¬(c.targetId = k.targetId cfg ∧ c.version = k.storedVersion) := by
  simp [collides]

theorem repeats_eq_false {id : Nat} {j : DeliveryJob} : k.repeats cfg draws id j = false ↔
    j.jobId ≠ draws.randomUUID k ∧ ¬(j.targetId = k.targetId cfg ∧ j.captureId = id) := by
  simp [repeats]

theorem Accepted.unique (h : k.Accepted cfg draws s) (hs : s.Unique) :
    (k.enrolled cfg draws s).Unique where
  target_key := by
    refine enrolled_targets_nodup (fun _ => rfl) hs.target_key fun hrecorded t ht heq => ?_
    have hfree := (h.unclaimed hrecorded).1
    rw [targeted_iff.mpr ⟨t, ht, heq⟩] at hfree
    exact absurd hfree (by simp)
  target_record := by
    refine enrolled_targets_nodup (fun _ => rfl) hs.target_record fun hrecorded t ht heq => ?_
    rw [recorded_iff.mpr ⟨t, ht, heq⟩] at hrecorded
    exact absurd hrecorded (by simp)
  target_campaign := by
    refine enrolled_targets_nodup (fun _ => rfl) hs.target_campaign fun hrecorded t ht heq => ?_
    have hfree := (h.unclaimed hrecorded).2
    simp only [advertised, List.any_eq_false, decide_eq_true_eq] at hfree
    exact hfree t ht heq
  capture_key := enrolled_captures_nodup hs.capture_key fun _ hc => (collides_eq_false.mp hc).1
  capture_version := enrolled_captures_nodup hs.capture_version fun _ hc heq =>
    (collides_eq_false.mp hc).2 (Prod.mk.inj heq)
  job_key := enrolled_jobs_nodup hs.job_key fun _ _ hj => (repeats_eq_false.mp hj).1
  job_capture := enrolled_jobs_nodup hs.job_capture fun _ _ hj heq =>
    (repeats_eq_false.mp hj).2 (Prod.mk.inj heq)
  shard_key := hs.shard_key
  manager_key := hs.manager_key
  activity_key := hs.activity_key

theorem Accepted.references (h : k.Accepted cfg draws s) (hs : s.References) :
    (k.enrolled cfg draws s).References := by
  have htargets : ∀ id ∈ s.targets.map (·.targetId),
      id ∈ (k.enrolled cfg draws s).targets.map (·.targetId) := by
    intro id hid
    unfold enrolled
    rw [List.map_append, renamed_map fun _ => rfl]
    exact List.mem_append_left _ hid
  have hcaptures : ∀ c ∈ (k.enrolled cfg draws s).captures,
      c.targetId ∈ (k.enrolled cfg draws s).targets.map (·.targetId) := by
    intro c hc
    rcases List.mem_append.mp hc with hc | hc
    · exact htargets _ (hs.capture_target c hc)
    · rcases newCaptures_cases cfg draws k s with hnew | ⟨-, -, hnew⟩
      · exact absurd hc (by simp [hnew])
      · obtain ⟨t, ht, hid⟩ := h.targeted (by simp [hnew])
        rw [hnew, List.mem_singleton] at hc
        exact List.mem_map.mpr ⟨t, ht, by rw [hid, hc]; rfl⟩
  have hjobs : ∀ j ∈ (k.enrolled cfg draws s).jobs, j ∈ s.jobs ∨
      ∃ c ∈ (k.enrolled cfg draws s).captures, c.captureId = j.captureId
        ∧ c.targetId = j.targetId := by
    intro j hj
    rcases List.mem_append.mp hj with hj | hj
    · exact Or.inl hj
    · rcases newJobs_cases cfg draws k s with hnew | ⟨id, hid, -, hnew⟩
      · exact absurd hj (by simp [hnew])
      · obtain ⟨c, hc, hcid, hct, -⟩ := captureId_mem hid
        rw [hnew, List.mem_singleton] at hj
        exact Or.inr ⟨c, hc, by rw [hcid, hj]; rfl, by rw [hct, hj]; rfl⟩
  refine ⟨hcaptures, fun j hj => ?_, fun j hj => ?_, hs.activity_shard⟩
  · rcases hjobs j hj with hold | ⟨c, hc, -, hct⟩
    · exact htargets _ (hs.job_target j hold)
    · exact hct ▸ hcaptures c hc
  · rcases hjobs j hj with hold | ⟨c, hc, hcid, -⟩
    · obtain ⟨c, hc, hcid⟩ := List.mem_map.mp (hs.job_capture j hold)
      exact List.mem_map.mpr ⟨c, List.mem_append_left _ hc, hcid⟩
    · exact List.mem_map.mpr ⟨c, hc, hcid⟩

theorem checks (hs : s.Checks) : (k.enrolled cfg draws s).Checks := by
  refine { hs with interval := fun t ht => ?_ }
  rcases List.mem_append.mp ht with ht | ht
  · obtain ⟨u, hu, ⟨-, rfl⟩ | ⟨-, rfl⟩⟩ := mem_updateWhere.mp ht
    · exact hs.interval u hu
    · exact hs.interval t hu
  · rcases newTargets_cases cfg k s with ⟨-, hnew⟩ | ⟨-, hnew⟩
    · exact absurd ht (by simp [hnew])
    · rw [hnew, List.mem_singleton] at ht
      rw [ht]
      exact le_refl 58000

end LegacyCandidate

/-- What an accepted loop leaves meets the constraints. -/
theorem migrateCandidates_constraints {ks : List LegacyCandidate}
    (h : migrateCandidates cfg draws ks s = .ok s') (hs : s.Unique ∧ s.References ∧ s.Checks) :
    s'.Unique ∧ s'.References ∧ s'.Checks := by
  induction ks generalizing s with
  | nil => exact Except.ok.inj h ▸ hs
  | cons k ks ih =>
    unfold migrateCandidates at h
    cases hk : migrateCandidate cfg draws k s with
    | error e => simp [hk] at h
    | ok s1 =>
      rw [hk] at h
      obtain ⟨haccepted, rfl⟩ := migrateCandidate_ok_iff.mp hk
      exact ih h ⟨haccepted.unique hs.1, haccepted.references hs.2.1, checks hs.2.2⟩

/-! ## Candidates apart -/

namespace LegacyCandidate

/-- The target row of the candidate's record is there with its target, or both are free. -/
structure Placed (cfg : Config) (k : LegacyCandidate) (s : Store) : Prop where
  together : k.recorded s = k.targeted cfg s
  unadvertised : k.recorded s = false → k.advertised s = false

/-- On a store that meets the constraints, the rows of a placed candidate are taken. -/
theorem accepted_iff_placed (hs : s.References)
    (hfresh : ∀ c ∈ s.captures, c.captureId ≠ draws.nextval k) :
    k.Accepted cfg draws s ↔ k.Placed cfg s := by
  constructor
  · intro h
    cases hrecorded : k.recorded s with
    | false => exact ⟨by rw [hrecorded, (h.unclaimed hrecorded).1],
        fun _ => (h.unclaimed hrecorded).2⟩
    | true =>
      refine ⟨?_, fun hnew => absurd hrecorded (by simp [hnew])⟩
      rw [hrecorded, eq_comm]
      rcases h.captured hrecorded with hnone | htargeted
      · -- Nothing is inserted because the target has a capture already, and so is there.
        have hcapture : ∃ c ∈ s.captures, c.targetId = k.targetId cfg := by
          by_contra hcon
          push Not at hcon
          have hfound : k.captures cfg s = [] := by
            refine List.eq_nil_iff_forall_not_mem.mpr fun c hc => ?_
            exact hcon c (mem_captures.mp hc).1 (mem_captures.mp hc).2.1
          have hfree : s.captures.any (k.collides cfg draws) = false := by
            refine List.any_eq_false.mpr fun c hc => ?_
            rw [collides_eq_false.mpr ⟨hfresh c hc, fun hsame => hcon c hc hsame.1⟩]
            simp
          simp [newCaptures, hfound, hfree] at hnone
        obtain ⟨c, hc, hct⟩ := hcapture
        obtain ⟨t, ht, hid⟩ := List.mem_map.mp (hs.capture_target c hc)
        exact targeted_iff.mpr ⟨t, ht, hid.trans hct⟩
      · exact htargeted
  · intro h
    refine ⟨fun hrecorded => ⟨h.together ▸ hrecorded, h.unadvertised hrecorded⟩,
      fun hrecorded => Or.inr (h.together ▸ hrecorded)⟩

/-- Two candidates share no record, no target and no drawn id. -/
structure Apart (cfg : Config) (draws : Draws) (k l : LegacyCandidate) : Prop where
  record : k.campaignRecordId ≠ l.campaignRecordId
  target : k.targetId cfg ≠ l.targetId cfg
  nextval : draws.nextval k ≠ draws.nextval l
  uuid : draws.randomUUID k ≠ draws.randomUUID l

variable {l : LegacyCandidate}

/-- One account and campaign is one target. -/
theorem targetId_of_campaign (h : (k.managerCustomerId, k.customerId, k.googleCampaignId) =
    (l.managerCustomerId, l.customerId, l.googleCampaignId)) : k.targetId cfg = l.targetId cfg := by
  simp only [Prod.mk.injEq] at h
  unfold targetId key
  rw [h.1, h.2.1, h.2.2]

/-- What holds of some target row before holds of some after, for a test of its identity that the
new row fails. -/
theorem any_enrolled_targets {p : CampaignTarget → Bool} (hp : ∀ t, p (k.rename t) = p t)
    (hnew : p (k.row cfg) = false) :
    (k.enrolled cfg draws s).targets.any p = s.targets.any p := by
  have hrows : (updateKey (·.campaignRecordId) k.campaignRecordId k.rename s.targets).map p =
      s.targets.map p := renamed_map hp
  have hnone : (k.newTargets cfg s).any p = false := by
    rcases newTargets_cases cfg k s with ⟨-, h⟩ | ⟨-, h⟩
    · simp [h]
    · simp [h, hnew]
  have hany : ∀ rows : List CampaignTarget, rows.any p = (rows.map p).any id := by
    intro rows
    simp [List.any_map]
  unfold enrolled
  rw [List.any_append, hnone, Bool.or_false, hany, hrows, ← hany]

theorem Apart.recorded (h : Apart cfg draws k l) :
    l.recorded (k.enrolled cfg draws s) = l.recorded s :=
  any_enrolled_targets (fun _ => rfl) (decide_eq_false h.record)

theorem Apart.targeted (h : Apart cfg draws k l) :
    l.targeted cfg (k.enrolled cfg draws s) = l.targeted cfg s :=
  any_enrolled_targets (fun _ => rfl) (decide_eq_false h.target)

theorem Apart.advertised (h : Apart cfg draws k l) :
    l.advertised (k.enrolled cfg draws s) = l.advertised s :=
  any_enrolled_targets (fun _ => rfl)
    (decide_eq_false fun hsame => h.target (targetId_of_campaign hsame))

theorem Apart.placed (h : Apart cfg draws k l) :
    l.Placed cfg (k.enrolled cfg draws s) ↔ l.Placed cfg s := by
  constructor
  · rintro ⟨htogether, hfree⟩
    rw [h.recorded, h.targeted] at htogether
    rw [h.recorded, h.advertised] at hfree
    exact ⟨htogether, hfree⟩
  · rintro ⟨htogether, hfree⟩
    refine ⟨by rw [h.recorded, h.targeted, htogether], ?_⟩
    rw [h.recorded, h.advertised]
    exact hfree

theorem Apart.newTargets (h : Apart cfg draws k l) :
    l.newTargets cfg (k.enrolled cfg draws s) = l.newTargets cfg s := by
  unfold LegacyCandidate.newTargets
  rw [h.recorded]

theorem Apart.captures (h : Apart cfg draws k l) :
    l.captures cfg (k.enrolled cfg draws s) = l.captures cfg s := by
  unfold LegacyCandidate.captures enrolled
  rw [List.filter_append]
  rcases newCaptures_cases cfg draws k s with hnew | ⟨-, -, hnew⟩
  · rw [hnew, List.filter_nil, List.append_nil]
  · have hother : ¬(k.captureRow cfg (draws.nextval k) draws.now).targetId = l.targetId cfg :=
      h.target
    rw [hnew, List.filter_cons, if_neg (by simp [hother]), List.filter_nil, List.append_nil]

theorem Apart.collides (h : Apart cfg draws k l) :
    (k.enrolled cfg draws s).captures.any (l.collides cfg draws) =
      s.captures.any (l.collides cfg draws) := by
  unfold enrolled
  rw [List.any_append]
  rcases newCaptures_cases cfg draws k s with hnew | ⟨-, -, hnew⟩
  · rw [hnew, List.any_nil, Bool.or_false]
  · have hother : l.collides cfg draws (k.captureRow cfg (draws.nextval k) draws.now) = false :=
      collides_eq_false.mpr ⟨h.nextval, fun hsame => h.target hsame.1⟩
    rw [hnew, List.any_cons, hother, List.any_nil, Bool.or_false, Bool.or_false]

theorem Apart.repeats (h : Apart cfg draws k l) (id : Nat) :
    (k.enrolled cfg draws s).jobs.any (l.repeats cfg draws id) =
      s.jobs.any (l.repeats cfg draws id) := by
  unfold enrolled
  rw [List.any_append]
  rcases newJobs_cases cfg draws k s with hnew | ⟨id', -, -, hnew⟩
  · rw [hnew, List.any_nil, Bool.or_false]
  · have hother : l.repeats cfg draws id
        (newJob (draws.randomUUID k) (k.targetId cfg) id' draws.now) = false :=
      repeats_eq_false.mpr ⟨h.uuid, fun hsame => h.target hsame.1⟩
    rw [hnew, List.any_cons, hother, List.any_nil, Bool.or_false, Bool.or_false]

theorem Apart.newCaptures (h : Apart cfg draws k l) :
    l.newCaptures cfg draws (k.enrolled cfg draws s) = l.newCaptures cfg draws s := by
  unfold LegacyCandidate.newCaptures
  rw [h.captures, h.collides]

theorem Apart.captureId (h : Apart cfg draws k l) :
    l.captureId cfg draws (k.enrolled cfg draws s) = l.captureId cfg draws s := by
  unfold LegacyCandidate.captureId
  rw [h.captures, h.collides]

theorem Apart.newJobs (h : Apart cfg draws k l) :
    l.newJobs cfg draws (k.enrolled cfg draws s) = l.newJobs cfg draws s := by
  unfold LegacyCandidate.newJobs
  simp only [h.captureId, h.repeats]

end LegacyCandidate

/-! ## The loop -/

/-- The drawn ids are in no row. -/
structure Draws.New (draws : Draws) (ks : List LegacyCandidate) (s : Store) : Prop where
  captures : ∀ k ∈ ks, ∀ c ∈ s.captures, c.captureId ≠ draws.nextval k
  jobs : ∀ k ∈ ks, ∀ j ∈ s.jobs, j.jobId ≠ draws.randomUUID k

/-- The target row after the loop: the candidate of its record renames it. -/
def renamedBy (ks : List LegacyCandidate) : CampaignTarget → CampaignTarget :=
  rowUpdate (·.campaignRecordId) LegacyCandidate.campaignRecordId LegacyCandidate.rename ks

theorem renamedBy_of_mem {ks : List LegacyCandidate} {t : CampaignTarget}
    (hks : (ks.map (·.campaignRecordId)).Nodup) (hk : k ∈ ks)
    (hkt : k.campaignRecordId = t.campaignRecordId) : renamedBy ks t = k.rename t :=
  rowUpdate_of_mem hks hk hkt

theorem renamedBy_of_notMem {ks : List LegacyCandidate} {t : CampaignTarget}
    (h : ∀ k ∈ ks, k.campaignRecordId ≠ t.campaignRecordId) : renamedBy ks t = t :=
  rowUpdate_of_notMem h

/-- A candidate's rename before those of the rest. -/
theorem map_renamedBy_cons {ks : List LegacyCandidate}
    (hks : ((k :: ks).map (·.campaignRecordId)).Nodup) (rows : List CampaignTarget) :
    (updateKey (·.campaignRecordId) k.campaignRecordId k.rename rows).map (renamedBy ks) =
      rows.map (renamedBy (k :: ks)) := by
  have hkey : ∀ (l : LegacyCandidate) (t : CampaignTarget),
      (l.rename t).campaignRecordId = t.campaignRecordId := fun _ _ => rfl
  exact (foldl_updateKey hkey (List.nodup_cons.mp hks).2).symm.trans (foldl_updateKey hkey hks)

/-- The store after the loop: what each candidate alone adds, and the renamed targets. -/
def enrolledAll (cfg : Config) (draws : Draws) (ks : List LegacyCandidate) (s : Store) : Store :=
  { s with
    targets := s.targets.map (renamedBy ks) ++ ks.flatMap (LegacyCandidate.newTargets cfg · s)
    captures := s.captures ++ ks.flatMap (LegacyCandidate.newCaptures cfg draws · s)
    jobs := s.jobs ++ ks.flatMap (LegacyCandidate.newJobs cfg draws · s) }

/-- The drawn ids of the rest are in no row of the candidate either. -/
theorem Draws.New.enrolled {ks : List LegacyCandidate} (h : draws.New (k :: ks) s)
    (hapart : ∀ l ∈ ks, Apart cfg draws k l) : draws.New ks (k.enrolled cfg draws s) where
  captures := by
    intro l hl c hc
    rcases List.mem_append.mp hc with hc | hc
    · exact h.captures l (List.mem_cons_of_mem _ hl) c hc
    · rcases newCaptures_cases cfg draws k s with hnew | ⟨-, -, hnew⟩
      · exact absurd hc (by simp [hnew])
      · rw [hnew, List.mem_singleton] at hc
        rw [hc]
        exact (hapart l hl).nextval
  jobs := by
    intro l hl j hj
    rcases List.mem_append.mp hj with hj | hj
    · exact h.jobs l (List.mem_cons_of_mem _ hl) j hj
    · rcases newJobs_cases cfg draws k s with hnew | ⟨id, -, -, hnew⟩
      · exact absurd hj (by simp [hnew])
      · rw [hnew, List.mem_singleton] at hj
        rw [hj]
        exact (hapart l hl).uuid

/-- One candidate and then the rest is all of them. -/
theorem enrolledAll_cons {ks : List LegacyCandidate}
    (hapart : ∀ l ∈ ks, Apart cfg draws k l) (hks : ks.Pairwise (Apart cfg draws)) :
    enrolledAll cfg draws ks (k.enrolled cfg draws s) = enrolledAll cfg draws (k :: ks) s := by
  have hrecords : ((k :: ks).map (·.campaignRecordId)).Nodup := by
    refine List.nodup_cons.mpr ⟨fun hmem => ?_, List.pairwise_map.mpr (hks.imp fun h => h.record)⟩
    obtain ⟨l, hl, heq⟩ := List.mem_map.mp hmem
    exact (hapart l hl).record heq.symm
  have hrenamed := map_renamedBy_cons hrecords s.targets
  -- The row inserted for the candidate has its record, which no later candidate renames.
  have hrow : (k.newTargets cfg s).map (renamedBy ks) = k.newTargets cfg s := by
    rcases newTargets_cases cfg k s with ⟨-, hnew⟩ | ⟨-, hnew⟩
    · rw [hnew, List.map_nil]
    · rw [hnew, List.map_singleton]
      exact congrArg (fun t => [t]) (renamedBy_of_notMem fun l hl => (hapart l hl).record.symm)
  have htargets : ks.flatMap (LegacyCandidate.newTargets cfg · (k.enrolled cfg draws s)) =
      ks.flatMap (LegacyCandidate.newTargets cfg · s) :=
    List.flatMap_congr fun l hl => (hapart l hl).newTargets
  have hcaptures : ks.flatMap (LegacyCandidate.newCaptures cfg draws · (k.enrolled cfg draws s)) =
      ks.flatMap (LegacyCandidate.newCaptures cfg draws · s) :=
    List.flatMap_congr fun l hl => (hapart l hl).newCaptures
  have hjobs : ks.flatMap (LegacyCandidate.newJobs cfg draws · (k.enrolled cfg draws s)) =
      ks.flatMap (LegacyCandidate.newJobs cfg draws · s) :=
    List.flatMap_congr fun l hl => (hapart l hl).newJobs
  unfold enrolledAll
  rw [htargets, hcaptures, hjobs]
  unfold enrolled
  simp only [List.map_append, hrenamed, hrow, List.flatMap_cons, List.append_assoc]

/-- **The loop over candidates that are apart** commits when each is placed, and leaves what each
alone would leave. -/
theorem migrateCandidates_ok_iff {ks : List LegacyCandidate} (hks : ks.Pairwise (Apart cfg draws))
    (hs : s.References) (hnew : draws.New ks s) : migrateCandidates cfg draws ks s = .ok s' ↔
      (∀ k ∈ ks, k.Placed cfg s) ∧ s' = enrolledAll cfg draws ks s := by
  induction ks generalizing s with
  | nil =>
    have hid : s.targets.map (renamedBy []) = s.targets := List.map_id _
    simp only [migrateCandidates, Except.ok.injEq, enrolledAll, hid, List.flatMap_nil,
      List.append_nil, List.not_mem_nil, false_imp_iff, implies_true, true_and]
    exact eq_comm
  | cons k ks ih =>
    obtain ⟨hapart, hrest⟩ := List.pairwise_cons.mp hks
    have haccepted := @accepted_iff_placed cfg draws k s hs (hnew.captures k List.mem_cons_self)
    rw [List.forall_mem_cons, ← haccepted]
    by_cases hk : k.Accepted cfg draws s
    · have hstep : migrateCandidate cfg draws k s = .ok (k.enrolled cfg draws s) :=
        migrateCandidate_ok_iff.mpr ⟨hk, rfl⟩
      have hplaced : (∀ l ∈ ks, l.Placed cfg (k.enrolled cfg draws s)) ↔
          ∀ l ∈ ks, l.Placed cfg s :=
        forall₂_congr fun l hl => (hapart l hl).placed
      simp only [migrateCandidates, hstep]
      rw [ih hrest (hk.references hs) (hnew.enrolled hapart), hplaced,
        enrolledAll_cons hapart hrest]
      simp only [hk, true_and]
    · have hstep : ∃ e, migrateCandidate cfg draws k s = .error e := by
        cases hres : migrateCandidate cfg draws k s with
        | error e => exact ⟨e, rfl⟩
        | ok s1 => exact absurd (migrateCandidate_ok_iff.mp hres).1 hk
      obtain ⟨e, he⟩ := hstep
      simp only [migrateCandidates, he, hk, false_and, iff_false]
      exact fun h => nomatch h

end Legacy

end LinkSuffix
