import LinkSuffix.Legacy.Ledger

/-!
# What the updates after the loop read

* `matched_eq_some_iff`: a job matches when its capture has the applied suffix of its record.
* `Setting`: a store before the loop and what the loop leaves of it.
* `Setting.matched_old`: the loop changes no match of a job that was there.
* `Setting.exists_job`: a candidate whose capture can be stored has a job for its suffix.
* **`Setting.marked_iff`**: the targets of which the updates mark a job.
* `Setting.deliveries_cases`: the deliveries the second update chooses from.
-/

namespace LinkSuffix

open Lib

namespace Legacy

open LegacyCandidate

variable {cfg : Config} {pg : Postgres} {draws : Draws} {applied : Fields} {s : Store}
  {ks : List LegacyCandidate} {k : LegacyCandidate} {j : DeliveryJob} {now : Nat}

/-! ## Matches -/

theorem matched_eq_some_iff (hs : s.Unique) {record : String} {c : SuffixCapture} :
    matched pg applied s j = some (record, c) ↔ c ∈ s.captures ∧ c.captureId = j.captureId
      ∧ (∃ t ∈ s.targets, t.targetId = c.targetId ∧ t.campaignRecordId = record)
      ∧ appliedSuffix pg applied record = some c.exactSuffix := by
  unfold matched
  constructor
  · intro h
    cases hc : s.capture? j.captureId with
    | none => simp [hc] at h
    | some d =>
      cases ht : s.target? d.targetId with
      | none => simp [hc, ht] at h
      | some t =>
        simp only [hc, ht] at h
        split at h
        · rename_i hsuffix
          obtain ⟨rfl, rfl⟩ := Prod.mk.inj (Option.some.inj h)
          obtain ⟨hmem, hid⟩ := capture?_some hc
          obtain ⟨htm, hti⟩ := target?_some ht
          exact ⟨hmem, hid, ⟨t, htm, hti, rfl⟩, hsuffix⟩
        · exact absurd h (by simp)
  · rintro ⟨hc, hid, ⟨t, ht, hti, rfl⟩, hsuffix⟩
    rw [(capture?_eq_some_iff hs).mpr ⟨hc, hid⟩]
    simp only [(target?_eq_some_iff hs).mpr ⟨ht, hti⟩, hsuffix, if_true]

/-- A job of a target matches when its capture has the suffix applied for the target's record. -/
theorem matched_of_target (hs : s.Unique) (hcoherent : Coherent cfg s) (hj : j ∈ s.jobs)
    {record : String} {c : SuffixCapture} (h : matched pg applied s j = some (record, c))
    {t : CampaignTarget} (ht : t ∈ s.targets) (hjt : j.targetId = t.targetId) :
    record = t.campaignRecordId ∧ c ∈ s.captures ∧ c.captureId = j.captureId
      ∧ appliedSuffix pg applied t.campaignRecordId = some c.exactSuffix := by
  obtain ⟨hc, hid, ⟨u, hu, huc, rfl⟩, hsuffix⟩ := (matched_eq_some_iff hs).mp h
  have hsame : u.targetId = t.targetId :=
    huc.trans ((hcoherent.capture_of_target j hj c hc hid).trans hjt)
  obtain rfl := key_unique hs.target_key hu ht hsame
  exact ⟨rfl, hc, hid, hsuffix⟩

/-! ## The loop's store -/

/-- A store before the loop, with the draws of a run, and the constraints on what the loop
leaves. -/
structure Setting (cfg : Config) (draws : Draws) (ks : List LegacyCandidate) (s : Store) : Prop
    where
  unique : s.Unique
  references : s.References
  coherent : Coherent cfg s
  fresh : draws.New ks s
  apart : ks.Pairwise (Apart cfg draws)
  unique' : (enrolledAll cfg draws ks s).Unique
  references' : (enrolledAll cfg draws ks s).References
  coherent' : Coherent cfg (enrolledAll cfg draws ks s)

theorem renamedBy_keeps (ks : List LegacyCandidate) (t : CampaignTarget) :
    (renamedBy ks t).targetId = t.targetId
      ∧ (renamedBy ks t).campaignRecordId = t.campaignRecordId
      ∧ (renamedBy ks t).lastAppliedAt = t.lastAppliedAt
      ∧ (renamedBy ks t).lastAppliedSuffixHash = t.lastAppliedSuffixHash := by
  unfold renamedBy rowUpdate
  split
  · exact ⟨rfl, rfl, rfl, rfl⟩
  · exact ⟨rfl, rfl, rfl, rfl⟩

/-- A target row after the loop was there before, or is a new candidate's. -/
theorem mem_enrolledAll_targets {t' : CampaignTarget}
    (ht' : t' ∈ (enrolledAll cfg draws ks s).targets) :
    (∃ t ∈ s.targets, renamedBy ks t = t')
      ∨ ∃ k ∈ ks, k.recorded s = false ∧ t' = k.row cfg := by
  rcases List.mem_append.mp ht' with ht' | ht'
  · exact Or.inl (List.mem_map.mp ht')
  · obtain ⟨k, hk, ht'⟩ := List.mem_flatMap.mp ht'
    rcases newTargets_cases cfg k s with ⟨-, hnew⟩ | ⟨hrecorded, hnew⟩
    · exact absurd ht' (by simp [hnew])
    · exact Or.inr ⟨k, hk, hrecorded, List.mem_singleton.mp (hnew ▸ ht')⟩

theorem renamedBy_mem {t : CampaignTarget} (ht : t ∈ s.targets) :
    renamedBy ks t ∈ (enrolledAll cfg draws ks s).targets :=
  List.mem_append_left _ (List.mem_map_of_mem ht)

theorem row_mem (hk : k ∈ ks) (hrecorded : k.recorded s = false) :
    k.row cfg ∈ (enrolledAll cfg draws ks s).targets := by
  refine List.mem_append_right _ (List.mem_flatMap.mpr ⟨k, hk, ?_⟩)
  simp [newTargets, hrecorded]

/-- A capture after the loop was there before, or is a candidate's. -/
theorem mem_enrolledAll_captures {c : SuffixCapture}
    (hc : c ∈ (enrolledAll cfg draws ks s).captures) : c ∈ s.captures ∨ ∃ k ∈ ks,
      (∀ d ∈ s.captures, k.collides cfg draws d = false)
        ∧ c = k.captureRow cfg (draws.nextval k) draws.now := by
  rcases List.mem_append.mp hc with hc | hc
  · exact Or.inl hc
  · obtain ⟨k, hk, hc⟩ := List.mem_flatMap.mp hc
    rcases newCaptures_cases cfg draws k s with hnew | ⟨-, hfree, hnew⟩
    · exact absurd hc (by simp [hnew])
    · exact Or.inr ⟨k, hk, hfree, List.mem_singleton.mp (hnew ▸ hc)⟩

/-- The capture a candidate's job is for is there after the loop. -/
theorem captureId_mem_all (hk : k ∈ ks) {id : Nat} (h : k.captureId cfg draws s = some id) :
    ∃ c ∈ (enrolledAll cfg draws ks s).captures, c.captureId = id
      ∧ c.targetId = k.targetId cfg ∧ c.suffixHash = cfg.digest k.suffix := by
  obtain ⟨c, hc, hrest⟩ := captureId_mem h
  refine ⟨c, ?_, hrest⟩
  rcases List.mem_append.mp hc with hc | hc
  · exact List.mem_append_left _ hc
  · exact List.mem_append_right _ (List.mem_flatMap.mpr ⟨k, hk, hc⟩)

/-- A job after the loop was there before, or is new for a candidate. -/
theorem mem_enrolledAll_jobs (hj : j ∈ (enrolledAll cfg draws ks s).jobs) :
    j ∈ s.jobs ∨ ∃ k ∈ ks, ∃ id, k.captureId cfg draws s = some id
      ∧ j = newJob (draws.randomUUID k) (k.targetId cfg) id draws.now := by
  rcases List.mem_append.mp hj with hj | hj
  · exact Or.inl hj
  · obtain ⟨k, hk, hj⟩ := List.mem_flatMap.mp hj
    rcases newJobs_cases cfg draws k s with hnew | ⟨id, hid, -, hnew⟩
    · exact absurd hj (by simp [hnew])
    · exact Or.inr ⟨k, hk, id, hid, List.mem_singleton.mp (hnew ▸ hj)⟩

/-- The suffix of a candidate can be stored: its target has a capture of it, or no capture with its
version. -/
def Storable (cfg : Config) (k : LegacyCandidate) (s : Store) : Prop :=
  (∃ c ∈ s.captures, c.targetId = k.targetId cfg ∧ c.exactSuffix = k.suffix)
    ∨ ∀ c ∈ s.captures, c.targetId = k.targetId cfg → c.version ≠ k.storedVersion

namespace Setting

variable (h : Setting cfg draws ks s)
include h

/-- The row of a target after the loop has the record it had. -/
theorem record_of {t t' : CampaignTarget} (ht : t ∈ s.targets)
    (ht' : t' ∈ (enrolledAll cfg draws ks s).targets) (hid : t'.targetId = t.targetId) :
    t' = renamedBy ks t := by
  refine key_unique h.unique'.target_key ht' (renamedBy_mem ht) ?_
  exact hid.trans (renamedBy_keeps ks t).1.symm

/-- **The loop changes no match of a job that was there.** -/
theorem matched_old (hj : j ∈ s.jobs) :
    matched pg applied (enrolledAll cfg draws ks s) j = matched pg applied s j := by
  refine Option.ext fun ⟨record, c⟩ => ?_
  rw [matched_eq_some_iff h.unique', matched_eq_some_iff h.unique]
  constructor
  · rintro ⟨hc, hid, ⟨t', ht', hct, hrecord⟩, hsuffix⟩
    obtain ⟨d, hd, hdid⟩ := List.mem_map.mp (h.references.job_capture j hj)
    obtain rfl : d = c := key_unique h.unique'.capture_key (List.mem_append_left _ hd) hc
      (hdid.trans hid.symm)
    obtain ⟨t, ht, htd⟩ := List.mem_map.mp (h.references.capture_target d hd)
    have hrow := h.record_of ht ht' (hct.trans htd.symm)
    refine ⟨hd, hid, ⟨t, ht, htd, ?_⟩, hsuffix⟩
    rw [← hrecord, hrow, (renamedBy_keeps ks t).2.1]
  · rintro ⟨hc, hid, ⟨t, ht, hct, hrecord⟩, hsuffix⟩
    obtain ⟨hkey, hrec, -⟩ := renamedBy_keeps ks t
    exact ⟨List.mem_append_left _ hc, hid,
      ⟨renamedBy ks t, renamedBy_mem ht, hkey.trans hct, hrec.trans hrecord⟩, hsuffix⟩

/-- A capture found by the hash of a suffix has the suffix. -/
theorem suffix_of_hash (hdigest : Function.Injective cfg.digest) {c : SuffixCapture}
    (hc : c ∈ (enrolledAll cfg draws ks s).captures) (hhash : c.suffixHash = cfg.digest k.suffix) :
    c.exactSuffix = k.suffix :=
  hdigest ((h.coherent'.capture_hash c hc).symm.trans hhash)

/-- A candidate whose suffix can be stored has a capture to queue. -/
theorem captureId_isSome (hk : k ∈ ks)
    (hstorable : Storable cfg k s) : ∃ id, k.captureId cfg draws s = some id := by
  unfold captureId
  cases hpick : draws.captureOrder.pick (k.captures cfg s) with
  | some c => exact ⟨c.captureId, rfl⟩
  | none =>
    have hnone := draws.captureOrder.pick_eq_none.mp hpick
    have hfree : s.captures.any (k.collides cfg draws) = false := by
      refine List.any_eq_false.mpr fun c hc => ?_
      rw [Bool.not_eq_true, collides_eq_false]
      refine ⟨h.fresh.captures k hk c hc, fun ⟨ht, hv⟩ => ?_⟩
      rcases hstorable with ⟨d, hd, hdt, hds⟩ | hversions
      · have hmem : d ∈ k.captures cfg s :=
          mem_captures.mpr ⟨hd, hdt, by rw [h.coherent.capture_hash d hd, hds]⟩
        exact absurd hmem (by simp [hnone])
      · exact hversions c hc ht hv
    exact ⟨draws.nextval k, by simp [hfree]⟩

/-- A candidate with a capture has a job for it after the loop. -/
theorem exists_job (hk : k ∈ ks) {id : Nat} (hid : k.captureId cfg draws s = some id) :
    ∃ j ∈ (enrolledAll cfg draws ks s).jobs, j.targetId = k.targetId cfg ∧ j.captureId = id := by
  by_cases hrepeats : s.jobs.any (k.repeats cfg draws id) = true
  · obtain ⟨j, hj, hrep⟩ := List.any_eq_true.mp hrepeats
    simp only [repeats, Bool.or_eq_true, Bool.and_eq_true, decide_eq_true_eq] at hrep
    obtain ⟨htarget, hcapture⟩ := hrep.resolve_left (h.fresh.jobs k hk j hj)
    exact ⟨j, List.mem_append_left _ hj, htarget, hcapture⟩
  · refine ⟨newJob (draws.randomUUID k) (k.targetId cfg) id draws.now, ?_, rfl, rfl⟩
    refine List.mem_append_right _ (List.mem_flatMap.mpr ⟨k, hk, ?_⟩)
    simp [newJobs, hid, hrepeats]

/-- After the loop a candidate's suffix is a capture of its target when it could be stored. -/
theorem captured_iff (hdigest : Function.Injective cfg.digest) (hk : k ∈ ks) :
    (∃ c ∈ (enrolledAll cfg draws ks s).captures, c.targetId = k.targetId cfg
      ∧ c.exactSuffix = k.suffix) ↔ Storable cfg k s := by
  constructor
  · rintro ⟨c, hc, htarget, hsuffix⟩
    rcases mem_enrolledAll_captures hc with hold | ⟨l, hl, hfree, rfl⟩
    · exact Or.inl ⟨c, hold, htarget, hsuffix⟩
    · -- No other candidate has this target.
      have htargets : (ks.map (LegacyCandidate.targetId cfg)).Nodup :=
        List.pairwise_map.mpr (h.apart.imp fun hapart => hapart.target)
      obtain rfl := key_unique htargets hl hk htarget
      exact Or.inr fun d hd ht hv => (collides_eq_false.mp (hfree d hd)).2 ⟨ht, hv⟩
  · intro hstorable
    obtain ⟨id, hid⟩ := h.captureId_isSome hk hstorable
    obtain ⟨c, hc, -, htarget, hhash⟩ := captureId_mem_all hk hid
    exact ⟨c, hc, htarget, h.suffix_of_hash hdigest hc hhash⟩

end Setting

/-! ## Marked targets -/

/-- The applied suffix of the record is that of a capture with a job of the target, or of a
candidate for the target. -/
def Marked (cfg : Config) (pg : Postgres) (applied : Fields) (ks : List LegacyCandidate) (s : Store)
    (targetId campaignRecordId : String) : Prop :=
  (∃ j ∈ s.jobs, j.targetId = targetId ∧ (matched pg applied s j).isSome = true)
    ∨ ∃ k ∈ ks, k.targetId cfg = targetId
      ∧ appliedSuffix pg applied campaignRecordId = some k.suffix

/-- The deliveries of a target that the migration does not mark. -/
def otherDeliveries (pg : Postgres) (applied : Fields) (s : Store) (targetId : String) :
    List DeliveryJob :=
  (deliveries s targetId).filter fun j => (matched pg applied s j).isNone

/-- The store between the two updates. -/
def markedStore (cfg : Config) (pg : Postgres) (applied : Fields) (draws : Draws)
    (ks : List LegacyCandidate) (s : Store) : Store :=
  { enrolledAll cfg draws ks s with
    jobs := (enrolledAll cfg draws ks s).jobs.map
      (markedRow pg applied draws.now (enrolledAll cfg draws ks s)) }

theorem mem_otherDeliveries {targetId : String} : j ∈ otherDeliveries pg applied s targetId ↔
    j ∈ deliveries s targetId ∧ matched pg applied s j = none := by
  simp [otherDeliveries]

namespace Setting

variable (h : Setting cfg draws ks s)
include h

/-- **The targets of which the first update marks a job.** -/
theorem marked_iff (hdigest : Function.Injective cfg.digest)
    (hstorable : ∀ k ∈ ks, Storable cfg k s) {t : CampaignTarget}
    (ht : t ∈ (enrolledAll cfg draws ks s).targets) :
    (∃ j ∈ (enrolledAll cfg draws ks s).jobs, j.targetId = t.targetId
      ∧ (matched pg applied (enrolledAll cfg draws ks s) j).isSome = true)
    ↔ Marked cfg pg applied ks s t.targetId t.campaignRecordId := by
  constructor
  · rintro ⟨j, hj, hjt, hmatched⟩
    rcases mem_enrolledAll_jobs hj with hold | ⟨k, hk, id, hid, rfl⟩
    · exact Or.inl ⟨j, hold, hjt, h.matched_old hold ▸ hmatched⟩
    · obtain ⟨⟨record, c⟩, hc⟩ := Option.isSome_iff_exists.mp hmatched
      obtain ⟨-, hcm, hcid, hsuffix⟩ := matched_of_target h.unique' h.coherent' hj hc ht hjt
      obtain ⟨d, hd, hdid, -, hhash⟩ := captureId_mem_all hk hid
      obtain rfl : c = d := key_unique h.unique'.capture_key hcm hd (hcid.trans hdid.symm)
      rw [h.suffix_of_hash hdigest hd hhash] at hsuffix
      exact Or.inr ⟨k, hk, hjt, hsuffix⟩
  · rintro (⟨j, hj, hjt, hmatched⟩ | ⟨k, hk, hkt, hsuffix⟩)
    · exact ⟨j, List.mem_append_left _ hj, hjt, h.matched_old hj ▸ hmatched⟩
    · obtain ⟨id, hid⟩ := h.captureId_isSome hk (hstorable k hk)
      obtain ⟨j, hj, hjt, hjc⟩ := h.exists_job hk hid
      obtain ⟨c, hc, hcid, hct, hhash⟩ := captureId_mem_all hk hid
      rw [← h.suffix_of_hash hdigest hc hhash] at hsuffix
      refine ⟨j, hj, hjt.trans hkt, Option.isSome_iff_exists.mpr ⟨(t.campaignRecordId, c), ?_⟩⟩
      exact (matched_eq_some_iff h.unique').mpr ⟨hc, hcid.trans hjc.symm,
        ⟨t, ht, hkt.symm.trans hct.symm, rfl⟩, hsuffix⟩

/-- **The deliveries the second update chooses from**: those the first leaves alone, and the jobs
it marks. -/
theorem deliveries_cases {targetId : String} {i : DeliveryJob} :
    i ∈ deliveries (markedStore cfg pg applied draws ks s) targetId ↔
      i ∈ otherDeliveries pg applied s targetId
      ∨ ∃ j ∈ (enrolledAll cfg draws ks s).jobs, j.targetId = targetId ∧ ∃ record c,
        matched pg applied (enrolledAll cfg draws ks s) j = some (record, c)
        ∧ i = mark ((verifiedAt pg applied draws.now record).getD draws.now) c.suffixHash j := by
  rw [mem_deliveries, mem_otherDeliveries, mem_deliveries]
  constructor
  · rintro ⟨hi, htarget, hstate, hdate⟩
    obtain ⟨j, hj, rfl⟩ := List.mem_map.mp hi
    rw [(markedRow_keys _ _ _ _ _).2.1] at htarget
    cases hmatched : matched pg applied (enrolledAll cfg draws ks s) j with
    | none =>
      have hsame : markedRow pg applied draws.now (enrolledAll cfg draws ks s) j = j := by
        simp only [markedRow, hmatched]
      rw [hsame] at hstate hdate ⊢
      rcases mem_enrolledAll_jobs hj with hold | ⟨k, hk, id, hid, rfl⟩
      · exact Or.inl ⟨⟨hold, htarget, hstate, hdate⟩, h.matched_old hold ▸ hmatched⟩
      · exact absurd hstate (by simp [newJob])
    | some p =>
      refine Or.inr ⟨j, hj, htarget, p.1, p.2, hmatched, ?_⟩
      simp only [markedRow, hmatched]
  · rintro (⟨⟨hi, htarget, hstate, hdate⟩, hnone⟩ | ⟨j, hj, htarget, record, c, hmatched, rfl⟩)
    · refine ⟨List.mem_map.mpr ⟨i, List.mem_append_left _ hi, ?_⟩, htarget, hstate, hdate⟩
      rw [← h.matched_old hi] at hnone
      simp only [markedRow, hnone]
    · refine ⟨List.mem_map.mpr ⟨j, hj, ?_⟩, htarget, rfl, by simp [mark]⟩
      simp only [markedRow, hmatched]

end Setting

end Legacy

end LinkSuffix
