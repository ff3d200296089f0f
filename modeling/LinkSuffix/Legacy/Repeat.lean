import LinkSuffix.Legacy.Marks

/-!
# Running the legacy migration again

* `Spares`: what a repeated run must leave alone; `Harmless`: it commits and spares the store,
  whichever of several rows with equal dates PostgreSQL takes.
* `Repeatable`: what the store must be like for that, before the run.
* `latest_iff`: when no recorded delivery moves back.
* **`repeated_iff`**: a repeated run is harmless exactly on the repeatable stores.
-/

namespace LinkSuffix

open Lib

namespace Legacy

open LegacyCandidate

/-! ## A harmless run -/

/-- A hash is that of a delivery before the time, and of none since. -/
structure Stale (s : Store) (targetId : String) (time : Nat) (hash : Option String) : Prop where
  before : ∃ j ∈ deliveries s targetId, deliveredAt j < time ∧ j.verifiedSuffixHash = hash
  since : ∀ j ∈ deliveries s targetId, time ≤ deliveredAt j → j.verifiedSuffixHash ≠ hash

/-- The recorded delivery `u` has of the target is older than that of `t`. -/
def MovedBack (s : Store) (t u : CampaignTarget) : Prop :=
  ∃ a, t.lastAppliedAt = some a ∧ ((∀ b, u.lastAppliedAt = some b → b < a)
    ∨ Stale s t.targetId a u.lastAppliedSuffixHash)

/-- `leased`, `failed`, `dead` or `superseded`. -/
def settled (state : JobState) : Bool :=
  match state with
  | .leased | .failed | .dead | .superseded => true
  | .pending | .applied => false

/-- What a run must leave alone, and that it stores every candidate's suffix. -/
structure Spares (cfg : Config) (ks : List LegacyCandidate) (s s' : Store) : Prop where
  jobs : ∀ j ∈ s.jobs, settled j.state = true → j ∈ s'.jobs
  shards : ∀ t ∈ s.targets, ∀ u ∈ s'.targets, u.targetId = t.targetId → u.shardId = t.shardId
  latest : ∀ t ∈ s.targets, ∀ u ∈ s'.targets, u.targetId = t.targetId → ¬MovedBack s t u
  captures : ∀ k ∈ ks, ∃ c ∈ s'.captures, c.targetId = k.targetId cfg ∧ c.exactSuffix = k.suffix

/-- The draws with another order of rows with equal dates. -/
def Draws.ordered (draws : Draws) (captureOrder : Latest SuffixCapture.capturedAt)
    (jobOrder : Latest deliveredAt) : Draws :=
  { draws with captureOrder := captureOrder, jobOrder := jobOrder }

/-- The run commits and spares the store, in whatever order rows with equal dates come. -/
def Harmless (cfg : Config) (pg : Postgres) (sources : LegacySources) (draws : Draws)
    (d : Database) : Prop :=
  ∀ captureOrder jobOrder, ∃ d' : Database,
    transaction (migrate cfg pg sources (draws.ordered captureOrder jobOrder)) d = .ok ((), d')
      ∧ Spares cfg sources.candidates d.store d'.store

/-! ## The condition -/

section Condition

variable (cfg : Config) (pg : Postgres) (applied : Fields) (ks : List LegacyCandidate) (now : Nat)
  (s : Store)

/-- A mark for the target is not older than its recorded delivery, or another delivery is as recent;
and where the mark is the latest of all, its suffix has not been replaced since it was delivered. -/
def LatestKept (t : CampaignTarget) : Prop :=
  ∀ a v suffix, t.lastAppliedAt = some a →
    Marked cfg pg applied ks s t.targetId t.campaignRecordId →
    appliedSuffix pg applied t.campaignRecordId = some suffix →
    verifiedAt pg applied now t.campaignRecordId = some v →
    (a ≤ v ∨ ∃ j ∈ otherDeliveries pg applied s t.targetId, a ≤ deliveredAt j)
      ∧ ((∀ j ∈ otherDeliveries pg applied s t.targetId, deliveredAt j ≤ v) →
        ¬Stale s t.targetId a (some (cfg.digest suffix)))

/-- What a store must be like for a harmless run. -/
structure Repeatable : Prop where
  placed : ∀ k ∈ ks, k.Placed cfg s
  castable : ∀ t ∈ s.targets, Marked cfg pg applied ks s t.targetId t.campaignRecordId →
    verifiedAt pg applied now t.campaignRecordId ≠ none
  castable_new : ∀ k ∈ ks, k.recorded s = false →
    Marked cfg pg applied ks s (k.targetId cfg) k.campaignRecordId →
    verifiedAt pg applied now k.campaignRecordId ≠ none
  unsettled : ∀ j ∈ s.jobs, (matched pg applied s j).isSome = true → settled j.state = false
  shards : ∀ k ∈ ks, ∀ t ∈ s.targets, t.campaignRecordId = k.campaignRecordId →
    t.shardId = k.shardId
  latest : ∀ t ∈ s.targets, LatestKept cfg pg applied ks now s t
  storable : ∀ k ∈ ks, Storable cfg k s

end Condition

variable {cfg : Config} {pg : Postgres} {sources : LegacySources} {draws : Draws}
  {applied : Fields} {s : Store} {ks : List LegacyCandidate} {t u : CampaignTarget}
  {j : DeliveryJob}

/-! ## Part by part -/

theorem latestRow_keeps (order : Latest deliveredAt) (s : Store) (t : CampaignTarget) :
    (latestRow order s t).targetId = t.targetId ∧ (latestRow order s t).shardId = t.shardId := by
  unfold latestRow
  cases order.pick (deliveries s t.targetId) with
  | none => exact ⟨rfl, rfl⟩
  | some q => exact ⟨rfl, rfl⟩

/-- The recorded delivery after the second update. -/
theorem latestRow_of_pick {order : Latest deliveredAt} {q : DeliveryJob} (s : Store)
    (hpick : order.pick (deliveries s t.targetId) = some q) :
    (latestRow order s t).lastAppliedAt = some (deliveredAt q)
      ∧ (latestRow order s t).lastAppliedSuffixHash = q.verifiedSuffixHash := by
  have hdate := (mem_deliveries.mp (order.pick_latest hpick).mem).2.2.2
  obtain ⟨d, hd⟩ := Option.ne_none_iff_exists'.mp hdate
  simp only [latestRow, hpick]
  exact ⟨by simp [deliveredAt, hd], trivial⟩

namespace Setting

variable (h : Setting cfg draws ks s)
include h

/-- A job the first update marks has the date and the hash of the applied value. -/
theorem marked_delivery (ht : t ∈ s.targets) (hj : j ∈ (enrolledAll cfg draws ks s).jobs)
    (hjt : j.targetId = t.targetId) {record : String} {c : SuffixCapture}
    (hc : matched pg applied (enrolledAll cfg draws ks s) j = some (record, c)) :
    record = t.campaignRecordId
      ∧ appliedSuffix pg applied t.campaignRecordId = some c.exactSuffix
      ∧ c.suffixHash = cfg.digest c.exactSuffix := by
  obtain ⟨hkey, hrecord, -⟩ := renamedBy_keeps ks t
  obtain ⟨hrec, hcm, -, hsuffix⟩ := matched_of_target h.unique' h.coherent' hj hc
    (renamedBy_mem ht) (hjt.trans hkey.symm)
  rw [hrecord] at hrec hsuffix
  exact ⟨hrec, hsuffix, h.coherent'.capture_hash c hcm⟩

/-- The casts succeed when every marked target has a date. -/
theorem castable_iff (hdigest : Function.Injective cfg.digest)
    (hstorable : ∀ k ∈ ks, Storable cfg k s) :
    Castable pg applied draws.now (enrolledAll cfg draws ks s) ↔
      (∀ t ∈ s.targets, Marked cfg pg applied ks s t.targetId t.campaignRecordId →
        verifiedAt pg applied draws.now t.campaignRecordId ≠ none)
      ∧ ∀ k ∈ ks, k.recorded s = false →
        Marked cfg pg applied ks s (k.targetId cfg) k.campaignRecordId →
        verifiedAt pg applied draws.now k.campaignRecordId ≠ none := by
  have hrow : ∀ t' ∈ (enrolledAll cfg draws ks s).targets,
      (∀ j ∈ (enrolledAll cfg draws ks s).jobs, j.targetId = t'.targetId → ∀ record c,
        matched pg applied (enrolledAll cfg draws ks s) j = some (record, c) →
        verifiedAt pg applied draws.now record ≠ none) ↔
      (Marked cfg pg applied ks s t'.targetId t'.campaignRecordId →
        verifiedAt pg applied draws.now t'.campaignRecordId ≠ none) := by
    intro t' ht'
    rw [← h.marked_iff hdigest hstorable ht']
    constructor
    · rintro hcast ⟨j, hj, hjt, hmatched⟩
      obtain ⟨⟨record, c⟩, hc⟩ := Option.isSome_iff_exists.mp hmatched
      obtain ⟨rfl, -⟩ := matched_of_target h.unique' h.coherent' hj hc ht' hjt
      exact hcast j hj hjt _ c hc
    · intro hcast j hj hjt record c hc
      obtain ⟨rfl, -⟩ := matched_of_target h.unique' h.coherent' hj hc ht' hjt
      exact hcast ⟨j, hj, hjt, by rw [hc]; rfl⟩
  constructor
  · intro hcast
    refine ⟨fun t ht => ?_, fun k hk hrecorded => ?_⟩
    · obtain ⟨hkey, hrecord, -⟩ := renamedBy_keeps ks t
      have hmine := (hrow _ (renamedBy_mem ht)).mp fun j hj _ => hcast j hj
      rwa [hkey, hrecord] at hmine
    · exact (hrow _ (row_mem hk hrecorded)).mp fun j hj _ => hcast j hj
  · rintro ⟨hold, hnew⟩ j hj record c hc
    obtain ⟨t', ht', hjt⟩ := List.mem_map.mp (h.references'.job_target j hj)
    refine (hrow t' ht').mpr ?_ j hj hjt.symm record c hc
    rcases mem_enrolledAll_targets ht' with ⟨t, ht, rfl⟩ | ⟨k, hk, hrecorded, rfl⟩
    · obtain ⟨hkey, hrecord, -⟩ := renamedBy_keeps ks t
      rw [hkey, hrecord]
      exact hold t ht
    · exact hnew k hk hrecorded

/-- A job is spared unless it is marked. -/
theorem spared_iff (hj : j ∈ s.jobs) (hsettled : settled j.state = true) :
    j ∈ (markedStore cfg pg applied draws ks s).jobs ↔ matched pg applied s j = none := by
  rw [← h.matched_old hj]
  constructor
  · intro hmem
    obtain ⟨i, hi, hrow⟩ := List.mem_map.mp hmem
    have hid := (markedRow_keys pg applied draws.now (enrolledAll cfg draws ks s) i).1
    rw [hrow] at hid
    obtain rfl := key_unique h.unique'.job_key hi (List.mem_append_left _ hj) hid.symm
    cases hmatched : matched pg applied (enrolledAll cfg draws ks s) i with
    | none => rfl
    | some p =>
      -- A mark leaves the job applied.
      have happlied : i.state = .applied := by
        rw [← hrow]
        simp only [markedRow, hmatched]
        rfl
      rw [happlied] at hsettled
      exact absurd hsettled (by decide)
  · intro hnone
    refine List.mem_map.mpr ⟨j, List.mem_append_left _ hj, ?_⟩
    simp only [markedRow, hnone]

/-- A marked target has a delivery with the date and the hash of the applied value. -/
theorem exists_marked (hdigest : Function.Injective cfg.digest)
    (hstorable : ∀ k ∈ ks, Storable cfg k s) (ht : t ∈ s.targets)
    (hmarked : Marked cfg pg applied ks s t.targetId t.campaignRecordId) {v : Nat}
    (hv : verifiedAt pg applied draws.now t.campaignRecordId = some v) :
    ∃ suffix, appliedSuffix pg applied t.campaignRecordId = some suffix
      ∧ ∃ i ∈ deliveries (markedStore cfg pg applied draws ks s) t.targetId,
        deliveredAt i = v ∧ i.verifiedSuffixHash = some (cfg.digest suffix) := by
  obtain ⟨hkey, hrecord, -⟩ := renamedBy_keeps ks t
  rw [← hkey, ← hrecord] at hmarked
  obtain ⟨j, hj, hjt, hm⟩ := (h.marked_iff hdigest hstorable (renamedBy_mem ht)).mpr hmarked
  rw [hkey] at hjt
  obtain ⟨⟨record, c⟩, hc⟩ := Option.isSome_iff_exists.mp hm
  obtain ⟨rfl, hsuffix, hhash⟩ := h.marked_delivery ht hj hjt hc
  refine ⟨c.exactSuffix, hsuffix, _, h.deliveries_cases.mpr
    (Or.inr ⟨j, hj, hjt, _, c, hc, rfl⟩), ?_, ?_⟩
  · rw [hv]
    rfl
  · rw [← hhash]
    rfl

/-- A delivery the second update chooses from is one of before that is not marked, or has the date
and the hash of the applied value. -/
theorem delivery_cases (hdigest : Function.Injective cfg.digest)
    (hstorable : ∀ k ∈ ks, Storable cfg k s) (ht : t ∈ s.targets)
    {i : DeliveryJob} (hi : i ∈ deliveries (markedStore cfg pg applied draws ks s) t.targetId) :
    i ∈ otherDeliveries pg applied s t.targetId ∨
      (Marked cfg pg applied ks s t.targetId t.campaignRecordId ∧ ∃ suffix,
        appliedSuffix pg applied t.campaignRecordId = some suffix
        ∧ deliveredAt i = (verifiedAt pg applied draws.now t.campaignRecordId).getD draws.now
        ∧ i.verifiedSuffixHash = some (cfg.digest suffix)) := by
  rcases h.deliveries_cases.mp hi with hother | ⟨j, hj, hjt, record, c, hc, rfl⟩
  · exact Or.inl hother
  · obtain ⟨hkey, hrecord, -⟩ := renamedBy_keeps ks t
    have hmarked : Marked cfg pg applied ks s (renamedBy ks t).targetId
        (renamedBy ks t).campaignRecordId :=
      (h.marked_iff hdigest hstorable (renamedBy_mem ht)).mp
        ⟨j, hj, hjt.trans hkey.symm, by rw [hc]; rfl⟩
    rw [hkey, hrecord] at hmarked
    obtain ⟨rfl, hsuffix, hhash⟩ := h.marked_delivery ht hj hjt hc
    exact Or.inr ⟨hmarked, c.exactSuffix, hsuffix, rfl, by rw [← hhash]; rfl⟩

/-- The recorded delivery of a target that is not marked is one the second update chooses from. -/
theorem recorded_delivery (ht : t ∈ s.targets) {a : Nat} (hlast : t.lastAppliedAt = some a)
    (hmarked : ¬Marked cfg pg applied ks s t.targetId t.campaignRecordId) :
    ∃ w ∈ otherDeliveries pg applied s t.targetId, deliveredAt w = a := by
  obtain ⟨w, hw, hwt, hstate, hdate, -⟩ := h.coherent.delivered t ht (by simp [hlast])
  have hdelivery : w ∈ deliveries s t.targetId :=
    mem_deliveries.mpr ⟨hw, hwt, hstate, by simp [hdate, hlast]⟩
  have hnone : matched pg applied s w = none := by
    by_contra hne
    exact hmarked (Or.inl ⟨w, hw, hwt, Option.isSome_iff_ne_none.mpr hne⟩)
  exact ⟨w, mem_otherDeliveries.mpr ⟨hdelivery, hnone⟩, by simp [deliveredAt, hdate, hlast]⟩

/-- The delivery recorded by the second update is not older, when the condition holds. -/
theorem kept_of_pick (hdigest : Function.Injective cfg.digest)
    (hstorable : ∀ k ∈ ks, Storable cfg k s) (ht : t ∈ s.targets)
    (hcast : Marked cfg pg applied ks s t.targetId t.campaignRecordId →
      verifiedAt pg applied draws.now t.campaignRecordId ≠ none)
    (hkept : LatestKept cfg pg applied ks draws.now s t) {a : Nat}
    (hlast : t.lastAppliedAt = some a) {q : DeliveryJob}
    (hq : IsLatest deliveredAt
      (deliveries (markedStore cfg pg applied draws ks s) t.targetId) q) :
    a ≤ deliveredAt q ∧ ¬Stale s t.targetId a q.verifiedSuffixHash := by
  have hothers : ∀ i ∈ otherDeliveries pg applied s t.targetId, deliveredAt i ≤ deliveredAt q :=
    fun i hi => hq.le i (h.deliveries_cases.mpr (Or.inl hi))
  have hdate : a ≤ deliveredAt q := by
    by_cases hmarked : Marked cfg pg applied ks s t.targetId t.campaignRecordId
    · obtain ⟨v, hv⟩ := Option.ne_none_iff_exists'.mp (hcast hmarked)
      obtain ⟨suffix, hsuffix, i, hi, hiv, -⟩ := h.exists_marked hdigest hstorable ht hmarked hv
      rcases (hkept a v suffix hlast hmarked hsuffix hv).1 with hav | ⟨i, hi, hai⟩
      · exact hav.trans (hiv ▸ hq.le i hi)
      · exact hai.trans (hothers i hi)
    · obtain ⟨w, hw, hwa⟩ := h.recorded_delivery ht hlast hmarked
      exact hwa ▸ hothers w hw
  refine ⟨hdate, ?_⟩
  rcases h.delivery_cases hdigest hstorable ht hq.mem with hother | ⟨hmarked, suffix, hsuffix,
    hqv, hhash⟩
  · exact fun hstale => hstale.since q (mem_otherDeliveries.mp hother).1 hdate rfl
  · obtain ⟨v, hv⟩ := Option.ne_none_iff_exists'.mp (hcast hmarked)
    rw [hv, Option.getD_some] at hqv
    rw [hhash]
    exact (hkept a v suffix hlast hmarked hsuffix hv).2 fun i hi => hqv ▸ hothers i hi

/-- **No recorded delivery moves back, in any order of rows with equal dates**, exactly under the
condition on the target. -/
theorem latest_iff (hdigest : Function.Injective cfg.digest)
    (hstorable : ∀ k ∈ ks, Storable cfg k s) (ht : t ∈ s.targets)
    (hcast : Marked cfg pg applied ks s t.targetId t.campaignRecordId →
      verifiedAt pg applied draws.now t.campaignRecordId ≠ none) :
    (∀ order : Latest deliveredAt,
      ¬MovedBack s t (latestRow order (markedStore cfg pg applied draws ks s) (renamedBy ks t)))
    ↔ LatestKept cfg pg applied ks draws.now s t := by
  have hkey := (renamedBy_keeps ks t).1
  constructor
  · intro hkept a v suffix hlast hmarked hsuffix hv
    obtain ⟨suffix', hsuffix', i, hi, hiv, hih⟩ := h.exists_marked hdigest hstorable ht hmarked hv
    obtain rfl := Option.some.inj (hsuffix.symm.trans hsuffix')
    refine ⟨?_, fun hmax hstale => ?_⟩
    · by_contra hnot
      push Not at hnot
      obtain ⟨q, hpick, hq⟩ := (Latest.first deliveredAt).exists_of_mem hi
      have hqa : deliveredAt q < a := by
        rcases h.delivery_cases hdigest hstorable ht hq.mem with hother | ⟨-, -, -, hqv, -⟩
        · exact hnot.2 q hother
        · rw [hqv, hv]
          exact hnot.1
      rw [← hkey] at hpick
      refine hkept (Latest.first deliveredAt) ⟨a, hlast, Or.inl fun b hb => ?_⟩
      rw [(latestRow_of_pick _ hpick).1] at hb
      exact Option.some.inj hb ▸ hqa
    · have hlatest : IsLatest deliveredAt
          (deliveries (markedStore cfg pg applied draws ks s) t.targetId) i := by
        refine ⟨hi, fun q hq => ?_⟩
        rcases h.delivery_cases hdigest hstorable ht hq with hother | ⟨-, -, -, hqv, -⟩
        · exact hiv ▸ hmax q hother
        · rw [hqv, hv, hiv]
          exact le_refl v
      obtain ⟨order, hpick⟩ := Latest.exists_pick hlatest
      rw [← hkey] at hpick
      refine hkept order ⟨a, hlast, Or.inr ?_⟩
      rw [(latestRow_of_pick _ hpick).2, hih]
      exact hstale
  · rintro hkept order ⟨a, hlast, hback⟩
    have hsome : ∃ i, i ∈ deliveries (markedStore cfg pg applied draws ks s) t.targetId := by
      by_cases hmarked : Marked cfg pg applied ks s t.targetId t.campaignRecordId
      · obtain ⟨v, hv⟩ := Option.ne_none_iff_exists'.mp (hcast hmarked)
        obtain ⟨-, -, i, hi, -⟩ := h.exists_marked hdigest hstorable ht hmarked hv
        exact ⟨i, hi⟩
      · obtain ⟨w, hw, -⟩ := h.recorded_delivery ht hlast hmarked
        exact ⟨w, h.deliveries_cases.mpr (Or.inl hw)⟩
    obtain ⟨i, hi⟩ := hsome
    obtain ⟨q, hpick, hq⟩ := order.exists_of_mem hi
    obtain ⟨hdate, hstale⟩ := h.kept_of_pick hdigest hstorable ht hcast hkept hlast hq
    rw [← hkey] at hpick
    obtain ⟨hlast', hhash'⟩ := latestRow_of_pick _ hpick
    rcases hback with hback | hback
    · exact absurd (hback _ hlast') (by omega)
    · exact hstale (hhash' ▸ hback)

/-- The row of a target after the second update. -/
theorem row_after (order : Latest deliveredAt) (ht : t ∈ s.targets)
    (hu : u ∈ (recordLatest order (markedStore cfg pg applied draws ks s)).targets)
    (hut : u.targetId = t.targetId) :
    u = latestRow order (markedStore cfg pg applied draws ks s) (renamedBy ks t) := by
  obtain ⟨t', ht', rfl⟩ := List.mem_map.mp hu
  rw [(latestRow_keeps _ _ _).1] at hut
  rw [h.record_of ht ht' hut]

/-- What the run leaves, part by part. -/
theorem spares_iff (hdigest : Function.Injective cfg.digest) (order : Latest deliveredAt) :
    Spares cfg ks s (recordLatest order (markedStore cfg pg applied draws ks s)) ↔
      (∀ j ∈ s.jobs, (matched pg applied s j).isSome = true → settled j.state = false)
      ∧ (∀ k ∈ ks, ∀ t ∈ s.targets, t.campaignRecordId = k.campaignRecordId →
        t.shardId = k.shardId)
      ∧ (∀ t ∈ s.targets, ¬MovedBack s t
        (latestRow order (markedStore cfg pg applied draws ks s) (renamedBy ks t)))
      ∧ ∀ k ∈ ks, Storable cfg k s := by
  have hrecords : (ks.map (·.campaignRecordId)).Nodup :=
    List.pairwise_map.mpr (h.apart.imp fun hapart => hapart.record)
  have hrow : ∀ t ∈ s.targets,
      latestRow order (markedStore cfg pg applied draws ks s) (renamedBy ks t) ∈
        (recordLatest order (markedStore cfg pg applied draws ks s)).targets :=
    fun t ht => List.mem_map_of_mem (@renamedBy_mem cfg draws s ks t ht)
  have hkeys : ∀ t, (latestRow order (markedStore cfg pg applied draws ks s)
      (renamedBy ks t)).targetId = t.targetId :=
    fun t => (latestRow_keeps _ _ _).1.trans (renamedBy_keeps ks t).1
  constructor
  · intro hspares
    refine ⟨fun j hj hmatched => ?_, fun k hk t ht hrecord => ?_, fun t ht => ?_, fun k hk => ?_⟩
    · by_contra hsettled
      have hnone := (h.spared_iff hj (by simpa using hsettled)).mp
        (hspares.jobs j hj (by simpa using hsettled))
      rw [hnone] at hmatched
      exact absurd hmatched (by simp)
    · rw [← hspares.shards t ht _ (hrow t ht) (hkeys t), (latestRow_keeps _ _ _).2,
        renamedBy_of_mem hrecords hk hrecord.symm]
      rfl
    · exact hspares.latest t ht _ (hrow t ht) (hkeys t)
    · exact (h.captured_iff hdigest hk).mp (hspares.captures k hk)
  · rintro ⟨hjobs, hshards, hlatest, hstorable⟩
    refine ⟨fun j hj hsettled => ?_, fun t ht u hu hut => ?_, fun t ht u hu hut => ?_,
      fun k hk => (h.captured_iff hdigest hk).mpr (hstorable k hk)⟩
    · refine (h.spared_iff hj hsettled).mpr ?_
      by_contra hne
      have hfalse := hjobs j hj (Option.isSome_iff_ne_none.mpr hne)
      rw [hsettled] at hfalse
      exact absurd hfalse (by simp)
    · rw [h.row_after order ht hu hut, (latestRow_keeps _ _ _).2]
      by_cases hmine : ∃ k ∈ ks, k.campaignRecordId = t.campaignRecordId
      · obtain ⟨k, hk, hrecord⟩ := hmine
        rw [renamedBy_of_mem hrecords hk hrecord]
        exact (hshards k hk t ht hrecord.symm).symm
      · rw [renamedBy_of_notMem fun k hk hrecord => hmine ⟨k, hk, hrecord⟩]
    · rw [h.row_after order ht hu hut]
      exact hlatest t ht

end Setting

/-! ## The whole run -/

/-- Placed candidates run through, and the loop leaves a store that meets the constraints. -/
theorem setting_of_placed {d : Database} (hcoherent : Coherent cfg d.store)
    (hnew : draws.New ks d.store) (hapart : ks.Pairwise (Apart cfg draws))
    (hplaced : ∀ k ∈ ks, k.Placed cfg d.store) :
    migrateCandidates cfg draws ks d.store = .ok (enrolledAll cfg draws ks d.store)
      ∧ Setting cfg draws ks d.store := by
  have hloop : migrateCandidates cfg draws ks d.store = .ok (enrolledAll cfg draws ks d.store) :=
    (migrateCandidates_ok_iff hapart d.references hnew).mpr ⟨hplaced, rfl⟩
  have hs := And.intro d.unique (And.intro d.references d.checks)
  obtain ⟨hu, hr, -⟩ := migrateCandidates_constraints hloop hs
  exact ⟨hloop, d.unique, d.references, hcoherent, hnew, hapart, hu, hr,
    coherent_loop hloop hs hcoherent⟩

/-- A run commits when the candidates are placed and the casts succeed, and leaves the two updates
of the loop's store. -/
theorem run_iff {d : Database} (happlied : sources.applied = .ok applied)
    (hnew : draws.New sources.candidates d.store)
    (hapart : sources.candidates.Pairwise (Apart cfg draws)) {P : Store → Prop} :
    (∃ d' : Database, transaction (migrate cfg pg sources draws) d = .ok ((), d') ∧ P d'.store) ↔
      (∀ k ∈ sources.candidates, k.Placed cfg d.store)
      ∧ Castable pg applied draws.now (enrolledAll cfg draws sources.candidates d.store)
      ∧ P (recordLatest draws.jobOrder
        (markedStore cfg pg applied draws sources.candidates d.store)) := by
  have hloop := fun s1 =>
    @migrateCandidates_ok_iff cfg draws d.store s1 sources.candidates hapart d.references hnew
  constructor
  · rintro ⟨d', hrun, hP⟩
    obtain ⟨s1, applied', hs1, happlied', hcast, hstore⟩ :=
      migrate_ok_iff.mp (transaction_ok hrun)
    obtain ⟨hplaced, rfl⟩ := (hloop s1).mp hs1
    obtain rfl := Except.ok.inj (happlied.symm.trans happlied')
    rw [hstore] at hP
    exact ⟨hplaced, hcast, hP⟩
  · rintro ⟨hplaced, hcast, hP⟩
    obtain ⟨d', hstore, hrun⟩ := transaction_migrate (migrate_ok_iff.mpr
      ⟨_, applied, (hloop _).mpr ⟨hplaced, rfl⟩, happlied, hcast, rfl⟩)
    exact ⟨d', hrun, hstore ▸ hP⟩

/-- **A run is harmless exactly on a repeatable store.** -/
theorem harmless_iff (hdigest : Function.Injective cfg.digest) {f : Fleet}
    (happlied : sources.applied = .ok applied) (hcoherent : Coherent cfg f.store)
    (hnew : draws.New sources.candidates f.store)
    (hapart : sources.candidates.Pairwise (Apart cfg draws)) :
    Harmless cfg pg sources draws f.db ↔
      Repeatable cfg pg applied sources.candidates draws.now f.store := by
  have hnew' : ∀ co jo, (draws.ordered co jo).New sources.candidates f.store :=
    fun _ _ => ⟨hnew.captures, hnew.jobs⟩
  have hapart' : ∀ co jo, sources.candidates.Pairwise (Apart cfg (draws.ordered co jo)) :=
    fun _ _ => hapart.imp fun h => ⟨h.record, h.target, h.nextval, h.uuid⟩
  constructor
  · intro hharmless
    have hruns := fun co jo =>
      (run_iff happlied (hnew' co jo) (hapart' co jo)).mp (hharmless co jo)
    obtain ⟨hplaced, hcast, -⟩ := hruns draws.captureOrder draws.jobOrder
    obtain ⟨-, h⟩ := setting_of_placed hcoherent hnew hapart hplaced
    have hspares := fun jo => (h.spares_iff hdigest jo).mp (hruns draws.captureOrder jo).2.2
    obtain ⟨hjobs, hshards, -, hstorable⟩ := hspares draws.jobOrder
    obtain ⟨hold, hfresh⟩ := (h.castable_iff hdigest hstorable).mp hcast
    exact ⟨hplaced, hold, hfresh, hjobs, hshards,
      fun t ht => (h.latest_iff hdigest hstorable ht (hold t ht)).mp
        fun jo => (hspares jo).2.2.1 t ht, hstorable⟩
  · intro hrep co jo
    obtain ⟨-, h⟩ := setting_of_placed hcoherent (hnew' co jo) (hapart' co jo) hrep.placed
    refine (run_iff happlied (hnew' co jo) (hapart' co jo)).mpr ⟨hrep.placed,
      (h.castable_iff hdigest hrep.storable).mpr ⟨hrep.castable, hrep.castable_new⟩,
      (h.spares_iff hdigest jo).mpr ⟨hrep.unsettled, hrep.shards, fun t ht => ?_, hrep.storable⟩⟩
    exact (h.latest_iff hdigest hrep.storable ht (hrep.castable t ht)).mpr (hrep.latest t ht) jo

/-! ## Every repeated run -/

/-- What the sequence and `randomUUID` draw: ids that no row has, and no id twice. -/
structure Draws.Fresh (draws : Draws) (ks : List LegacyCandidate) (s : Store) : Prop
    extends draws.New ks s where
  nextvals : (ks.map draws.nextval).Nodup
  uuids : (ks.map draws.randomUUID).Nodup

theorem LegacySources.Consistent.apart (h : sources.Consistent cfg)
    (hdraws : draws.Fresh sources.candidates s) :
    sources.candidates.Pairwise (Apart cfg draws) := by
  have hrecords := List.pairwise_map.mp h.records
  have htargets := List.pairwise_map.mp h.targets
  have hnextvals := List.pairwise_map.mp hdraws.nextvals
  have huuids := List.pairwise_map.mp hdraws.uuids
  refine ((hrecords.and htargets).and (hnextvals.and huuids)).imp ?_
  rintro k l ⟨⟨hrecord, htarget⟩, hnextval, huuid⟩
  exact ⟨hrecord, htarget, hnextval, huuid⟩

/-- A run that commits could read the applied values. -/
theorem applied_of_commit {f : Fleet}
    (h : (deployment cfg pg).reply f (.migrate sources draws) = .ok ()) :
    ∃ applied, sources.applied = .ok applied := by
  have h : (runMigration cfg pg sources draws f).2 = .ok () := h
  unfold runMigration at h
  cases hrun : transaction (migrate cfg pg sources draws) f.db with
  | error e => simp [hrun] at h
  | ok p =>
    obtain ⟨-, applied, -, happlied, -⟩ := migrate_ok_iff.mp (transaction_ok hrun)
    exact ⟨applied, happlied⟩

/-! ## A target that was enrolled on another shard -/

namespace Sample

/-- Timestamps that are numerals. -/
def postgres : Postgres := ⟨String.toNat?, JsValue.toText⟩

/-- One campaign, which nothing was applied to. -/
def legacy : LegacySources where
  documents := [.object [("id", .string "record"), ("name", .string "campaign"),
    ("mccId", .string "111-111-1111"), ("customerId", .string "222-222-2222"),
    ("googleCampaignId", .string "33333333"), ("suffix", .string "gclid=1")]]
  controlRows := []
  bridge := .row (.object [("id", .number (.finite 1)),
    ("payload", .object [("applied", .object [])])])

/-- The draws of a run at `now`. -/
def drawn (now : Nat) : Draws where
  now := now
  nextval := fun _ => now
  randomUUID := fun _ => "job-" ++ toString now
  captureOrder := .first _
  jobOrder := .first _

/-- An enrolment that moves the target off the default shard. -/
def enrol : Event := ⟨2, 2, .upsertBridgeTarget LinkSuffix.Sample.target⟩

/-- The store a repeated run finds. -/
def fleet : Fleet :=
  (deployment Config.sample postgres).run Fleet.initial
    ([] ++ .migrate legacy (drawn 1) :: [enrol].map .call)

end Sample

theorem sample_consistent : Sample.legacy.Consistent Config.sample :=
  ⟨by decide +kernel, by decide +kernel⟩

theorem sample_fresh : (Sample.drawn 3).Fresh Sample.legacy.candidates Sample.fleet.store :=
  ⟨⟨by decide +kernel, by decide +kernel⟩, by decide +kernel, by decide +kernel⟩

theorem sample_coherent : Coherent Config.sample Sample.fleet.store := by
  unfold Sample.fleet
  exact (ledger_run _ _ _).coherent

theorem sample_commits : (deployment Config.sample Sample.postgres).reply Fleet.initial
    (.migrate Sample.legacy (Sample.drawn 1)) = .ok () := by
  decide +kernel

/-- **Repeating the migration.** After a run that committed, and any store calls and further runs,
the run is repeated: it commits, leaves leased, failed, dead and superseded jobs, the shards and the
recorded deliveries alone and has every candidate's suffix as a capture, exactly when the store it
finds is repeatable. -/
theorem repeated_migration_harmless_iff (cfg : Config) (hdigest : Function.Injective cfg.digest)
    (pg : Postgres) (sources : LegacySources) (hsources : sources.Consistent cfg)
    (before after : List Action) (first again : Draws)
    (hfirst : (deployment cfg pg).reply ((deployment cfg pg).run Fleet.initial before)
      (.migrate sources first) = .ok ())
    (hagain : again.Fresh sources.candidates
      ((deployment cfg pg).run Fleet.initial (before ++ .migrate sources first :: after)).store) :
    ∃ applied, sources.applied = .ok applied ∧
      (Harmless cfg pg sources again
        ((deployment cfg pg).run Fleet.initial (before ++ .migrate sources first :: after)).db ↔
      Repeatable cfg pg applied sources.candidates again.now
        ((deployment cfg pg).run Fleet.initial
          (before ++ .migrate sources first :: after)).store) := by
  obtain ⟨applied, happlied⟩ := applied_of_commit hfirst
  refine ⟨applied, happlied, ?_⟩
  exact harmless_iff hdigest happlied (ledger_run cfg pg _).coherent hagain.toNew
    (hsources.apart hagain)

/-- The theorem at a target that was enrolled on another shard after the first run. -/
theorem repeated_migration_harmless_iff_enrolled :
    ∃ applied, Sample.legacy.applied = .ok applied ∧
      (Harmless Config.sample Sample.postgres Sample.legacy (Sample.drawn 3) Sample.fleet.db ↔
      Repeatable Config.sample Sample.postgres applied Sample.legacy.candidates 3
        Sample.fleet.store) :=
  repeated_migration_harmless_iff Config.sample (fun _ _ h => h) Sample.postgres Sample.legacy
    sample_consistent [] ([Sample.enrol].map .call) (Sample.drawn 1) (Sample.drawn 3) sample_commits
    sample_fresh

/-- A target enrolled on another shard after the first run is moved back by the second. -/
theorem enrolled_target_moved_back :
    ¬∀ (cfg : Config) (pg : Postgres) (sources : LegacySources) (before : List Action)
      (after : List Event) (first again : Draws), Function.Injective cfg.digest →
      sources.Consistent cfg →
      (deployment cfg pg).reply ((deployment cfg pg).run Fleet.initial before)
        (.migrate sources first) = .ok () →
      again.Fresh sources.candidates ((deployment cfg pg).run Fleet.initial
        (before ++ .migrate sources first :: after.map .call)).store →
      Harmless cfg pg sources again ((deployment cfg pg).run Fleet.initial
        (before ++ .migrate sources first :: after.map .call)).db := by
  intro hclaim
  have hharmless : Harmless Config.sample Sample.postgres Sample.legacy (Sample.drawn 3)
      Sample.fleet.db :=
    hclaim Config.sample Sample.postgres Sample.legacy [] [Sample.enrol] (Sample.drawn 1)
      (Sample.drawn 3) (fun _ _ h => h) sample_consistent sample_commits sample_fresh
  obtain ⟨applied, happlied⟩ := applied_of_commit sample_commits
  have hdigest : Function.Injective Config.sample.digest := fun _ _ h => h
  have hrepeatable := (harmless_iff hdigest happlied sample_coherent sample_fresh.toNew
    (sample_consistent.apart sample_fresh)).mp hharmless
  have hmoved : ∃ k ∈ Sample.legacy.candidates, ∃ t ∈ Sample.fleet.store.targets,
      t.campaignRecordId = k.campaignRecordId ∧ t.shardId ≠ k.shardId := by
    decide +kernel
  obtain ⟨k, hk, t, ht, hrecord, hshard⟩ := hmoved
  exact hshard (hrepeatable.shards k hk t ht hrecord)

end Legacy

end LinkSuffix
