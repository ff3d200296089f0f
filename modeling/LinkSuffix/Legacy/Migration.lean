import LinkSuffix.Legacy.Sources
import LinkSuffix.Lib.Latest
import LinkSuffix.Store.System

/-!
# The transaction of the legacy migration

`migrate-legacy-state.mjs --apply` between `BEGIN` and `COMMIT`, one function for each statement.

* `migrateCandidate`: the statements for one candidate; `migrateCandidates` is the loop.
* `markApplied`, `recordLatest`: the two updates after the loop.
* `migrate`: the whole work.
* `migrateCandidate_ok`: what the statements for a candidate leave, table by table.
* `deployment`: the store calls and the migration, in any order.
-/

namespace LinkSuffix

open Lib

namespace Legacy

/-- `ORDER BY applied_at DESC` among rows that have it. -/
def deliveredAt (j : DeliveryJob) : Nat := j.appliedAt.getD 0

/-- What a run draws: `now()`, sequence values, random ids, and the order of rows with equal
dates. -/
structure Draws where
  now : Nat
  nextval : LegacyCandidate → Nat
  randomUUID : LegacyCandidate → String
  captureOrder : Latest SuffixCapture.capturedAt
  jobOrder : Latest deliveredAt

/-! ## The statements for a candidate -/

namespace LegacyCandidate

variable (cfg : Config) (draws : Draws) (k : LegacyCandidate) (s : Store)

/-- A row has the campaign record id of the candidate. -/
def recorded : Bool := s.targets.any fun t => t.campaignRecordId = k.campaignRecordId

/-- A row has the target id of the candidate. -/
def targeted : Bool := s.targets.any fun t => t.targetId = k.targetId cfg

/-- A row has the account and campaign of the candidate. -/
def advertised : Bool :=
  s.targets.any fun t => (t.managerCustomerId, t.customerId, t.googleCampaignId) =
    (k.managerCustomerId, k.customerId, k.googleCampaignId)

/-- `DO UPDATE SET campaign_name=EXCLUDED.campaign_name,shard_id=EXCLUDED.shard_id`. -/
def rename (t : CampaignTarget) : CampaignTarget :=
  { t with campaignName := k.campaignName, shardId := k.shardId }

/-- `INSERT INTO tah_campaign_targets … ON CONFLICT (campaign_record_id) DO UPDATE`. -/
def upsertTarget : Except StoreError Store :=
  if k.recorded s then
    .ok { s with
      targets := updateKey (·.campaignRecordId) k.campaignRecordId k.rename s.targets }
  else if k.targeted cfg s || k.advertised s then .error (sqlError "23505")
  else .ok { s with targets := s.targets ++ [k.row cfg] }

/-- `WHERE target_id=$1 AND suffix_hash=$2`. -/
def captures : List SuffixCapture :=
  s.captures.filter fun c => c.targetId = k.targetId cfg ∧ c.suffixHash = cfg.digest k.suffix

/-- A capture row that the candidate's cannot be inserted beside. -/
def collides (c : SuffixCapture) : Bool :=
  c.captureId = draws.nextval k || (c.targetId = k.targetId cfg && c.version = k.storedVersion)

/-- `INSERT INTO tah_suffix_captures … ON CONFLICT DO NOTHING RETURNING capture_id`. -/
def insertCapture : Except StoreError (Option Nat × Store) :=
  if s.captures.any (k.collides cfg draws) then .ok (none, s)
  else if k.targeted cfg s then
    .ok (some (draws.nextval k),
      { s with captures := s.captures ++ [k.captureRow cfg (draws.nextval k) draws.now] })
  else .error (sqlError "23503")

/-- A job row that the candidate's cannot be inserted beside. -/
def repeats (captureId : Nat) (j : DeliveryJob) : Bool :=
  j.jobId = draws.randomUUID k || (j.targetId = k.targetId cfg && j.captureId = captureId)

/-- `INSERT INTO tah_delivery_jobs … ON CONFLICT DO NOTHING`. -/
def insertJob (captureId : Nat) : Store :=
  if s.jobs.any (k.repeats cfg draws captureId) then s
  else
    { s with
      jobs := s.jobs ++ [newJob (draws.randomUUID k) (k.targetId cfg) captureId draws.now] }

/-- The capture of the candidate's suffix, found or inserted, gets a job. -/
def queueSuffix : Except StoreError Store :=
  match draws.captureOrder.pick (k.captures cfg s) with
  | some c => .ok (k.insertJob cfg draws s c.captureId)
  | none =>
    match k.insertCapture cfg draws s with
    | .error e => .error e
    | .ok (none, s') => .ok s'
    | .ok (some captureId, s') => .ok (k.insertJob cfg draws s' captureId)

end LegacyCandidate

/-- The body of the loop. -/
def migrateCandidate (cfg : Config) (draws : Draws) (k : LegacyCandidate) (s : Store) :
    Except StoreError Store :=
  match k.upsertTarget cfg s with
  | .error e => .error e
  | .ok s' => k.queueSuffix cfg draws s'

/-- The loop over the candidates. -/
def migrateCandidates (cfg : Config) (draws : Draws) :
    List LegacyCandidate → Store → Except StoreError Store
  | [], s => .ok s
  | k :: ks, s =>
    match migrateCandidate cfg draws k s with
    | .error e => .error e
    | .ok s' => migrateCandidates cfg draws ks s'

/-! ## The updates after the loop -/

/-- The row of `matches` for a job: the campaign record and the capture. -/
def matched (pg : Postgres) (applied : Fields) (s : Store) (j : DeliveryJob) :
    Option (String × SuffixCapture) :=
  match s.capture? j.captureId with
  | none => none
  | some c =>
    match s.target? c.targetId with
    | none => none
    | some t =>
      if appliedSuffix pg applied t.campaignRecordId = some c.exactSuffix then
        some (t.campaignRecordId, c)
      else none

/-- `SET state='applied',applied_at=…,verified_suffix_hash=…,last_error=NULL`. -/
def mark (verifiedAt : Nat) (suffixHash : String) (j : DeliveryJob) : DeliveryJob :=
  { j with
    state := .applied, appliedAt := some verifiedAt, verifiedSuffixHash := some suffixHash
    lastError := none }

/-- The job after `UPDATE tah_delivery_jobs`. -/
def markedRow (pg : Postgres) (applied : Fields) (now : Nat) (s : Store) (j : DeliveryJob) :
    DeliveryJob :=
  match matched pg applied s j with
  | none => j
  | some (record, c) => mark ((verifiedAt pg applied now record).getD now) c.suffixHash j

/-- `UPDATE tah_delivery_jobs … FROM matches`: a `verifiedAt` that is no time fails. -/
def markApplied (pg : Postgres) (applied : Fields) (now : Nat) (s : Store) :
    Except StoreError Store :=
  if s.jobs.any fun j => (matched pg applied s j).any fun (record, _) =>
      (verifiedAt pg applied now record).isNone then .error (sqlError "22007")
  else .ok { s with jobs := s.jobs.map (markedRow pg applied now s) }

/-- `state='applied' AND applied_at IS NOT NULL` for a target. -/
def deliveries (s : Store) (targetId : String) : List DeliveryJob :=
  s.jobs.filter fun j => j.targetId = targetId && j.state = .applied && j.appliedAt.isSome

/-- The target after `UPDATE tah_campaign_targets … FROM latest`. -/
def latestRow (order : Latest deliveredAt) (s : Store) (t : CampaignTarget) : CampaignTarget :=
  match order.pick (deliveries s t.targetId) with
  | none => t
  | some j => { t with lastAppliedAt := j.appliedAt, lastAppliedSuffixHash := j.verifiedSuffixHash }

/-- `UPDATE tah_campaign_targets … FROM latest`. -/
def recordLatest (order : Latest deliveredAt) (s : Store) : Store :=
  { s with targets := s.targets.map (latestRow order s) }

/-- The work between `BEGIN` and `COMMIT`. -/
def migrate (cfg : Config) (pg : Postgres) (sources : LegacySources) (draws : Draws) : Work Unit :=
  fun s =>
  match migrateCandidates cfg draws sources.candidates s with
  | .error e => .error e
  | .ok s1 =>
    match sources.applied with
    | .error e => .error e
    | .ok applied =>
      match markApplied pg applied draws.now s1 with
      | .error e => .error e
      | .ok s2 => .ok ((), recordLatest draws.jobOrder s2)

/-! ## What the statements for a candidate leave -/

namespace LegacyCandidate

variable (cfg : Config) (draws : Draws) (k : LegacyCandidate) (s : Store)

/-- The target inserted for the candidate, if its record is new. -/
def newTargets : List CampaignTarget := if k.recorded s then [] else [k.row cfg]

/-- The capture inserted for the candidate, if it has none and nothing collides. -/
def newCaptures : List SuffixCapture :=
  if (k.captures cfg s).isEmpty && !s.captures.any (k.collides cfg draws) then
    [k.captureRow cfg (draws.nextval k) draws.now]
  else []

/-- The capture the candidate's job is for. -/
def captureId : Option Nat :=
  match draws.captureOrder.pick (k.captures cfg s) with
  | some c => some c.captureId
  | none => if s.captures.any (k.collides cfg draws) then none else some (draws.nextval k)

/-- The job inserted for the candidate, if its capture has none. -/
def newJobs : List DeliveryJob :=
  match k.captureId cfg draws s with
  | none => []
  | some id =>
    if s.jobs.any (k.repeats cfg draws id) then []
    else [newJob (draws.randomUUID k) (k.targetId cfg) id draws.now]

/-- The store after the statements for the candidate. -/
def enrolled : Store :=
  { s with
    targets := updateKey (·.campaignRecordId) k.campaignRecordId k.rename s.targets
      ++ k.newTargets cfg s
    captures := s.captures ++ k.newCaptures cfg draws s
    jobs := s.jobs ++ k.newJobs cfg draws s }

variable {cfg : Config} {draws : Draws} {k : LegacyCandidate} {s s' : Store}

theorem recorded_iff : k.recorded s = true ↔ ∃ t ∈ s.targets,
    t.campaignRecordId = k.campaignRecordId := by
  simp [recorded]

theorem targeted_iff : k.targeted cfg s = true ↔ ∃ t ∈ s.targets, t.targetId = k.targetId cfg := by
  simp [targeted]

theorem mem_captures {c : SuffixCapture} : c ∈ k.captures cfg s ↔
    c ∈ s.captures ∧ c.targetId = k.targetId cfg ∧ c.suffixHash = cfg.digest k.suffix := by
  simp [captures]

theorem insertJob_eq (id : Nat) : k.insertJob cfg draws s id =
    { s with
      jobs := s.jobs ++ if s.jobs.any (k.repeats cfg draws id) then []
        else [newJob (draws.randomUUID k) (k.targetId cfg) id draws.now] } := by
  unfold insertJob
  split
  · rw [List.append_nil]
  · rfl

/-- The statements for the suffix add at most a capture and a job; a capture needs its target. -/
theorem queueSuffix_ok_iff : k.queueSuffix cfg draws s = .ok s' ↔
    (k.newCaptures cfg draws s = [] ∨ k.targeted cfg s = true) ∧ s' = { s with
      captures := s.captures ++ k.newCaptures cfg draws s
      jobs := s.jobs ++ k.newJobs cfg draws s } := by
  unfold queueSuffix newCaptures newJobs captureId
  cases hpick : draws.captureOrder.pick (k.captures cfg s) with
  | some c =>
    have hfound : (k.captures cfg s).isEmpty = false := by
      have hmem := (draws.captureOrder.pick_latest hpick).mem
      cases hrows : k.captures cfg s with
      | nil => exact absurd hmem (by simp [hrows])
      | cons d ds => rfl
    simp only [insertJob_eq, hfound, Bool.false_and, Bool.false_eq_true, if_false, List.append_nil,
      true_or, true_and, Except.ok.injEq]
    exact eq_comm
  | none =>
    have hnone := draws.captureOrder.pick_eq_none.mp hpick
    unfold insertCapture
    by_cases hcollides : s.captures.any (k.collides cfg draws) = true
    · simp only [hcollides, if_true, Bool.not_true, Bool.and_false, Bool.false_eq_true, if_false,
        List.append_nil, true_or, true_and, Except.ok.injEq]
      exact eq_comm
    · by_cases htargeted : k.targeted cfg s = true
      · simp only [hcollides, htargeted, hnone, insertJob_eq, if_true, Bool.false_eq_true, if_false,
          or_true, true_and, Except.ok.injEq, List.isEmpty_nil, Bool.not_false, Bool.true_and]
        exact eq_comm
      · simp [hcollides, htargeted, hnone]

/-- PostgreSQL takes the rows of the candidate. -/
structure Accepted (cfg : Config) (draws : Draws) (k : LegacyCandidate) (s : Store) : Prop where
  unclaimed : k.recorded s = false → k.targeted cfg s = false ∧ k.advertised s = false
  captured : k.recorded s = true → k.newCaptures cfg draws s = [] ∨ k.targeted cfg s = true

end LegacyCandidate

open LegacyCandidate

variable {cfg : Config} {draws : Draws} {k : LegacyCandidate} {s s' : Store}

/-- **The statements for a candidate**: its target is renamed or inserted, and its suffix has a
capture and a job unless a version collides. -/
theorem migrateCandidate_ok_iff : migrateCandidate cfg draws k s = .ok s' ↔
    k.Accepted cfg draws s ∧ s' = k.enrolled cfg draws s := by
  unfold migrateCandidate upsertTarget enrolled newTargets
  by_cases hrecorded : k.recorded s = true
  · have haccepted : k.Accepted cfg draws s ↔
        k.newCaptures cfg draws s = [] ∨ k.targeted cfg s = true :=
      ⟨fun h => h.captured hrecorded, fun h => ⟨fun hnew => by simp [hrecorded] at hnew, fun _ => h⟩⟩
    -- A rename moves no target id, and the other statements do not read the targets.
    have htargeted : k.targeted cfg { s with
        targets := updateKey (·.campaignRecordId) k.campaignRecordId k.rename s.targets } =
        k.targeted cfg s := by
      rw [Bool.eq_iff_iff, targeted_iff, targeted_iff]
      constructor
      · rintro ⟨t', ht', hid⟩
        obtain ⟨t, ht, ⟨-, rfl⟩ | ⟨-, rfl⟩⟩ := mem_updateWhere.mp ht'
        · exact ⟨t, ht, hid⟩
        · exact ⟨t', ht, hid⟩
      · rintro ⟨t, ht, hid⟩
        by_cases hmine : t.campaignRecordId = k.campaignRecordId
        · exact ⟨k.rename t, mem_updateWhere.mpr ⟨t, ht, Or.inl ⟨by simpa using hmine, rfl⟩⟩, hid⟩
        · exact ⟨t, mem_updateWhere.mpr ⟨t, ht, Or.inr ⟨by simpa using hmine, rfl⟩⟩, hid⟩
    simp only [hrecorded, if_true, List.append_nil, haccepted, queueSuffix_ok_iff, htargeted]
    rfl
  · have haccepted : k.Accepted cfg draws s ↔
        k.targeted cfg s = false ∧ k.advertised s = false :=
      ⟨fun h => h.unclaimed (by simpa using hrecorded),
        fun h => ⟨fun _ => h, fun hold => absurd hold hrecorded⟩⟩
    have hsame : updateKey (·.campaignRecordId) k.campaignRecordId k.rename s.targets =
        s.targets := by
      refine updateKey_of_notMem fun hmem => hrecorded ?_
      obtain ⟨t, ht, hid⟩ := List.mem_map.mp hmem
      exact recorded_iff.mpr ⟨t, ht, hid⟩
    simp only [hrecorded, Bool.false_eq_true, if_false, haccepted, hsame]
    by_cases htaken : (k.targeted cfg s || k.advertised s) = true
    · have hnot : ¬(k.targeted cfg s = false ∧ k.advertised s = false) := by
        rintro ⟨htargeted, hadvertised⟩
        simp [htargeted, hadvertised] at htaken
      simp only [htaken, if_true, hnot, false_and, iff_false]
      intro h
      cases h
    · obtain ⟨htargeted, hadvertised⟩ := Bool.or_eq_false_iff.mp (by simpa using htaken)
      have hinserted : k.targeted cfg { s with targets := s.targets ++ [k.row cfg] } = true :=
        targeted_iff.mpr ⟨_, List.mem_append_right _ (List.mem_singleton_self _), rfl⟩
      simp only [htargeted, hadvertised, Bool.or_self, Bool.false_eq_true, if_false,
        queueSuffix_ok_iff, hinserted, or_true, true_and, and_self]
      rfl

end Legacy

end LinkSuffix
