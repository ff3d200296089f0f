import LinkSuffix.Lib.Checked
import LinkSuffix.Queue.Fencing

/-!
# Batches of leased jobs

What a worker script does with the jobs it has leased (`relational-fleet-worker.ts`): account by
account it renews the leases, mutates the campaigns whose suffix differs and reads them back, and in
the end it acknowledges all the results in one request.

* `Environment`: the accounts that are linked, and what the bridge and Google Ads do in the turn of
  each of them. A renewal is answered by `renewBridgeLeases`, from the rows it finds.
* `applyAndVerifyBatch`, `executeFleetBatch`, `executeCurrentAccountBatch`.
* `Batch.Reported`: what was mutated is reported with what was read back, and every job whose lease
  is current is attempted and reported.
* `Turn.Clean`: nothing throws in the turn of an account. `applyAndVerifyBatch_spec`.
* **`batch_reported_iff`**, `stale_lease_strands`.
-/

namespace LinkSuffix.FleetBatch

open Lib

/-! ## Jobs and results -/

/-- A job, as the bridge leases it. -/
structure Job where
  jobId : String
  leaseToken : String
  customerId : String
  campaignId : String
  exactSuffix : String
  deriving DecidableEq

/-- A result, as it is acknowledged. -/
structure Result where
  jobId : String
  leaseToken : String
  ok : Bool
  status : String
  appliedSuffix : Option String := none
  error : Option String := none
  deriving DecidableEq

/-- `digits_`. -/
def digits (value : String) : String := String.ofList (value.toList.filter (·.isDigit))

/-- `safeError_`, of a message. -/
def safeError (error : String) : String := if error = "" then "Unknown script error" else error

/-- `verifiedResult_`. -/
def verifiedResult (job : Job) (observedSuffix : String) : Result where
  jobId := job.jobId
  leaseToken := job.leaseToken
  ok := true
  status := "applied"
  appliedSuffix := some observedSuffix

/-- `failedResult_`. -/
def failedResult (job : Job) (error : String) : Result where
  jobId := job.jobId
  leaseToken := job.leaseToken
  ok := false
  status := "failed"
  error := some (sliceTo 1000 (safeError error))

/-! ## What is outside -/

/-- `campaignOperation.update`, with its mask. -/
structure Operation where
  resourceName : String
  finalUrlSuffix : String
  updateMask : String := "finalUrlSuffix"
  deriving DecidableEq

/-- Campaign ids with their suffixes. -/
abbrev Rows := List (String × String)

/-- What the bridge and Google Ads do in the turn of an account. A text is what they throw. -/
structure Turn where
  /-- The rows that the renewal finds, and when. -/
  store : Store
  now : Nat
  /-- What keeps the renewal from the rows, or its answer from the worker. -/
  bridge : Option String := none
  /-- `AdsApp.search`, before the mutation and after it. -/
  before : Except String Rows
  after : Except String Rows
  /-- `AdsApp.mutateAll`, with `partialFailure`: the messages of each operation that failed. -/
  mutateAll : List Operation → Except String (List (Option (List String)))

/-- Who runs the script. -/
structure Worker where
  shardId : String
  workerId : String

/-- The accounts that `AdsManagerApp.accounts()` returns, and their turns. -/
structure Environment where
  linked : List String
  turn : String → Turn

/-- What was attempted and mutated, and the results, or what was thrown. -/
structure Execution where
  attempted : List Job := []
  mutated : List Job := []
  results : Except String (List Result)

/-- What is acknowledged. -/
def Execution.acknowledged (x : Execution) : List Result :=
  match x.results with
  | .ok results => results
  | .error _ => []

/-! ## The worker -/

section Worker

variable (cfg : Config) (worker : Worker)

/-- The leases of `renewLeases_`. -/
def renewal (jobs : List Job) : RenewInput where
  shardId := worker.shardId
  workerId := worker.workerId
  leases := jobs.map fun job => ⟨job.jobId, job.leaseToken⟩

/-- `renewLeases_`, with the answer of `POST` to the action "renew". -/
def renewLeases (turn : Turn) (jobs : List Job) : Except String Unit :=
  match turn.bridge with
  | some error => .error error
  | none =>
    if 200 < jobs.length then .error "Bridge HTTP 400: At most 200 leases can be renewed"
    else
      match renewBridgeLeases cfg (renewal worker jobs) turn.now turn.store with
      | .error e => .error ("Bridge HTTP 500: " ++ e.message)
      | .ok (renewed, _) =>
        if renewed.staleJobIds = [] then .ok ()
        else .error "One or more delivery leases became stale before Google Ads mutation"

/-- `readSuffixes_`, of what the search returns. -/
def readSuffixes (rows : Except String Rows) (jobs : List Job) : Except String Rows :=
  if jobs.all fun job => digits job.campaignId = "" then .ok [] else rows

/-- `suffixes[campaignId]`: the last row of a campaign counts. -/
def suffixOf (rows : Rows) (campaignId : String) : Option String :=
  (rows.reverse.find? (·.1 = campaignId)).map (·.2)

/-- The jobs whose campaign has another suffix. -/
def changes (before : Rows) (jobs : List Job) : List Job :=
  jobs.filter fun job => suffixOf before job.campaignId ≠ some job.exactSuffix

def operation (customerId : String) (job : Job) : Operation where
  resourceName := "customers/" ++ customerId ++ "/campaigns/" ++ job.campaignId
  finalUrlSuffix := job.exactSuffix

/-- The mutation of the jobs, if there are any. -/
def mutate (turn : Turn) (customerId : String) (jobs : List Job) :
    Except String (List (Option (List String))) :=
  if jobs = [] then .ok [] else turn.mutateAll (jobs.map (operation customerId))

/-- `mutationErrors[jobId]`, if it is not empty. -/
def mutationError (outcomes : List (Job × Option (List String))) (jobId : String) : Option String :=
  ((outcomes.reverse.find? fun outcome => outcome.1.jobId = jobId ∧ outcome.2.isSome).bind
    fun outcome => outcome.2.map ("; ".intercalate ·)).filter (· ≠ "")

/-- The result of a job, from what is read back. -/
def resultOf (outcomes : List (Job × Option (List String))) (after : Rows) (job : Job) : Result :=
  match mutationError outcomes job.jobId with
  | some error => failedResult job error
  | none =>
    match suffixOf after job.campaignId with
    | none =>
      failedResult job "Read-back verification did not exactly match the captured suffix"
    | some observed =>
      if observed ≠ job.exactSuffix then
        failedResult job "Read-back verification did not exactly match the captured suffix"
      else verifiedResult job observed

/-- `applyAndVerifyBatch_`. The renewal after the mutation has no effect on it. -/
def applyAndVerifyBatch (turn : Turn) (jobs : List Job) (customerId : String) : Execution :=
  if jobs = [] then { results := .ok [] }
  else
    match renewLeases cfg worker turn jobs with
    | .error error => { results := .error error }
    | .ok () =>
      match readSuffixes turn.before jobs with
      | .error error => { results := .error error }
      | .ok before =>
        let changed := changes before jobs
        match mutate turn customerId changed with
        | .error error => { attempted := jobs, results := .error error }
        | .ok outcomes =>
          let outcomes := changed.zip outcomes
          let mutated := (outcomes.filter (·.2.isNone)).map (·.1)
          match readSuffixes turn.after jobs with
          | .error error => { attempted := jobs, mutated := mutated, results := .error error }
          | .ok after => {
              attempted := jobs
              mutated := mutated
              results := .ok (jobs.map (resultOf outcomes after)) }

/-- `groups[customerId]`. -/
def group (jobs : List Job) (customerId : String) : List Job :=
  jobs.filter fun job => digits job.customerId = customerId

/-- `Object.keys(groups)`. -/
def accountIds (jobs : List Job) : List String := (jobs.map (digits ·.customerId)).eraseDups

/-- The loop over the accounts. -/
def visit (env : Environment) (jobs : List Job) : List String → Execution
  | [] => { results := .ok [] }
  | customerId :: accounts =>
    let here := applyAndVerifyBatch cfg worker (env.turn customerId) (group jobs customerId)
      customerId
    match here.results with
    | .error _ => here
    | .ok results =>
      let later := visit env jobs accounts
      { attempted := here.attempted ++ later.attempted
        mutated := here.mutated ++ later.mutated
        results := later.results.map (results ++ ·) }

/-- The jobs of the accounts that were not visited. -/
def unlinked (env : Environment) (jobs : List Job) : List Result :=
  ((accountIds jobs).filter (· ∉ env.linked)).flatMap fun customerId =>
    (group jobs customerId).map fun job =>
      failedResult job ("Child account " ++ customerId ++ " is not linked to this MCC")

/-- `executeFleetBatch_`, up to the acknowledgement. -/
def executeFleetBatch (env : Environment) (jobs : List Job) : Execution :=
  if 50 < (accountIds jobs).length then
    { results := .error "Shard returned more accounts than this worker permits." }
  else
    let visited := visit cfg worker env jobs env.linked
    { visited with results := visited.results.map (· ++ unlinked env jobs) }

/-- `executeCurrentAccountBatch_`, up to the acknowledgement. -/
def executeCurrentAccountBatch (env : Environment) (jobs : List Job) (customerId : String) :
    Execution :=
  applyAndVerifyBatch cfg worker (env.turn customerId) (group jobs customerId) customerId

/-! ## What is asked -/

/-- The jobs of one lease. -/
structure Batch where
  jobs : List Job
  nodup : (jobs.map (·.jobId)).Nodup

/-- The lease of the job is current, in the turn. -/
def Turn.renews (turn : Turn) (job : Job) : Bool :=
  turn.store.jobs.any
    (turn.store.renewable cfg (renewal worker [job]) ⟨job.jobId, job.leaseToken⟩)

/-- The lease of the job is current, in the turn of its account. -/
def Current (env : Environment) (job : Job) : Prop :=
  (env.turn (digits job.customerId)).renews cfg worker job = true

/-- What was mutated is reported with what was read back, and every job whose lease is current is
attempted, if its account can be reached, and reported. -/
structure Batch.Reported (env : Environment) (reachable : List String) (batch : Batch)
    (x : Execution) : Prop where
  mutated : ∀ job ∈ x.mutated, ∃ rows,
    readSuffixes (env.turn (digits job.customerId)).after
        (group batch.jobs (digits job.customerId)) = .ok rows ∧
      ∃ result ∈ x.acknowledged, result.jobId = job.jobId ∧ result.leaseToken = job.leaseToken ∧
        if suffixOf rows job.campaignId = some job.exactSuffix then
          result = verifiedResult job job.exactSuffix
        else result.ok = false
  current : ∀ job ∈ batch.jobs, Current cfg worker env job →
    (digits job.customerId ∈ reachable → job ∈ x.attempted) ∧
      ∃ result ∈ x.acknowledged, result.jobId = job.jobId ∧ result.leaseToken = job.leaseToken

/-- Nothing throws in the turn of an account. -/
structure Turn.Clean (turn : Turn) (jobs : List Job) (customerId : String) : Prop where
  bridge : turn.bridge = none
  length : jobs.length ≤ 200
  current : ∀ job ∈ jobs, turn.renews cfg worker job = true
  read : ∃ before outcomes after, readSuffixes turn.before jobs = .ok before ∧
    mutate turn customerId (changes before jobs) = .ok outcomes ∧
    readSuffixes turn.after jobs = .ok after

end Worker

/-! ## The turn of an account -/

section Turns

variable {cfg : Config} {worker : Worker} {turn : Turn} {jobs : List Job} {customerId : String}

theorem stale_eq_nil (hlength : jobs.length ≤ 200) {renewed : RenewResult} {store : Store}
    (h : renewBridgeLeases cfg (renewal worker jobs) turn.now turn.store = .ok (renewed, store)) :
    renewed.staleJobIds = [] ↔ ∀ job ∈ jobs, turn.renews cfg worker job = true := by
  have htake : (renewal worker jobs).leases.take maxLeaseJobs = (renewal worker jobs).leases := by
    refine List.take_of_length_le ?_
    show (jobs.map _).length ≤ 200
    rw [List.length_map]
    exact hlength
  rw [(renew_ids h).2, htake, List.map_eq_nil_iff, List.filter_eq_nil_iff]
  constructor
  · intro hnone job hjob
    have hrenews := hnone ⟨job.jobId, job.leaseToken⟩ (List.mem_map.mpr ⟨job, hjob, rfl⟩)
    cases hcurrent : turn.renews cfg worker job with
    | true => rfl
    | false => exact absurd (congrArg (!·) hcurrent) hrenews
  · intro hall lease hlease
    obtain ⟨job, hjob, rfl⟩ := List.mem_map.mp hlease
    have hrenews : turn.store.jobs.any (turn.store.renewable cfg (renewal worker jobs)
        ⟨job.jobId, job.leaseToken⟩) = true := hall job hjob
    rw [hrenews]
    exact Bool.false_ne_true

theorem renewLeases_ok : renewLeases cfg worker turn jobs = .ok () ↔
    turn.bridge = none ∧ jobs.length ≤ 200 ∧ ∀ job ∈ jobs, turn.renews cfg worker job = true := by
  unfold renewLeases
  cases turn.bridge with
  | some error => exact iff_of_false nofun fun h => by cases h.1
  | none =>
    dsimp only
    by_cases hlength : 200 < jobs.length
    · rw [if_pos hlength]
      exact iff_of_false nofun fun h => absurd h.2.1 (Nat.not_le.mpr hlength)
    · have hle := Nat.not_lt.mp hlength
      rw [if_neg hlength]
      obtain ⟨renewed, store, hrenew⟩ : ∃ renewed store,
          renewBridgeLeases cfg (renewal worker jobs) turn.now turn.store = .ok (renewed, store) :=
        ⟨_, _, rfl⟩
      rw [hrenew]
      dsimp only
      have hstale := stale_eq_nil hle hrenew
      by_cases hnil : renewed.staleJobIds = []
      · rw [if_pos hnil]
        exact iff_of_true rfl ⟨rfl, hle, hstale.mp hnil⟩
      · rw [if_neg hnil]
        exact iff_of_false nofun fun h => hnil (hstale.mpr h.2.2)

/-- **The turn of an account** returns exactly if nothing throws in it; it has attempted all of its
jobs then, and has a result for each. -/
theorem applyAndVerifyBatch_spec (hjobs : jobs ≠ []) :
    (turn.Clean cfg worker jobs customerId ∧ ∃ before outcomes after,
      readSuffixes turn.after jobs = .ok after ∧
      applyAndVerifyBatch cfg worker turn jobs customerId = {
        attempted := jobs
        mutated := (((changes before jobs).zip outcomes).filter (·.2.isNone)).map (·.1)
        results := .ok (jobs.map (resultOf ((changes before jobs).zip outcomes) after)) }) ∨
    (¬turn.Clean cfg worker jobs customerId ∧ ∃ error,
      (applyAndVerifyBatch cfg worker turn jobs customerId).results = .error error) := by
  unfold applyAndVerifyBatch
  rw [if_neg hjobs]
  cases hrenew : renewLeases cfg worker turn jobs with
  | error error =>
    refine Or.inr ⟨fun h => ?_, error, rfl⟩
    rw [renewLeases_ok.mpr ⟨h.bridge, h.length, h.current⟩] at hrenew
    cases hrenew
  | ok _ =>
    obtain ⟨hbridge, hlength, hcurrent⟩ := renewLeases_ok.mp hrenew
    dsimp only
    cases hbefore : readSuffixes turn.before jobs with
    | error error =>
      refine Or.inr ⟨fun h => ?_, error, rfl⟩
      obtain ⟨before, outcomes, after, hread, -⟩ := h.read
      rw [hbefore] at hread
      cases hread
    | ok before =>
      dsimp only
      cases hmutate : mutate turn customerId (changes before jobs) with
      | error error =>
        refine Or.inr ⟨fun h => ?_, error, rfl⟩
        obtain ⟨before', outcomes, after, hread, hmutated, -⟩ := h.read
        obtain rfl := Except.ok.inj (hbefore.symm.trans hread)
        rw [hmutate] at hmutated
        cases hmutated
      | ok outcomes =>
        dsimp only
        cases hafter : readSuffixes turn.after jobs with
        | error error =>
          refine Or.inr ⟨fun h => ?_, error, rfl⟩
          obtain ⟨before', outcomes', after, -, -, hread⟩ := h.read
          rw [hafter] at hread
          cases hread
        | ok after =>
          exact Or.inl ⟨⟨hbridge, hlength, hcurrent, before, outcomes, after, hbefore, hmutate,
            hafter⟩, before, outcomes, after, rfl, rfl⟩

/-- What was mutated was renewed with the other jobs of its account. -/
theorem mutated_renewed {job : Job}
    (h : job ∈ (applyAndVerifyBatch cfg worker turn jobs customerId).mutated) :
    job ∈ jobs ∧ ∀ job ∈ jobs, turn.renews cfg worker job = true := by
  have hmem : ∀ {before : Rows} {outcomes : List (Option (List String))},
      job ∈ (((changes before jobs).zip outcomes).filter (·.2.isNone)).map (·.1) →
        job ∈ jobs := by
    intro before outcomes hjob
    obtain ⟨outcome, houtcome, rfl⟩ := List.mem_map.mp hjob
    exact List.mem_of_mem_filter (List.of_mem_zip (List.mem_of_mem_filter houtcome)).1
  unfold applyAndVerifyBatch at h
  split at h
  · cases h
  · split at h
    · cases h
    · rename_i hrenew
      refine ⟨?_, (renewLeases_ok.mp hrenew).2.2⟩
      split at h
      · cases h
      · dsimp only at h
        split at h
        · cases h
        · split at h
          · exact hmem h
          · exact hmem h

theorem resultOf_ids (outcomes : List (Job × Option (List String))) (after : Rows) (job : Job) :
    (resultOf outcomes after job).jobId = job.jobId ∧
      (resultOf outcomes after job).leaseToken = job.leaseToken := by
  unfold resultOf
  split
  · exact ⟨rfl, rfl⟩
  · split
    · exact ⟨rfl, rfl⟩
    · split
      · exact ⟨rfl, rfl⟩
      · exact ⟨rfl, rfl⟩

/-- A job that was mutated has no error, if no other job has its id. -/
theorem mutationError_mutated {outcomes : List (Job × Option (List String))} {job : Job}
    (hnodup : (outcomes.map (·.1.jobId)).Nodup) (hjob : (job, none) ∈ outcomes) :
    mutationError outcomes job.jobId = none := by
  have hnone : outcomes.reverse.find? (fun outcome =>
      decide (outcome.1.jobId = job.jobId ∧ outcome.2.isSome)) = none := by
    rw [List.find?_eq_none]
    intro outcome houtcome hfound
    obtain ⟨hid, hsome⟩ := of_decide_eq_true hfound
    have hsame : outcome = (job, none) :=
      List.inj_on_of_nodup_map hnodup (List.mem_reverse.mp houtcome) hjob hid
    rw [hsame] at hsome
    cases hsome
  unfold mutationError
  rw [hnone]
  rfl

/-- The result of a job with no error says what was read back. -/
theorem resultOf_read {outcomes : List (Job × Option (List String))} {after : Rows} {job : Job}
    (h : mutationError outcomes job.jobId = none) :
    if suffixOf after job.campaignId = some job.exactSuffix then
      resultOf outcomes after job = verifiedResult job job.exactSuffix
    else (resultOf outcomes after job).ok = false := by
  unfold resultOf
  rw [h]
  dsimp only
  cases hread : suffixOf after job.campaignId with
  | none => rw [if_neg (by nofun)]; rfl
  | some observed =>
    dsimp only
    by_cases hsame : observed = job.exactSuffix
    · rw [if_pos (congrArg some hsame), if_neg (not_not.mpr hsame), hsame]
    · rw [if_neg fun h => hsame (Option.some.inj h), if_pos hsame]
      rfl

theorem zip_sublist {α β : Type} (xs : List α) (ys : List β) :
    ((xs.zip ys).map (·.1)).Sublist xs := by
  induction xs generalizing ys with
  | nil => exact List.Sublist.slnil
  | cons x xs ih =>
    cases ys with
    | nil => exact List.nil_sublist _
    | cons y ys => exact (ih ys).cons_cons x

/-- **What an account reports**, if nothing throws: every job is attempted and has a result, and
what was mutated is reported with what was read back. -/
theorem turn_reported {results : List Result} (hnodup : (jobs.map (·.jobId)).Nodup)
    (h : (applyAndVerifyBatch cfg worker turn jobs customerId).results = .ok results) :
    (∀ job ∈ jobs, job ∈ (applyAndVerifyBatch cfg worker turn jobs customerId).attempted ∧
      ∃ result ∈ results, result.jobId = job.jobId ∧ result.leaseToken = job.leaseToken) ∧
    ∀ job ∈ (applyAndVerifyBatch cfg worker turn jobs customerId).mutated, ∃ rows,
      readSuffixes turn.after jobs = .ok rows ∧
        ∃ result ∈ results, result.jobId = job.jobId ∧ result.leaseToken = job.leaseToken ∧
          if suffixOf rows job.campaignId = some job.exactSuffix then
            result = verifiedResult job job.exactSuffix
          else result.ok = false := by
  by_cases hjobs : jobs = []
  · subst hjobs
    refine ⟨fun job hjob => absurd hjob List.not_mem_nil, fun job hjob => ?_⟩
    exact absurd (mutated_renewed hjob).1 List.not_mem_nil
  · rcases @applyAndVerifyBatch_spec cfg worker turn jobs customerId hjobs with
      ⟨-, before, outcomes, after, hafter, hturn⟩ | ⟨-, error, herror⟩
    · rw [hturn] at h ⊢
      obtain rfl := Except.ok.inj h
      constructor
      · intro job hjob
        exact ⟨hjob, _, List.mem_map.mpr ⟨job, hjob, rfl⟩, resultOf_ids _ after job⟩
      · intro job hmutated
        obtain ⟨⟨_, outcome⟩, houtcome, rfl⟩ := List.mem_map.mp hmutated
        obtain ⟨hzip, hnone⟩ := List.mem_filter.mp houtcome
        obtain rfl := Option.isNone_iff_eq_none.mp hnone
        have hjob := List.mem_of_mem_filter (List.of_mem_zip hzip).1
        have hids : (((changes before jobs).zip outcomes).map (·.1.jobId)).Nodup := by
          have hsublist : (((changes before jobs).zip outcomes).map (·.1)).Sublist jobs :=
            (zip_sublist _ _).trans List.filter_sublist
          have hmapped := hsublist.map (·.jobId)
          rw [List.map_map] at hmapped
          exact hnodup.sublist hmapped
        exact ⟨after, hafter, _, List.mem_map.mpr ⟨_, hjob, rfl⟩, (resultOf_ids _ after _).1,
          (resultOf_ids _ after _).2, resultOf_read (mutationError_mutated hids hzip)⟩
    · rw [herror] at h
      cases h

/-- What an account returns is about its jobs. -/
theorem turn_ids {results : List Result}
    (h : (applyAndVerifyBatch cfg worker turn jobs customerId).results = .ok results)
    {result : Result} (hresult : result ∈ results) : ∃ job ∈ jobs, result.jobId = job.jobId := by
  by_cases hjobs : jobs = []
  · subst hjobs
    obtain rfl := Except.ok.inj h
    exact absurd hresult List.not_mem_nil
  · rcases @applyAndVerifyBatch_spec cfg worker turn jobs customerId hjobs with
      ⟨-, before, outcomes, after, -, hturn⟩ |
      ⟨-, error, herror⟩
    · rw [hturn] at h
      obtain rfl := Except.ok.inj h
      obtain ⟨job, hjob, rfl⟩ := List.mem_map.mp hresult
      exact ⟨job, hjob, (resultOf_ids _ after job).1⟩
    · rw [herror] at h
      cases h

/-- The turn of an account returns if and only if it has no jobs, or nothing throws. -/
theorem turn_ok_iff : (∃ results,
      (applyAndVerifyBatch cfg worker turn jobs customerId).results = .ok results) ↔
    jobs = [] ∨ turn.Clean cfg worker jobs customerId := by
  by_cases hjobs : jobs = []
  · subst hjobs
    exact iff_of_true ⟨[], rfl⟩ (Or.inl rfl)
  · rcases @applyAndVerifyBatch_spec cfg worker turn jobs customerId hjobs with
      ⟨hclean, before, outcomes, after, -, hturn⟩ |
      ⟨hclean, error, herror⟩
    · rw [hturn]
      exact iff_of_true ⟨_, rfl⟩ (Or.inr hclean)
    · rw [herror]
      exact iff_of_false (fun ⟨_, h⟩ => by cases h) fun h => h.elim hjobs hclean

end Turns

/-! ## The loop over the accounts -/

section Accounts

variable {cfg : Config} {worker : Worker} {env : Environment} {jobs : List Job}

/-- The loop returns if and only if the turn of every account does. -/
theorem visit_ok_iff (accounts : List String) :
    (∃ results, (visit cfg worker env jobs accounts).results = .ok results) ↔
      ∀ customerId ∈ accounts, group jobs customerId = [] ∨
        (env.turn customerId).Clean cfg worker (group jobs customerId) customerId := by
  induction accounts with
  | nil => exact iff_of_true ⟨[], rfl⟩ fun _ h => absurd h List.not_mem_nil
  | cons customerId accounts ih =>
    rw [List.forall_mem_cons, ← ih, ← turn_ok_iff, visit]
    dsimp only
    cases hhere : (applyAndVerifyBatch cfg worker (env.turn customerId) (group jobs customerId)
        customerId).results with
    | error error =>
      dsimp only
      rw [hhere]
      exact iff_of_false (fun ⟨_, h⟩ => by cases h) fun ⟨⟨_, h⟩, _⟩ => by cases h
    | ok results =>
      dsimp only
      constructor
      · rintro ⟨all, hall⟩
        obtain ⟨later, hlater, -⟩ := map_eq_ok.mp hall
        exact ⟨⟨results, rfl⟩, later, hlater⟩
      · rintro ⟨-, later, hlater⟩
        exact ⟨results ++ later, map_eq_ok.mpr ⟨later, hlater, rfl⟩⟩

/-- What was mutated was mutated in the turn of an account. -/
theorem visit_mutated {accounts : List String} {job : Job}
    (h : job ∈ (visit cfg worker env jobs accounts).mutated) :
    ∃ customerId ∈ accounts, job ∈ (applyAndVerifyBatch cfg worker (env.turn customerId)
      (group jobs customerId) customerId).mutated := by
  induction accounts with
  | nil => exact absurd h List.not_mem_nil
  | cons customerId accounts ih =>
    rw [visit] at h
    dsimp only at h
    split at h
    · exact ⟨customerId, List.mem_cons_self, h⟩
    · rcases List.mem_append.mp h with hhere | hlater
      · exact ⟨customerId, List.mem_cons_self, hhere⟩
      · obtain ⟨customerId', hmem, hmutated⟩ := ih hlater
        exact ⟨customerId', List.mem_cons_of_mem _ hmem, hmutated⟩

/-- The loop keeps what the turn of each account attempted and returned. -/
theorem visit_keeps {accounts : List String} {all : List Result}
    (h : (visit cfg worker env jobs accounts).results = .ok all) {customerId : String}
    (hmem : customerId ∈ accounts) :
    ∃ results, (applyAndVerifyBatch cfg worker (env.turn customerId) (group jobs customerId)
        customerId).results = .ok results ∧ (∀ result ∈ results, result ∈ all) ∧
      ∀ job ∈ (applyAndVerifyBatch cfg worker (env.turn customerId) (group jobs customerId)
        customerId).attempted, job ∈ (visit cfg worker env jobs accounts).attempted := by
  induction accounts generalizing all with
  | nil => exact absurd hmem List.not_mem_nil
  | cons first accounts ih =>
    rw [visit] at h ⊢
    dsimp only at h ⊢
    cases hhere : (applyAndVerifyBatch cfg worker (env.turn first) (group jobs first)
        first).results with
    | error error =>
      rw [hhere] at h
      dsimp only at h
      rw [hhere] at h
      cases h
    | ok results =>
      rw [hhere] at h
      obtain ⟨later, hlater, rfl⟩ := map_eq_ok.mp h
      rcases List.mem_cons.mp hmem with rfl | hrest
      · refine ⟨results, hhere, fun result hresult => List.mem_append_left _ hresult, ?_⟩
        exact fun job hjob => List.mem_append_left _ hjob
      · obtain ⟨results', hturn, hresults, hattempted⟩ := ih hlater hrest
        refine ⟨results', hturn, fun result hresult => List.mem_append_right _ (hresults _ hresult),
          ?_⟩
        exact fun job hjob => List.mem_append_right _ (hattempted job hjob)

theorem mem_group {job : Job} (h : job ∈ jobs) : job ∈ group jobs (digits job.customerId) :=
  List.mem_filter.mpr ⟨h, decide_eq_true rfl⟩

theorem of_mem_group {job : Job} {customerId : String} (h : job ∈ group jobs customerId) :
    job ∈ jobs ∧ digits job.customerId = customerId := by
  obtain ⟨hmem, hid⟩ := List.mem_filter.mp h
  exact ⟨hmem, of_decide_eq_true hid⟩

theorem group_nodup (h : (jobs.map (·.jobId)).Nodup) (customerId : String) :
    ((group jobs customerId).map (·.jobId)).Nodup :=
  h.sublist (List.filter_sublist.map _)

/-- The lease of what was mutated was current. -/
theorem mutated_current {customerId : String} {job : Job}
    (h : job ∈ (applyAndVerifyBatch cfg worker (env.turn customerId) (group jobs customerId)
      customerId).mutated) : job ∈ jobs ∧ Current cfg worker env job := by
  obtain ⟨hmem, hrenewed⟩ := mutated_renewed h
  obtain ⟨hjob, rfl⟩ := of_mem_group hmem
  exact ⟨hjob, hrenewed job hmem⟩

/-- A job of an account that is not linked is reported. -/
theorem unlinked_reported {job : Job} (hjob : job ∈ jobs)
    (h : digits job.customerId ∉ env.linked) :
    ∃ result ∈ unlinked env jobs, result.jobId = job.jobId ∧
      result.leaseToken = job.leaseToken := by
  refine ⟨failedResult job ("Child account " ++ digits job.customerId ++
    " is not linked to this MCC"), List.mem_flatMap.mpr ⟨digits job.customerId, ?_, ?_⟩, rfl, rfl⟩
  · refine List.mem_filter.mpr ⟨List.mem_eraseDups.mpr ?_, decide_eq_true h⟩
    exact List.mem_map.mpr ⟨job, hjob, rfl⟩
  · exact List.mem_map.mpr ⟨job, mem_group hjob, rfl⟩

end Accounts

/-! ## Batches -/

section Batches

variable {cfg : Config} {worker : Worker} {env : Environment} {batch : Batch}

/-- If no lease is current, nothing is asked. -/
theorem reported_of_stale {reachable : List String} {x : Execution}
    (hmutated : ∀ job ∈ x.mutated, job ∈ batch.jobs ∧ Current cfg worker env job)
    (h : ∀ job ∈ batch.jobs, ¬Current cfg worker env job) :
    batch.Reported cfg worker env reachable x where
  mutated job hjob := absurd (hmutated job hjob).2 (h job (hmutated job hjob).1)
  current job hjob hcurrent := absurd hcurrent (h job hjob)

/-- If something throws, nothing is acknowledged. -/
theorem stale_of_reported {reachable : List String} {x : Execution}
    (herror : ¬∃ results, x.results = .ok results)
    (h : batch.Reported cfg worker env reachable x) :
    ∀ job ∈ batch.jobs, ¬Current cfg worker env job := by
  intro job hjob hcurrent
  obtain ⟨-, result, hresult, -⟩ := h.current job hjob hcurrent
  unfold Execution.acknowledged at hresult
  split at hresult
  · rename_i results hresults
    exact herror ⟨results, hresults⟩
  · exact absurd hresult List.not_mem_nil

/-- The fleet's batch returns if and only if there are not too many accounts, and nothing throws in
the turn of one. -/
theorem executeFleetBatch_ok_iff (jobs : List Job) :
    (∃ results, (executeFleetBatch cfg worker env jobs).results = .ok results) ↔
      (accountIds jobs).length ≤ 50 ∧ ∀ customerId ∈ env.linked, group jobs customerId = [] ∨
        (env.turn customerId).Clean cfg worker (group jobs customerId) customerId := by
  unfold executeFleetBatch
  by_cases hlength : 50 < (accountIds jobs).length
  · rw [if_pos hlength]
    exact iff_of_false (fun ⟨_, h⟩ => by cases h) fun h => absurd h.1 (Nat.not_le.mpr hlength)
  · rw [if_neg hlength, ← visit_ok_iff]
    dsimp only
    constructor
    · rintro ⟨all, hall⟩
      obtain ⟨results, hresults, -⟩ := map_eq_ok.mp hall
      exact ⟨Nat.not_lt.mp hlength, results, hresults⟩
    · rintro ⟨-, results, hresults⟩
      exact ⟨results ++ unlinked env jobs, map_eq_ok.mpr ⟨results, hresults, rfl⟩⟩

theorem fleet_mutated {jobs : List Job} {job : Job}
    (h : job ∈ (executeFleetBatch cfg worker env jobs).mutated) :
    ∃ customerId ∈ env.linked, job ∈ (applyAndVerifyBatch cfg worker (env.turn customerId)
      (group jobs customerId) customerId).mutated := by
  unfold executeFleetBatch at h
  split at h
  · cases h
  · exact visit_mutated h

/-- **A batch that returns** reports everything. -/
theorem fleet_reported {all : List Result}
    (h : (executeFleetBatch cfg worker env batch.jobs).results = .ok all) :
    batch.Reported cfg worker env env.linked (executeFleetBatch cfg worker env batch.jobs) := by
  have hacknowledged : (executeFleetBatch cfg worker env batch.jobs).acknowledged = all := by
    unfold Execution.acknowledged
    rw [h]
  have hlength : ¬50 < (accountIds batch.jobs).length :=
    Nat.not_lt.mpr ((executeFleetBatch_ok_iff batch.jobs).mp ⟨all, h⟩).1
  have hbatch : executeFleetBatch cfg worker env batch.jobs =
      { visit cfg worker env batch.jobs env.linked with
        results := (visit cfg worker env batch.jobs env.linked).results.map fun results =>
          results ++ unlinked env batch.jobs } := by
    unfold executeFleetBatch
    rw [if_neg hlength]
  obtain ⟨visited, hvisited, hall⟩ : ∃ visited,
      (visit cfg worker env batch.jobs env.linked).results = .ok visited ∧
        visited ++ unlinked env batch.jobs = all := by
    rw [hbatch] at h
    exact map_eq_ok.mp h
  constructor
  · intro job hjob
    obtain ⟨customerId, hlinked, hmutated⟩ := fleet_mutated hjob
    obtain ⟨results, hturn, hresults, -⟩ := visit_keeps hvisited hlinked
    have hreports := (turn_reported (group_nodup batch.nodup customerId) hturn).2 job hmutated
    obtain ⟨-, hid⟩ := of_mem_group (mutated_renewed hmutated).1
    rw [hacknowledged, hid]
    obtain ⟨rows, hrows, result, hresult, hsays⟩ := hreports
    exact ⟨rows, hrows, result, hall ▸ List.mem_append_left _ (hresults result hresult), hsays⟩
  · intro job hjob _
    rw [hacknowledged]
    by_cases hlinked : digits job.customerId ∈ env.linked
    · obtain ⟨results, hturn, hresults, hattempted⟩ := visit_keeps hvisited hlinked
      obtain ⟨hattempt, result, hresult, hids⟩ :=
        (turn_reported (group_nodup batch.nodup _) hturn).1 job (mem_group hjob)
      refine ⟨fun _ => ?_, result, hall ▸ List.mem_append_left _ (hresults result hresult), hids⟩
      rw [hbatch]
      exact hattempted job hattempt
    · obtain ⟨result, hresult, hids⟩ := unlinked_reported hjob hlinked
      exact ⟨fun h => absurd h hlinked, result, hall ▸ List.mem_append_right _ hresult, hids⟩

theorem fleet_reported_iff :
    batch.Reported cfg worker env env.linked (executeFleetBatch cfg worker env batch.jobs) ↔
      ((accountIds batch.jobs).length ≤ 50 ∧ ∀ customerId ∈ env.linked,
        group batch.jobs customerId = [] ∨
          (env.turn customerId).Clean cfg worker (group batch.jobs customerId) customerId) ∨
      ∀ job ∈ batch.jobs, ¬Current cfg worker env job := by
  rw [← executeFleetBatch_ok_iff]
  constructor
  · intro h
    by_cases hreturns : ∃ results,
        (executeFleetBatch cfg worker env batch.jobs).results = .ok results
    · exact Or.inl hreturns
    · exact Or.inr (stale_of_reported hreturns h)
  · rintro (⟨all, hall⟩ | hstale)
    · exact fleet_reported hall
    · refine reported_of_stale (fun job hjob => ?_) hstale
      obtain ⟨customerId, -, hmutated⟩ := fleet_mutated hjob
      exact mutated_current hmutated

/-- **The batch of one account**. -/
theorem account_reported_iff (customerId : String) :
    batch.Reported cfg worker env [customerId]
        (executeCurrentAccountBatch cfg worker env batch.jobs customerId) ↔
      ((group batch.jobs customerId = [] ∨
          (env.turn customerId).Clean cfg worker (group batch.jobs customerId) customerId) ∧
        ∀ job ∈ batch.jobs, Current cfg worker env job → digits job.customerId = customerId) ∨
      ∀ job ∈ batch.jobs, ¬Current cfg worker env job := by
  rw [← turn_ok_iff]
  constructor
  · intro h
    by_cases hreturns : ∃ results,
        (executeCurrentAccountBatch cfg worker env batch.jobs customerId).results = .ok results
    · refine Or.inl ⟨hreturns, fun job hjob hcurrent => ?_⟩
      obtain ⟨results, hresults⟩ := hreturns
      obtain ⟨-, result, hresult, hid, -⟩ := h.current job hjob hcurrent
      unfold Execution.acknowledged at hresult
      rw [hresults] at hresult
      obtain ⟨job', hgroup, hid'⟩ := turn_ids hresults hresult
      obtain ⟨hjob', hcustomer⟩ := of_mem_group hgroup
      rw [List.inj_on_of_nodup_map batch.nodup hjob hjob' (hid.symm.trans hid')]
      exact hcustomer
    · exact Or.inr (stale_of_reported hreturns h)
  · rintro (⟨⟨results, hresults⟩, hcustomer⟩ | hstale)
    · have hacknowledged : (executeCurrentAccountBatch cfg worker env batch.jobs
          customerId).acknowledged = results := by
        unfold Execution.acknowledged executeCurrentAccountBatch
        rw [hresults]
      have hreports := turn_reported (group_nodup batch.nodup customerId) hresults
      constructor
      · intro job hjob
        obtain ⟨-, hid⟩ := of_mem_group (mutated_renewed hjob).1
        rw [hacknowledged, hid]
        exact hreports.2 job hjob
      · intro job hjob hcurrent
        have hgroup : job ∈ group batch.jobs customerId := by
          rw [← hcustomer job hjob hcurrent]
          exact mem_group hjob
        rw [hacknowledged]
        exact ⟨fun _ => (hreports.1 job hgroup).1, (hreports.1 job hgroup).2⟩
    · exact reported_of_stale (fun job hjob => mutated_current hjob) hstale

end Batches

/-- **A batch strands no job**, given to the manager's script or to the script of an account, if and
only if nothing throws in the turn of an account (a stale lease among its jobs does), or no lease of
the batch is current; and the manager's has at most fifty accounts, and the account's has no current
lease of another account. -/
theorem batch_reported_iff (cfg : Config) (worker : Worker) (env : Environment) (batch : Batch)
    (customerId : String) :
    (batch.Reported cfg worker env env.linked (executeFleetBatch cfg worker env batch.jobs) ↔
      ((accountIds batch.jobs).length ≤ 50 ∧ ∀ customerId ∈ env.linked,
        group batch.jobs customerId = [] ∨
          (env.turn customerId).Clean cfg worker (group batch.jobs customerId) customerId) ∨
      ∀ job ∈ batch.jobs, ¬Current cfg worker env job) ∧
    (batch.Reported cfg worker env [customerId]
        (executeCurrentAccountBatch cfg worker env batch.jobs customerId) ↔
      ((group batch.jobs customerId = [] ∨
          (env.turn customerId).Clean cfg worker (group batch.jobs customerId) customerId) ∧
        ∀ job ∈ batch.jobs, Current cfg worker env job → digits job.customerId = customerId) ∨
      ∀ job ∈ batch.jobs, ¬Current cfg worker env job) :=
  ⟨fleet_reported_iff, account_reported_iff customerId⟩

/-! ## A stranded job

The lease of the second account's job has become stale. -/

namespace Sample

/-- The job "job1" is leased to the worker. -/
def leased : Store :=
  ((fleet Config.sample).run Fleet.initial (LinkSuffix.Sample.register 1 ::
    LinkSuffix.Sample.enqueue 2 "a=1" 1 1 "job1" ++ [LinkSuffix.Sample.lease 3 "token1"])).store

def worker : Worker := ⟨LinkSuffix.Sample.shard, "w"⟩

/-- A turn in which every operation succeeds. -/
def turn (store : Store) (campaignId before after : String) : Turn where
  store := store
  now := 4
  before := .ok [(campaignId, before)]
  after := .ok [(campaignId, after)]
  mutateAll operations := .ok (operations.map fun _ => none)

def env : Environment where
  linked := ["2222222222", "4444444444"]
  turn customerId :=
    if customerId = "2222222222" then turn leased "33333333" "a=0" "a=1"
    else turn Fleet.initial.store "55555555" "b=0" "b=0"

def batch : Batch where
  jobs := [⟨"job1", "token1", "2222222222", "33333333", "a=1"⟩,
    ⟨"job2", "token2", "4444444444", "55555555", "b=1"⟩]
  nodup := by decide

end Sample

/-- **Stranded.** The suffix of the first account's campaign is applied, and nothing is
acknowledged. -/
theorem stale_lease_strands :
    ¬Sample.batch.Reported Config.sample Sample.worker Sample.env Sample.env.linked
        (executeFleetBatch Config.sample Sample.worker Sample.env Sample.batch.jobs) ∧
      (executeFleetBatch Config.sample Sample.worker Sample.env Sample.batch.jobs).mutated.map
        (·.jobId) = ["job1"] ∧
      (executeFleetBatch Config.sample Sample.worker Sample.env Sample.batch.jobs).acknowledged =
        [] := by
  have hmutated : (executeFleetBatch Config.sample Sample.worker Sample.env
      Sample.batch.jobs).mutated.map (·.jobId) = ["job1"] := by
    decide +kernel
  have hacknowledged : (executeFleetBatch Config.sample Sample.worker Sample.env
      Sample.batch.jobs).acknowledged = [] := by
    decide +kernel
  refine ⟨fun h => ?_, hmutated, hacknowledged⟩
  obtain ⟨job, hjob, -⟩ := List.mem_map.mp (hmutated ▸ List.mem_singleton_self "job1")
  obtain ⟨rows, -, result, hresult, -⟩ := h.mutated job hjob
  rw [hacknowledged] at hresult
  exact absurd hresult List.not_mem_nil

end LinkSuffix.FleetBatch
