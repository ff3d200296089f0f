import LinkSuffix.Contracts.DeliverySuffix
import LinkSuffix.Store.Enrollment
import Mathlib.Data.List.Sort

/-!
# The delivery queue

The transactions of `script-bridge-store.ts` that queue, lease and acknowledge captures. Each is
one atomic `Work` on the store; `now` is the transaction's start, the value `now()` has in all of
its statements. What a statement writes to a job row is a function on the row
(`DeliveryJob.revive`, `.requeue`, `.expire`, `.kill`, `.grant`, `.verify`, `.refuse`, `.renew`).
-/

namespace LinkSuffix

open Lib

/-! ## Job rows -/

namespace DeliveryJob

/-- `ON CONFLICT` of `enqueueBridgeCapture`: a dead job is pending again. -/
def revive (j : DeliveryJob) : DeliveryJob :=
  if j.state = .dead then { j with state := .pending } else j

/-- `ON CONFLICT` of `queueLatestBridgeCapture`: a dead or superseded job starts over. -/
def requeue (now : Nat) (j : DeliveryJob) : DeliveryJob :=
  if j.state = .dead ∨ j.state = .superseded then
    { j with
      state := .pending, attemptCount := 0, availableAt := now, leasedAt := none
      leasedUntil := none, leaseTokenHash := none, workerId := none, lastError := none }
  else j

/-- The delay in seconds before an expired job is leased again. -/
def expiryDelay (attemptCount : Nat) : Nat := min 3600 (2 ^ attemptCount * 10)

/-- An expired lease is taken back. -/
def expire (cfg : Config) (now : Nat) (j : DeliveryJob) : DeliveryJob :=
  { j with
    state := if cfg.maxAttempts ≤ j.attemptCount then .dead else .failed
    availableAt :=
      if cfg.maxAttempts ≤ j.attemptCount then j.availableAt
      else now + expiryDelay j.attemptCount * 1000
    leasedAt := none, leasedUntil := none, leaseTokenHash := none, workerId := none
    lastError := some (j.lastError.getD "Lease expired") }

/-- A candidate whose suffix cannot be delivered. -/
def kill (issue : String) (j : DeliveryJob) : DeliveryJob :=
  { j with
    state := .dead, lastError := some issue, leasedAt := none, leasedUntil := none
    leaseTokenHash := none, workerId := none }

/-- A candidate handed out. -/
def grant (cfg : Config) (now : Nat) (tokenHash workerId shardId : String) (j : DeliveryJob) :
    DeliveryJob :=
  { j with
    state := .leased, attemptCount := j.attemptCount + 1, leasedAt := some now
    leasedUntil := some (now + cfg.leaseMs), leaseTokenHash := some tokenHash
    workerId := some workerId, leaseShardId := some shardId }

/-- An exact acknowledgement. The token and the worker stay for repeated acknowledgements. -/
def verify (now : Nat) (suffixHash : String) (j : DeliveryJob) : DeliveryJob :=
  { j with
    state := .applied, appliedAt := some now, verifiedSuffixHash := some suffixHash
    lastError := none, leasedAt := none, leasedUntil := none }

/-- The delay in seconds after a failed acknowledgement. -/
def refusalDelay (attemptCount : Nat) : Nat := min 3600 (10 * 2 ^ (attemptCount - 1))

/-- A failed acknowledgement. -/
def refuse (cfg : Config) (now : Nat) (error : String) (j : DeliveryJob) : DeliveryJob :=
  { j with
    state := if cfg.maxAttempts ≤ j.attemptCount then .dead else .failed
    availableAt := now + refusalDelay j.attemptCount * 1000, lastError := some error
    leasedAt := none, leasedUntil := none, leaseTokenHash := none }

/-- A renewed lease. -/
def renew (cfg : Config) (now : Nat) (j : DeliveryJob) : DeliveryJob :=
  { j with leasedUntil := some (now + cfg.leaseMs) }

end DeliveryJob

/-- `INSERT INTO tah_delivery_jobs(job_id,target_id,capture_id)`. -/
def newJob (jobId targetId : String) (captureId now : Nat) : DeliveryJob where
  jobId := jobId
  targetId := targetId
  captureId := captureId
  availableAt := now
  createdAt := now

/-- The job of a capture of a target. -/
def Store.jobOf (s : Store) (targetId : String) (captureId : Nat) : Option DeliveryJob :=
  s.jobs.find? fun j => j.targetId = targetId ∧ j.captureId = captureId

/-- `INSERT … ON CONFLICT (target_id,capture_id) DO UPDATE … RETURNING job_id,state`. -/
def upsertJob (onConflict : DeliveryJob → DeliveryJob) (jobId targetId : String)
    (captureId now : Nat) (s : Store) : DeliveryJob × Store :=
  match s.jobOf targetId captureId with
  | none =>
    (newJob jobId targetId captureId now,
      { s with jobs := s.jobs ++ [newJob jobId targetId captureId now] })
  | some j =>
    (onConflict j, { s with
      jobs := updateWhere (fun j => j.targetId = targetId && j.captureId = captureId) onConflict
        s.jobs })

/-- The waiting jobs of every other capture of a target are superseded. -/
def supersedeOthers (targetId : String) (captureId : Nat) (s : Store) : Store :=
  { s with
    jobs := updateWhere
      (fun j => j.targetId = targetId && j.state.waiting && j.captureId ≠ captureId)
      DeliveryJob.supersede s.jobs }

/-! ## `enqueueBridgeCapture` -/

/-- The input of `enqueueBridgeCapture`. -/
structure CaptureInput extends BridgeTargetInput where
  exactSuffix : String
  version : Option Int := none
  sourceRunId : Option String := none
  deriving DecidableEq

/-- An enqueue between its two transactions. -/
structure CaptureTicket where
  targetId : String
  shardId : String
  exactSuffix : String
  suffixHash : String
  version : Int
  sourceRunId : Option String
  deriving DecidableEq

/-- `input.version && Number.isSafeInteger(input.version) ? input.version : Date.now()`. -/
def captureVersion (version : Option Int) (dateNow : Int) : Int :=
  match version with
  | some v => if v ≠ 0 ∧ v.natAbs < 2 ^ 53 then v else dateNow
  | none => dateNow

/-- `input.sourceRunId || null`. -/
def orNull (value : Option String) : Option String := value.filter (· ≠ "")

/-- `assertDeliverableSuffix`. -/
def assertDeliverableSuffix (value : Option String) : Except StoreError Unit :=
  match value with
  | none => .error (fail "Invalid final URL suffix")
  | some suffix =>
    match deliverySuffixIssue suffix with
    | some issue => .error (fail issue)
    | none => .ok ()

/-- `enqueueBridgeCapture` up to its second transaction: the suffix is checked and the target is
registered again. -/
def beginEnqueue (cfg : Config) (input : CaptureInput) (dateNow : Int) :
    StoreProg CaptureTicket := do
  Prog.lift (assertDeliverableSuffix (some input.exactSuffix))
  let assignment ← upsertBridgeTarget cfg input.toBridgeTargetInput
  return {
    targetId := assignment.targetId
    shardId := assignment.shardId
    exactSuffix := input.exactSuffix
    suffixHash := cfg.digest input.exactSuffix
    version := captureVersion input.version dateNow
    sourceRunId := orNull input.sourceRunId }

/-- The capture row of a ticket. -/
def CaptureTicket.row (ticket : CaptureTicket) (captureId now : Nat) : SuffixCapture where
  captureId := captureId
  targetId := ticket.targetId
  version := ticket.version
  exactSuffix := ticket.exactSuffix
  suffixHash := ticket.suffixHash
  sourceRunId := ticket.sourceRunId
  capturedAt := now

/-- `WHERE target_id=… AND version=…`. -/
def CaptureTicket.names (ticket : CaptureTicket) (c : SuffixCapture) : Bool :=
  c.targetId = ticket.targetId && c.version = ticket.version

/-- `DO UPDATE SET exact_suffix, suffix_hash`. -/
def CaptureTicket.rewrite (ticket : CaptureTicket) (c : SuffixCapture) : SuffixCapture :=
  { c with exactSuffix := ticket.exactSuffix, suffixHash := ticket.suffixHash }

/-- `INSERT INTO tah_suffix_captures … ON CONFLICT (target_id,version) DO UPDATE … RETURNING
capture_id`. `nextval` is the value the insert drew from the sequence. -/
def saveCapture (ticket : CaptureTicket) (nextval now : Nat) (s : Store) : Nat × Store :=
  match s.captures.find? ticket.names with
  | none => (nextval, { s with captures := s.captures ++ [ticket.row nextval now] })
  | some c => (c.captureId, { s with captures := updateWhere ticket.names ticket.rewrite s.captures })

/-- What `enqueueBridgeCapture` returns. -/
structure EnqueueResult where
  targetId : String
  shardId : String
  captureId : Nat
  jobId : String
  state : JobState
  deriving DecidableEq

/-- The second transaction of `enqueueBridgeCapture`. -/
def enqueueCapture (ticket : CaptureTicket) (nextval : Nat) (jobId : String) (now : Nat) :
    Work EnqueueResult := fun s =>
  let saved := saveCapture ticket nextval now s
  let queued := upsertJob DeliveryJob.revive jobId ticket.targetId saved.1 now
    (supersedeOthers ticket.targetId saved.1 saved.2)
  .ok (⟨ticket.targetId, ticket.shardId, saved.1, queued.1.jobId, queued.1.state⟩, queued.2)

/-! ## `queueLatestBridgeCapture` -/

/-- What `queueLatestBridgeCapture` returns. -/
inductive QueueLatestResult where
  | waitingForCapture
  | queued (jobId : String) (state : JobState)
  deriving DecidableEq

/-- `queueLatestBridgeCapture`. -/
def queueLatestBridgeCapture (campaignRecordId jobId : String) (now : Nat) :
    Work QueueLatestResult := fun s =>
  match s.targets.find? fun t => t.campaignRecordId = campaignRecordId ∧ t.enabled with
  | none => .error (fail "Campaign target was not found or is disabled")
  | some t =>
    match s.newestCapture t.targetId with
    | none => .ok (.waitingForCapture, s)
    | some c =>
      let queued := upsertJob (DeliveryJob.requeue now) jobId t.targetId c.captureId now
        (supersedeOthers t.targetId c.captureId s)
      .ok (.queued queued.1.jobId queued.1.state, queued.2)

/-! ## `leaseBridgeJobs` -/

/-- The arguments of `leaseBridgeJobs`, the randomness it draws and the rows it finds locked. -/
structure LeaseRequest where
  shardId : String
  workerId : String
  requestedLimit : Int := 25
  requestedCustomerId : String := ""
  hotAdd : Bool := false
  /-- `randomUUID()` for the missing job of a target. -/
  uuid : String → String
  /-- `randomBytes(32).toString("base64url")` for a candidate job. -/
  token : String → String
  /-- The jobs another transaction has locked (`SKIP LOCKED`). -/
  locked : String → Bool := fun _ => false

namespace LeaseRequest

/-- `Math.max(1, Math.min(MAX_LEASE_JOBS, Math.floor(requestedLimit)))`. -/
def limit (req : LeaseRequest) : Nat := (max 1 (min (maxLeaseJobs : Int) req.requestedLimit)).toNat

def customerId (req : LeaseRequest) : String := normalizeId req.requestedCustomerId

/-- `$2='' OR t.customer_id=$2`. -/
def wants (req : LeaseRequest) (t : CampaignTarget) : Bool :=
  t.enabled && t.shardId = req.shardId && (req.customerId = "" || t.customerId = req.customerId)

end LeaseRequest

/-- `BridgeLease`. -/
structure BridgeLease where
  jobId : String
  leaseToken : String
  campaignRecordId : String
  campaignName : String
  managerCustomerId : String
  customerId : String
  campaignId : String
  exactSuffix : String
  version : Int
  capturedAt : Nat
  deriving DecidableEq

/-- `lockActiveShard`. -/
def lockActiveShard (shardId : String) (s : Store) : Except StoreError Unit :=
  if (s.shard? shardId).any fun shard => shard.enabled && shard.deletedAt = none then .ok ()
  else .error (shardConflict "This shard is disabled, deleted or not registered.")

/-- The newest captures without a job, of the targets the request is for. -/
def Store.missingJobs (s : Store) (req : LeaseRequest) : List (String × Nat) :=
  (s.targets.filter req.wants).filterMap fun t =>
    match s.newestCapture t.targetId with
    | none => none
    | some c => if (s.jobOf t.targetId c.captureId).isSome then none
      else some (t.targetId, c.captureId)

/-- The loop over `missingJobs`. The rows have distinct targets, so no insert meets a conflict. -/
def insertMissing (req : LeaseRequest) (now : Nat) (s : Store) : Store :=
  { s with
    jobs := s.jobs ++ (s.missingJobs req).map fun (targetId, captureId) =>
      newJob (req.uuid targetId) targetId captureId now }

/-- `j.capture_id <> (newest capture of j.target_id)`. -/
def Store.stale (s : Store) (j : DeliveryJob) : Bool :=
  (s.newestCapture j.targetId).any (·.captureId ≠ j.captureId)

/-- Waiting jobs of older captures are superseded, on every shard. -/
def supersedeStale (s : Store) : Store :=
  { s with
    jobs := updateWhere (fun j => j.state.waiting && s.stale j) DeliveryJob.supersede s.jobs }

/-- `state='leased' AND leased_until < now()`. -/
def DeliveryJob.expired (now : Nat) (j : DeliveryJob) : Bool :=
  j.state = .leased && j.leasedUntil.any (· < now)

/-- Expired leases are taken back. `POWER(2,attempt_count)::int*10` can leave the integer range. -/
def reapExpired (cfg : Config) (now : Nat) (s : Store) : Except StoreError Store :=
  if s.jobs.any fun j => j.expired now && j.attemptCount < cfg.maxAttempts
      && 2147483647 < 2 ^ j.attemptCount * 10 then .error (sqlError "22003")
  else .ok { s with
    jobs := updateWhere (DeliveryJob.expired now) (DeliveryJob.expire cfg now) s.jobs }

/-- `t.last_applied_at IS NULL OR t.last_applied_at + min_delivery_interval_ms <= now()`. -/
def CampaignTarget.due (now : Nat) (t : CampaignTarget) : Bool :=
  t.lastAppliedAt.all (· + t.minDeliveryIntervalMs ≤ now)

/-- A row of the candidate query. -/
structure Candidate where
  job : DeliveryJob
  capture : SuffixCapture
  target : CampaignTarget
  deriving DecidableEq

/-- The `WHERE` of `ranked`. -/
def Store.leasable (cfg : Config) (s : Store) (req : LeaseRequest) (now : Nat) (j : DeliveryJob)
    (t : CampaignTarget) : Bool :=
  j.state.waiting && j.availableAt ≤ now && j.attemptCount < cfg.maxAttempts
    && req.wants t
    && (s.newestCapture j.targetId).any (·.captureId = j.captureId)
    && !(s.jobs.any fun active =>
      active.targetId = j.targetId && active.state = .leased && active.jobId ≠ j.jobId)
    && t.due now

/-- The rows of `ranked`, joined with their capture and target. -/
def Store.ranked (cfg : Config) (s : Store) (req : LeaseRequest) (now : Nat) : List Candidate :=
  s.jobs.filterMap fun j =>
    match s.capture? j.captureId, s.target? j.targetId with
    | some c, some t => if s.leasable cfg req now j t then some ⟨j, c, t⟩ else none
    | _, _ => none

/-- `ORDER BY CASE WHEN last_applied_at IS NULL THEN 0 ELSE 1 END, created_at, job_id`. -/
def Candidate.rank (c : Candidate) : Nat ×ₗ Nat ×ₗ String :=
  toLex ((if c.target.lastAppliedAt = none then 0 else 1), toLex (c.job.createdAt, c.job.jobId))

/-- `row_number() OVER (PARTITION BY customer_id ORDER BY …)`. -/
def accountPosition (ranked : List Candidate) (c : Candidate) : Nat :=
  (ranked.filter fun d => d.target.customerId = c.target.customerId ∧ d.rank < c.rank).length + 1

/-- `ORDER BY account_position, created_at, job_id`. -/
def Candidate.turn (ranked : List Candidate) (c : Candidate) : Nat ×ₗ Nat ×ₗ String :=
  toLex (accountPosition ranked c, toLex (c.job.createdAt, c.job.jobId))

/-- The candidates, in the order they are handed out. -/
def Store.candidates (cfg : Config) (s : Store) (req : LeaseRequest) (now : Nat) :
    List Candidate :=
  let ranked := s.ranked cfg req now
  ((ranked.insertionSort fun c d => c.turn ranked ≤ d.turn ranked).filter
    fun c => !req.locked c.job.jobId).take req.limit

/-- The lease handed out for a candidate. -/
def LeaseRequest.lease (req : LeaseRequest) (c : Candidate) : BridgeLease where
  jobId := c.job.jobId
  leaseToken := req.token c.job.jobId
  campaignRecordId := c.target.campaignRecordId
  campaignName := c.target.campaignName
  managerCustomerId := c.target.managerCustomerId
  customerId := c.target.customerId
  campaignId := c.target.googleCampaignId
  exactSuffix := c.capture.exactSuffix
  version := c.capture.version
  capturedAt := c.capture.capturedAt

/-- The loop over the candidates: the suffix is checked once more, then the job is handed out. -/
def leaseLoop (cfg : Config) (req : LeaseRequest) (now : Nat) :
    List Candidate → Store → List BridgeLease × Store
  | [], s => ([], s)
  | c :: cs, s =>
    match deliverySuffixIssue c.capture.exactSuffix with
    | some issue =>
      leaseLoop cfg req now cs
        { s with jobs := updateKey (·.jobId) c.job.jobId (DeliveryJob.kill issue) s.jobs }
    | none =>
      let (leases, s') := leaseLoop cfg req now cs { s with
        jobs := updateKey (·.jobId) c.job.jobId
          (DeliveryJob.grant cfg now (cfg.digest (req.token c.job.jobId)) req.workerId req.shardId)
          s.jobs }
      (req.lease c :: leases, s')

/-- `UPDATE tah_script_shards SET … WHERE shard_id=$1`. -/
def updateShard (shardId : String) (f : ScriptShard → ScriptShard) (s : Store) : Store :=
  { s with shards := updateKey (·.shardId) shardId f s.shards }

/-- `INSERT INTO tah_script_account_activity … ON CONFLICT DO UPDATE`. -/
def saveActivity (shardId workerId : String) (now : Nat) (s : Store) (customerId : String) :
    Store :=
  if s.accountActivity.any fun a => a.shardId = shardId && a.customerId = customerId then
    { s with
      accountActivity := updateWhere (fun a => a.shardId = shardId && a.customerId = customerId)
        (fun a => { a with lastPollAt := some now, workerId := some workerId }) s.accountActivity }
  else { s with accountActivity := s.accountActivity ++ [⟨shardId, customerId, now, workerId⟩] }

/-- The customers whose readiness a poll records. -/
def Store.polledCustomers (s : Store) (req : LeaseRequest) : List String :=
  let active := ((s.targets.filter fun t =>
    t.enabled ∧ t.archivedAt = none ∧ t.shardId = req.shardId).map (·.customerId)).dedup
  if req.customerId ≠ "" then active.filter (· = req.customerId)
  else if req.hotAdd then active
  else []

/-- The statements after the loop: the shard has polled, and so have its customers. -/
def recordPoll (req : LeaseRequest) (now : Nat) (s : Store) : Store :=
  let s1 := updateShard req.shardId (fun shard => { shard with lastPollAt := some now }) s
  (s1.polledCustomers req).foldl (saveActivity req.shardId req.workerId now) s1

/-- `leaseBridgeJobs`. -/
def leaseBridgeJobs (cfg : Config) (req : LeaseRequest) (now : Nat) : Work (List BridgeLease) :=
  fun s =>
  if req.customerId ≠ "" ∧ ¬ isDigits 10 10 req.customerId then
    .error (fail "A valid 10-digit customer filter is required")
  else
    match lockActiveShard req.shardId s with
    | .error e => .error e
    | .ok () =>
      match reapExpired cfg now (supersedeStale (insertMissing req now s)) with
      | .error e => .error e
      | .ok s1 =>
        let (leases, s2) := leaseLoop cfg req now (s1.candidates cfg req now) s1
        .ok (leases, recordPoll req now s2)

/-! ## `acknowledgeBridgeJob` -/

/-- The input of `acknowledgeBridgeJob`. -/
structure AckInput where
  shardId : String
  workerId : String
  jobId : String
  leaseToken : String
  ok : Bool
  appliedSuffix : Option String := none
  error : Option String := none
  deriving DecidableEq

/-- What `acknowledgeBridgeJob` returns. -/
structure AckResult where
  ok : Bool
  state : String
  reason : Option String := none
  idempotent : Bool := false
  deriving DecidableEq

/-- The row the acknowledgement locks: the job, if its target is on the shard now. -/
def Store.ackRow (s : Store) (input : AckInput) : Option (DeliveryJob × SuffixCapture) :=
  match s.job? input.jobId with
  | none => none
  | some j =>
    match s.capture? j.captureId, s.target? j.targetId with
    | some c, some t => if t.shardId = input.shardId then some (j, c) else none
    | _, _ => none

/-- `row.worker_id === input.workerId && row.lease_token_hash === digest(input.leaseToken)`. -/
def DeliveryJob.heldBy (cfg : Config) (j : DeliveryJob) (workerId leaseToken : String) : Bool :=
  j.workerId = some workerId && j.leaseTokenHash = some (cfg.digest leaseToken)

/-- `input.ok && … && digest(input.appliedSuffix) === row.suffix_hash`. -/
def AckInput.exactMatch (cfg : Config) (input : AckInput) (c : SuffixCapture) : Bool :=
  input.ok && input.appliedSuffix.any (cfg.digest · = c.suffixHash)

/-- `input.error || fallback`. -/
def AckInput.errorOr (input : AckInput) (fallback : String) : String :=
  (orNull input.error).getD fallback

/-- The acknowledgement of a leased job. -/
def acknowledgeLeased (cfg : Config) (input : AckInput) (now : Nat) (j : DeliveryJob)
    (c : SuffixCapture) (s : Store) : AckResult × Store :=
  if input.exactMatch cfg c then
    (⟨true, "applied", none, false⟩,
      updateShard input.shardId
        (fun shard => { shard with lastAckAt := some now, lastError := none })
        { s with
          jobs := updateKey (·.jobId) input.jobId (DeliveryJob.verify now c.suffixHash) s.jobs
          targets := updateKey (·.targetId) j.targetId
            (fun t => { t with
              lastAppliedAt := some now, lastAppliedSuffixHash := some c.suffixHash }) s.targets })
  else
    (⟨false, if cfg.maxAttempts ≤ j.attemptCount then "dead" else "failed", none, false⟩,
      updateShard input.shardId
        (fun shard => { shard with
          lastAckAt := some now, lastError := some (input.errorOr "Verification mismatch") })
        { s with
          jobs := updateKey (·.jobId) input.jobId
            (DeliveryJob.refuse cfg now (sliceTo 2000
              (input.errorOr "Google Ads verification did not return the exact suffix"))) s.jobs })

/-- `acknowledgeBridgeJob`. -/
def acknowledgeBridgeJob (cfg : Config) (input : AckInput) (now : Nat) : Work AckResult := fun s =>
  match if input.ok then assertDeliverableSuffix input.appliedSuffix else .ok () with
  | .error e => .error e
  | .ok () =>
    match s.ackRow input with
    | none => .ok (⟨false, "stale", some "Delivery job no longer exists", false⟩, s)
    | some (j, c) =>
      if ¬ j.heldBy cfg input.workerId input.leaseToken then
        .ok (⟨false, "stale", some "Delivery lease has been reassigned", false⟩, s)
      else if j.state = .applied then
        if j.verifiedSuffixHash = some c.suffixHash then
          .ok (⟨true, "applied", none, true⟩,
            updateShard input.shardId
              (fun shard => { shard with lastAckAt := some now, lastError := none }) s)
        else
          .ok (⟨false, "conflict",
            some "Applied job is missing exact verification evidence", false⟩, s)
      else if j.state ≠ .leased then
        .ok (⟨false, "stale", some ("Delivery job is " ++ j.state.text), false⟩, s)
      else .ok (acknowledgeLeased cfg input now j c s)

/-! ## `renewBridgeLeases` -/

/-- One entry of a renewal. -/
structure LeaseRef where
  jobId : String
  leaseToken : String
  deriving DecidableEq

/-- The input of `renewBridgeLeases`. -/
structure RenewInput where
  shardId : String
  workerId : String
  leases : List LeaseRef
  deriving DecidableEq

/-- What `renewBridgeLeases` returns. -/
structure RenewResult where
  renewedJobIds : List String
  staleJobIds : List String
  leaseDurationMs : Nat
  deriving DecidableEq

/-- The `WHERE` of the renewal of one entry. -/
def Store.renewable (cfg : Config) (s : Store) (input : RenewInput) (lease : LeaseRef)
    (j : DeliveryJob) : Bool :=
  j.jobId = lease.jobId && (s.target? j.targetId).any (·.shardId = input.shardId)
    && j.state = .leased && j.heldBy cfg input.workerId lease.leaseToken

/-- The loop over the entries. -/
def renewLoop (cfg : Config) (input : RenewInput) (now : Nat) :
    List LeaseRef → Store → (List String × List String) × Store
  | [], s => (([], []), s)
  | lease :: leases, s =>
    let renewed := s.jobs.any (s.renewable cfg input lease)
    let ((renewedJobIds, staleJobIds), s') := renewLoop cfg input now leases { s with
      jobs := updateWhere (s.renewable cfg input lease) (DeliveryJob.renew cfg now) s.jobs }
    if renewed then ((lease.jobId :: renewedJobIds, staleJobIds), s')
    else ((renewedJobIds, lease.jobId :: staleJobIds), s')

/-- `renewBridgeLeases`. -/
def renewBridgeLeases (cfg : Config) (input : RenewInput) (now : Nat) : Work RenewResult := fun s =>
  let ((renewedJobIds, staleJobIds), s1) :=
    renewLoop cfg input now (input.leases.take maxLeaseJobs) s
  .ok (⟨renewedJobIds, staleJobIds, cfg.leaseMs⟩,
    updateShard input.shardId (fun shard => { shard with lastPollAt := some now }) s1)

end LinkSuffix
