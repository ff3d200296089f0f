import LinkSuffix.Lib.Run
import LinkSuffix.Store.Delivery

/-!
# The Fleet as an event system

Every event is one transaction that any client may run next: `now` is its start on the database
clock and `committedAt` its end. `enqueueBridgeCapture` is two transactions; between them its
ticket is in flight, and any other event may happen. A failed transaction changes no row.

* `Event.work`: the transaction of an event.
* `fleet cfg`: the event system; `Fleet.initial` has no rows.
* `next_store`: an event leaves the store its transaction committed, or the one it found.
-/

namespace LinkSuffix

open Lib

/-- The calls, one per transaction, with the randomness each draws. -/
inductive Call where
  | upsertBridgeTarget (input : BridgeTargetInput)
  | beginEnqueue (input : CaptureInput) (dateNow : Int)
  | enqueueCapture (ticket : CaptureTicket) (nextval : Nat) (jobId : String)
  | queueLatestBridgeCapture (campaignRecordId jobId : String)
  | registerBridgeShard (shardId rawToken requestedManager : String)
  | deleteBridgeShard (shardId confirmedShardId randomToken : String) (dateNow : Nat)
  | leaseBridgeJobs (req : LeaseRequest)
  | acknowledgeBridgeJob (input : AckInput)
  | renewBridgeLeases (input : RenewInput)
  | setBridgeTargetEnabled (campaignRecordId : String) (enabled : Bool)
  | deleteBridgeTarget (input : DeleteTargetInput)

/-- What a call returns. -/
inductive Reply where
  | assignment (a : Assignment)
  | ticket (t : CaptureTicket)
  | enqueued (r : EnqueueResult)
  | queued (r : QueueLatestResult)
  | shard (r : ShardIdentity)
  | shardDeleted (r : ShardDeletion)
  | leases (ls : List BridgeLease)
  | ack (r : AckResult)
  | renewed (r : RenewResult)
  | done
  | targetDeleted (t : Option CampaignTarget)
  deriving DecidableEq

/-- A transaction: what it does, when it starts and when it commits. -/
structure Event where
  now : Nat
  committedAt : Nat
  call : Call

/-- The result of some work as a reply. -/
def Work.reply {α : Type} (work : Work α) (wrap : α → Reply) : Work Reply := fun s =>
  match work s with
  | .error e => .error e
  | .ok (a, s') => .ok (wrap a, s')

/-- The transaction of an event. -/
def Event.work (cfg : Config) (e : Event) : Work Reply :=
  match e.call with
  | .upsertBridgeTarget input => Work.reply (upsertBridgeTarget cfg input).run .assignment
  | .beginEnqueue input dateNow => Work.reply (beginEnqueue cfg input dateNow).run .ticket
  | .enqueueCapture ticket nextval jobId =>
    Work.reply (enqueueCapture ticket nextval jobId e.now) .enqueued
  | .queueLatestBridgeCapture campaignRecordId jobId =>
    Work.reply (queueLatestBridgeCapture campaignRecordId jobId e.now) .queued
  | .registerBridgeShard shardId rawToken requestedManager =>
    Work.reply (registerBridgeShard cfg shardId rawToken requestedManager).run .shard
  | .deleteBridgeShard shardId confirmedShardId randomToken dateNow =>
    Work.reply (deleteBridgeShard cfg shardId confirmedShardId randomToken e.now dateNow).run
      .shardDeleted
  | .leaseBridgeJobs req => Work.reply (leaseBridgeJobs cfg req e.now) .leases
  | .acknowledgeBridgeJob input => Work.reply (acknowledgeBridgeJob cfg input e.now) .ack
  | .renewBridgeLeases input => Work.reply (renewBridgeLeases cfg input e.now) .renewed
  | .setBridgeTargetEnabled campaignRecordId enabled =>
    Work.reply (setBridgeTargetEnabled campaignRecordId enabled).run fun _ => .done
  | .deleteBridgeTarget input => Work.reply (deleteBridgeTarget input) .targetDeleted

/-- The committed store and the enqueues between their two transactions. -/
structure Fleet where
  db : Database
  inFlight : List CaptureTicket

namespace Fleet

/-- The rows. -/
def store (f : Fleet) : Store := f.db.store

def initial : Fleet := ⟨Database.empty, []⟩

end Fleet

/-- A second transaction of an enqueue runs only after its first. -/
def Event.enabled (f : Fleet) (e : Event) : Bool :=
  match e.call with
  | .enqueueCapture ticket _ _ => ticket ∈ f.inFlight
  | _ => true

/-- The tickets in flight after an event. -/
def Event.inFlight (e : Event) (reply : Except StoreError Reply) (tickets : List CaptureTicket) :
    List CaptureTicket :=
  match e.call, reply with
  | .beginEnqueue _ _, .ok (.ticket ticket) => tickets ++ [ticket]
  | .enqueueCapture ticket _ _, _ => tickets.erase ticket
  | _, _ => tickets

/-- The error a caller sees. -/
def Event.rethrow (e : Event) (error : StoreError) : StoreError :=
  match e.call with
  | .upsertBridgeTarget _ | .beginEnqueue _ _ => mapUniqueViolation error
  | _ => error

/-- One event: the transaction commits, or nothing happens to the rows. -/
def stepFleet (cfg : Config) (f : Fleet) (e : Event) : Fleet × Except StoreError Reply :=
  if e.enabled f then
    match transaction (e.work cfg) f.db with
    | .ok (r, d) => (⟨d, e.inFlight (.ok r) f.inFlight⟩, .ok r)
    | .error error => (⟨f.db, e.inFlight (.error error) f.inFlight⟩, .error (e.rethrow error))
  else (f, .error (fail "not in flight"))

/-- The Fleet. -/
def fleet (cfg : Config) : EventSystem Fleet Event (Except StoreError Reply) where
  step := stepFleet cfg

/-- A state some run reaches. -/
def Reachable (cfg : Config) (f : Fleet) : Prop := ∃ es, f = (fleet cfg).run Fleet.initial es

variable {cfg : Config} {f : Fleet} {e : Event}

theorem store_unique (f : Fleet) : f.store.Unique := f.db.unique

theorem store_references (f : Fleet) : f.store.References := f.db.references

/-- The transaction of an event commits: its reply and the store it leaves. -/
def Commits (cfg : Config) (f : Fleet) (e : Event) (r : Reply) : Prop :=
  (fleet cfg).reply f e = .ok r

/-- A committed event leaves what its work left. -/
theorem Commits.work {r : Reply} (h : Commits cfg f e r) :
    e.enabled f = true ∧ e.work cfg f.store = .ok (r, ((fleet cfg).next f e).store) := by
  unfold Commits EventSystem.reply fleet stepFleet at h
  unfold EventSystem.next fleet stepFleet
  by_cases he : e.enabled f = true
  · simp only [he, if_true] at h ⊢
    cases ht : transaction (e.work cfg) f.db with
    | error err =>
      rw [ht] at h
      exact absurd h (by simp)
    | ok rd =>
      obtain ⟨r', d⟩ := rd
      rw [ht] at h
      simp only [Except.ok.injEq] at h
      subst h
      exact ⟨trivial, transaction_ok ht⟩
  · simp only [he] at h
    exact absurd h (by simp)

/-- **An event commits, or leaves the rows as they are.** -/
theorem next_store (cfg : Config) (f : Fleet) (e : Event) :
    (∃ r, Commits cfg f e r) ∨ ((fleet cfg).next f e).store = f.store := by
  unfold Commits EventSystem.reply EventSystem.next fleet stepFleet
  by_cases he : e.enabled f = true
  · simp only [he, if_true]
    cases transaction (e.work cfg) f.db with
    | error err => exact Or.inr rfl
    | ok rd => exact Or.inl ⟨rd.1, rfl⟩
  · simp only [he]
    exact Or.inr rfl

/-- An event whose work meets the constraints leaves what its work left. -/
theorem next_store_of_work {r : Reply} {s : Store} (he : e.enabled f = true)
    (hwork : e.work cfg f.store = .ok (r, s)) (hs : s.Unique ∧ s.References ∧ s.Checks) :
    ((fleet cfg).next f e).store = s := by
  have hcommit := transaction_of_work (d := f.db) hwork hs
  simp only [EventSystem.next, fleet, stepFleet, he, if_true, hcommit]
  rfl

/-- An event commits, fails, or is not enabled and does nothing. -/
theorem next_cases (cfg : Config) (f : Fleet) (e : Event) :
    (∃ r, Commits cfg f e r ∧ ((fleet cfg).next f e).inFlight = e.inFlight (.ok r) f.inFlight)
      ∨ (∃ error, ((fleet cfg).next f e).store = f.store
          ∧ ((fleet cfg).next f e).inFlight = e.inFlight (.error error) f.inFlight)
      ∨ (fleet cfg).next f e = f := by
  unfold Commits EventSystem.reply EventSystem.next fleet stepFleet
  by_cases he : e.enabled f = true
  · simp only [he, if_true]
    cases transaction (e.work cfg) f.db with
    | error err => exact Or.inr (Or.inl ⟨err, rfl, rfl⟩)
    | ok rd => exact Or.inl ⟨rd.1, rfl, rfl⟩
  · simp only [he]
    exact Or.inr (Or.inr rfl)

theorem Work.reply_ok {α : Type} {work : Work α} {wrap : α → Reply} {s s' : Store} {r : Reply} :
    Work.reply work wrap s = .ok (r, s') ↔ ∃ a, work s = .ok (a, s') ∧ r = wrap a := by
  unfold Work.reply
  cases work s with
  | error e => simp
  | ok p =>
    obtain ⟨a, t⟩ := p
    simp only [Except.ok.injEq, Prod.mk.injEq]
    constructor
    · rintro ⟨rfl, rfl⟩
      exact ⟨a, ⟨rfl, rfl⟩, rfl⟩
    · rintro ⟨b, ⟨rfl, rfl⟩, rfl⟩
      exact ⟨rfl, rfl⟩

/-! ## A concrete deployment

One campaign on the default shard of its manager, for evaluating the model. -/

/-- The default constants, and a digest that can be read. -/
def Config.sample : Config where
  digest := fun value => value
  maxAttempts := 8
  leaseMs := 2100000
  minIntervalMs := 58000
  one_le_maxAttempts := by decide
  floor_le_leaseMs := by decide
  floor_le_minIntervalMs := by decide

namespace Sample

def target : BridgeTargetInput where
  campaignRecordId := "record"
  campaignName := "campaign"
  managerCustomerId := some "1111111111"
  customerId := "2222222222"
  googleCampaignId := "33333333"

/-- The key of the target. -/
def id : String := targetId Config.sample target

def shard : String := "mcc-1111111111-001"

/-- An enqueue, as its two transactions. -/
def enqueue (now : Nat) (suffix : String) (version : Int) (captureId : Nat) (jobId : String) :
    List Event :=
  [⟨now, now, .beginEnqueue { target with exactSuffix := suffix, version := some version } 0⟩,
    ⟨now, now, .enqueueCapture
      { targetId := id, shardId := shard, exactSuffix := suffix, suffixHash := suffix
        version := version, sourceRunId := none } captureId jobId⟩]

/-- The shard registered for its manager. -/
def register (now : Nat) : Event :=
  ⟨now, now, .registerBridgeShard shard "a-token-of-sufficient-length" "1111111111"⟩

/-- A lease by worker `w` whose token for every job is `token`. -/
def lease (now : Nat) (token : String) : Event :=
  ⟨now, now, .leaseBridgeJobs
    { shardId := shard, workerId := "w", uuid := fun t => "uuid-" ++ t, token := fun _ => token }⟩

/-- An acknowledgement by worker `w` of `suffix` as applied. -/
def ack (now : Nat) (jobId token suffix : String) : Event :=
  ⟨now, now, .acknowledgeBridgeJob
    { shardId := shard, workerId := "w", jobId := jobId, leaseToken := token, ok := true
      appliedSuffix := some suffix }⟩

/-- A pause or a resume of the campaign. -/
def setEnabled (now : Nat) (enabled : Bool) : Event :=
  ⟨now, now, .setBridgeTargetEnabled "record" enabled⟩

end Sample

end LinkSuffix
