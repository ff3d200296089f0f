import LinkSuffix.Lib.Await
import LinkSuffix.Lib.LostUpdate
import LinkSuffix.Proxy.Circuit
import LinkSuffix.Proxy.Endpoint
import LinkSuffix.Proxy.Lease

/-!
# Health reports at the same time

`report` reads the circuit of its lease's endpoint (`listCircuits`), and writes the advanced circuit
back in a later statement (`upsertCircuit`). Reports of several workers run at the same time, and
nothing keeps one from reading between the read and the write of another.

* `reportRuntime`: the reports in flight, each suspended at a statement.
* `tally`: the count of failures, the reports that are done and the circuits about to be written.
* **`reports_counted_iff`**: the failures of the endpoint are all counted exactly when no report
  reads the circuits while another is about to write.
* **`reports_lost`**: five reports that read before any of them writes are counted once.
-/

namespace LinkSuffix

open Lib

/-! ## The reports -/

/-- What `report` reads and writes. -/
structure RuntimeStore where
  leases : List ProxyLease
  providerIds : List String
  circuits : List Circuit

/-- The input of `report`, without the readings that only its health sample keeps. -/
structure ReportInput where
  leaseId : Nat
  healthy : Bool
  deriving DecidableEq

/-- The row `report` keeps the circuit of a lease in. -/
def ProxyLease.circuitKey (lease : ProxyLease) : CircuitKey where
  providerId := lease.providerId
  poolId := lease.poolId
  endpointKey := physicalEndpointKey lease.endpointKey

/-- A report at the statement it waits for: `getLease`, `recordHealth`, `listCircuits` and
`upsertCircuit`. -/
inductive ReportCall where
  | looking (leaseId : Nat) (healthy : Bool)
  | recording (lease : ProxyLease) (healthy : Bool)
  | reading (lease : ProxyLease) (healthy : Bool)
  | writing (next : Circuit)
  deriving DecidableEq

/-- What a piece of `report` hands to its caller. -/
inductive ReportReply where
  | pending
  | returned (next : Circuit)
  | failed (error : String)
  deriving DecidableEq

/-- One statement of `report`, answered at `now`. -/
def resumeReport (store : RuntimeStore) (call : ReportCall) (now : Nat) :
    Piece RuntimeStore ReportCall ReportReply :=
  match call with
  | .looking leaseId healthy =>
    match store.leases.find? fun lease => lease.leaseId = leaseId with
    | none =>
      { state := store, reply := .failed "Proxy lease was not found for health reporting" }
    | some lease => { state := store, calls := [.recording lease healthy], reply := .pending }
  | .recording lease healthy =>
    if lease.providerId ∈ store.providerIds then
      { state := store, calls := [.reading lease healthy], reply := .pending }
    else { state := store, reply := .failed "Provider not found" }
  | .reading lease healthy =>
    let current := currentCircuit store.circuits lease.circuitKey
    { state := store, calls := [.writing (nextCircuit current healthy now)], reply := .pending }
  | .writing next =>
    { state := { store with circuits := upsertKey Circuit.key next store.circuits }
      reply := .returned next }

/-- The runtime, taking reports. -/
def reportRuntime : AwaitSystem RuntimeStore ReportCall ReportInput Nat ReportReply where
  accept store input :=
    { state := store, calls := [.looking input.leaseId input.healthy], reply := .pending }
  resume := resumeReport
  silent := .pending

abbrev ReportEvent := AwaitEvent ReportInput Nat

/-- The runtime with no report in flight. -/
def idleRuntime (store : RuntimeStore) : InFlight RuntimeStore ReportCall := ⟨store, []⟩

/-- Every report is unhealthy, and about a lease of the endpoint. -/
def Failing (store : RuntimeStore) (key : CircuitKey) (es : List ReportEvent) : Prop :=
  ∀ input, AwaitEvent.input input ∈ es → input.healthy = false ∧
    ∃ lease, (store.leases.find? fun lease => lease.leaseId = input.leaseId) = some lease ∧
      lease.circuitKey = key ∧ lease.providerId ∈ store.providerIds

/-- The number of reports of a run. -/
def reportCount (es : List ReportEvent) : Nat :=
  es.countP fun e => match e with
    | .input _ => true
    | .answer _ _ => false

/-- The count of failures a report is about to write. -/
def ReportCall.count : ReportCall → Option Nat
  | .writing next => some next.consecutiveFailures
  | _ => none

/-- The report reads the circuits next. -/
def ReportCall.reads : ReportCall → Bool
  | .reading _ _ => true
  | _ => false

/-- No report reads the circuits while another is about to write. -/
def ReadsAlone (s : InFlight RuntimeStore ReportCall) : ReportEvent → Prop
  | .input _ => True
  | .answer n _ => s.calls[n]?.any ReportCall.reads = true → s.calls.filterMap ReportCall.count = []

instance (s : InFlight RuntimeStore ReportCall) (e : ReportEvent) : Decidable (ReadsAlone s e) := by
  cases e <;> unfold ReadsAlone <;> infer_instance

/-! ## What a report does to the count -/

variable {store : RuntimeStore} {key : CircuitKey} {es : List ReportEvent} {e : ReportEvent}
  {s : InFlight RuntimeStore ReportCall}

/-- A circuit is open from the threshold on. -/
def Circuit.Marked (circuit : Circuit) : Prop :=
  failureThreshold ≤ circuit.consecutiveFailures → circuit.state = .opened

theorem nextCircuit_marked (current : Circuit) (now : Nat) :
    (nextCircuit current false now).Marked := by
  intro hmany
  have hopens : failureThreshold ≤ current.consecutiveFailures + 1 := hmany
  simp [nextCircuit, hopens]

/-- A failure of the endpoint, at each of its statements. -/
def ReportCall.Failing (store : RuntimeStore) (key : CircuitKey) : ReportCall → Prop
  | .looking leaseId healthy => healthy = false ∧
      ∃ lease, (store.leases.find? fun lease => lease.leaseId = leaseId) = some lease ∧
        lease.circuitKey = key ∧ lease.providerId ∈ store.providerIds
  | .recording lease healthy =>
      healthy = false ∧ lease.circuitKey = key ∧ lease.providerId ∈ store.providerIds
  | .reading lease healthy => healthy = false ∧ lease.circuitKey = key
  | .writing next => next.key = key ∧ next.Marked

/-- The failures of the endpoint in flight, after the events so far. -/
structure Reporting (store : RuntimeStore) (key : CircuitKey) (es : List ReportEvent)
    (s : InFlight RuntimeStore ReportCall) : Prop where
  leases : s.shared.leases = store.leases
  providerIds : s.shared.providerIds = store.providerIds
  started : s.calls.length ≤ reportCount es
  failing : ∀ call ∈ s.calls, call.Failing store key
  marked : (currentCircuit s.shared.circuits key).Marked

/-- The count of the endpoint's failures, beside the reports that are done and those about to
write. -/
def tally (key : CircuitKey) (es : List ReportEvent) (s : InFlight RuntimeStore ReportCall) :
    Tally where
  value := (currentCircuit s.shared.circuits key).consecutiveFailures
  written := reportCount es - s.calls.length
  pending := s.calls.filterMap ReportCall.count

/-- The event makes a report read the circuits. -/
def Reads (s : InFlight RuntimeStore ReportCall) : ReportEvent → Prop
  | .input _ => False
  | .answer n _ => s.calls[n]?.any ReportCall.reads = true

theorem readsAlone_iff :
    ReadsAlone s e ↔ (Reads s e → s.calls.filterMap ReportCall.count = []) := by
  cases e with
  | input input => simp [ReadsAlone, Reads]
  | answer n now => exact Iff.rfl

@[simp] theorem reportCount_input (input : ReportInput) :
    reportCount (es ++ [.input input]) = reportCount es + 1 := by
  simp [reportCount, List.countP_append]

@[simp] theorem reportCount_answer (n now : Nat) :
    reportCount (es ++ [.answer n now]) = reportCount es := by
  simp [reportCount, List.countP_append]

theorem Failing.before (h : Failing store key (es ++ [e])) : Failing store key es :=
  fun input hinput => h input (List.mem_append.mpr (Or.inl hinput))

theorem currentCircuit_upsert {circuits : List Circuit} {next : Circuit} (hkey : next.key = key) :
    currentCircuit (upsertKey Circuit.key next circuits) key = next := by
  have hfind : findCircuit (upsertKey Circuit.key next circuits) key = some next := by
    subst hkey
    exact find?_upsertKey_self
  simp [currentCircuit, hfind]

/-- **What an event does to the count**: a read adds one more than the count to what is about to be
written; everything else is a move that adds nothing. -/
inductive Counts (s : InFlight RuntimeStore ReportCall) (e : ReportEvent) (t t' : Tally) : Prop
  | read (hreads : Reads s e) (h : t' = { t with pending := t.pending ++ [t.value + 1] })
  | other (hreads : ¬Reads s e) (hmove : t.Move t') (hless : t'.pending.length ≤ t.pending.length)

theorem Counts.move {t t' : Tally} (h : Counts s e t t') : t.Move t' := by
  cases h with
  | read _ h =>
    subst h
    exact .read
  | other _ hmove _ => exact hmove

/-- A report that goes on from one statement to another, none of them the read or the write. -/
theorem counts_forward {call call' : ReportCall} {n now : Nat} {shared : RuntimeStore}
    (hcall : s.calls[n]? = some call)
    (hreads : call.reads = false) (hcount : call.count = none) (hcount' : call'.count = none)
    (hshared : shared.circuits = s.shared.circuits) :
    Counts s (.answer n now) (tally key es s)
      (tally key (es ++ [.answer n now]) ⟨shared, s.calls.eraseIdx n ++ [call']⟩) := by
  obtain ⟨before, after, hcalls, herase⟩ := AwaitSystem.split_eraseIdx hcall
  have hsame : tally key (es ++ [.answer n now]) ⟨shared, s.calls.eraseIdx n ++ [call']⟩ =
      tally key es s := by
    have hlength : s.calls.length = before.length + after.length + 1 := by
      rw [hcalls]
      simp
      omega
    have hpending : s.calls.filterMap ReportCall.count =
        (s.calls.eraseIdx n ++ [call']).filterMap ReportCall.count := by
      rw [herase, hcalls]
      simp [List.filterMap_append, hcount, hcount']
    simp only [tally, hshared, hpending, reportCount_answer, herase, Tally.mk.injEq, true_and,
      and_true]
    simp only [List.length_append, List.length_singleton]
    omega
  rw [hsame]
  refine .other ?_ .idle (Nat.le_refl _)
  simp [Reads, hcall, hreads]

theorem counts_input (h : Reporting store key es s) (input : ReportInput) :
    Counts s (.input input) (tally key es s)
      (tally key (es ++ [.input input])
        ⟨s.shared, s.calls ++ [.looking input.leaseId input.healthy]⟩) := by
  have hsame : tally key (es ++ [.input input])
      ⟨s.shared, s.calls ++ [.looking input.leaseId input.healthy]⟩ = tally key es s := by
    have hstarted := h.started
    simp only [tally, reportCount_input, List.length_append, List.length_singleton,
      List.filterMap_append, Tally.mk.injEq, true_and]
    constructor
    · omega
    · simp [ReportCall.count]
  rw [hsame]
  exact .other id .idle (Nat.le_refl _)

/-- The read: the report is about to write one more than the count. -/
theorem counts_read {lease : ProxyLease} {n now : Nat}
    (hcall : s.calls[n]? = some (.reading lease false)) (hkey : lease.circuitKey = key) :
    Counts s (.answer n now) (tally key es s)
      (tally key (es ++ [.answer n now]) ⟨s.shared, s.calls.eraseIdx n ++
        [.writing (nextCircuit (currentCircuit s.shared.circuits lease.circuitKey) false now)]⟩) := by
  obtain ⟨before, after, hcalls, herase⟩ := AwaitSystem.split_eraseIdx hcall
  refine .read (by simp [Reads, hcall, ReportCall.reads]) ?_
  have hpending : s.calls.filterMap ReportCall.count =
      (before ++ after).filterMap ReportCall.count := by
    rw [hcalls]
    simp [List.filterMap_append, List.filterMap_cons, ReportCall.count]
  have hlength : s.calls.length = before.length + after.length + 1 := by
    rw [hcalls]
    simp
    omega
  simp only [tally, reportCount_answer, hpending, herase, hkey, Tally.mk.injEq, true_and]
  constructor
  · simp only [List.length_append, List.length_singleton]
    omega
  · simp [List.filterMap_append, ReportCall.count, nextCircuit]

/-- The write: the count becomes what the report was about to write. -/
theorem counts_write {next : Circuit} {n now : Nat} (h : Reporting store key es s)
    (hcall : s.calls[n]? = some (.writing next)) (hkey : next.key = key) :
    Counts s (.answer n now) (tally key es s)
      (tally key (es ++ [.answer n now])
        ⟨{ s.shared with circuits := upsertKey Circuit.key next s.shared.circuits },
          s.calls.eraseIdx n ++ []⟩) := by
  obtain ⟨before, after, hcalls, herase⟩ := AwaitSystem.split_eraseIdx hcall
  have hpending : (tally key es s).pending = before.filterMap ReportCall.count ++
      next.consecutiveFailures :: after.filterMap ReportCall.count := by
    simp [tally, hcalls, List.filterMap_append, ReportCall.count]
  have hlength : s.calls.length = before.length + after.length + 1 := by
    rw [hcalls]
    simp
    omega
  have hwritten : tally key (es ++ [.answer n now])
      ⟨{ s.shared with circuits := upsertKey Circuit.key next s.shared.circuits },
        s.calls.eraseIdx n ++ []⟩ =
      { value := next.consecutiveFailures, written := (tally key es s).written + 1
        pending := before.filterMap ReportCall.count ++ after.filterMap ReportCall.count } := by
    have hstarted := h.started
    simp only [tally, currentCircuit_upsert hkey, reportCount_answer, herase, List.append_nil,
      List.filterMap_append, Tally.mk.injEq, true_and, and_true, List.length_append]
    omega
  rw [hwritten]
  refine .other ?_ (.write _ _ _ hpending) ?_
  · simp [Reads, hcall, ReportCall.reads]
  · rw [hpending]
    simp

/-- **Step lemma**: what one event does to the count, and that the reports stay failures of the
endpoint. -/
theorem reporting_step (hfailing : Failing store key (es ++ [e])) (h : Reporting store key es s) :
    Reporting store key (es ++ [e]) (reportRuntime.events.next s e) ∧
      Counts s e (tally key es s) (tally key (es ++ [e]) (reportRuntime.events.next s e)) := by
  cases e with
  | input input =>
    refine ⟨⟨h.leases, h.providerIds, ?_, ?_, h.marked⟩, counts_input h input⟩
    · have hstarted := h.started
      show (s.calls ++ [_]).length ≤ _
      rw [reportCount_input, List.length_append, List.length_singleton]
      omega
    · intro call hcall
      rcases List.mem_append.mp hcall with hcall | hcall
      · exact h.failing call hcall
      · rw [List.mem_singleton.mp hcall]
        exact hfailing input (by simp)
  | answer n now =>
    cases hcall : s.calls[n]? with
    | none =>
      have hidle : reportRuntime.events.next s (.answer n now) = s := by
        show (reportRuntime.step s (.answer n now)).1 = s
        simp [AwaitSystem.step, hcall]
      have hsame : tally key (es ++ [.answer n now]) s = tally key es s := by simp [tally]
      rw [hidle, hsame]
      refine ⟨⟨h.leases, h.providerIds, ?_, h.failing, h.marked⟩,
        .other (by simp [Reads, hcall]) .idle (Nat.le_refl _)⟩
      rw [reportCount_answer]
      exact h.started
    | some call =>
      have hmem : call ∈ s.calls := List.mem_of_getElem? hcall
      have hcalls : ∀ started, started.length ≤ 1 →
          (s.calls.eraseIdx n ++ started).length ≤ reportCount (es ++ [.answer n now]) := by
        intro started hone
        have hn : n < s.calls.length := (List.getElem?_eq_some_iff.mp hcall).1
        have hstarted := h.started
        rw [reportCount_answer, List.length_append, List.length_eraseIdx_of_lt hn]
        omega
      have hothers : ∀ started : List ReportCall,
          (∀ call ∈ started, call.Failing store key) →
          ∀ call ∈ s.calls.eraseIdx n ++ started, call.Failing store key := by
        intro started hnew call hcall
        rcases AwaitSystem.mem_eraseIdx_append hcall with hcall | hcall
        · exact h.failing call hcall
        · exact hnew call hcall
      have hcalled := h.failing call hmem
      rw [AwaitSystem.next_answer hcall]
      cases call with
      | looking leaseId healthy =>
        obtain ⟨rfl, lease, hfind, hkey, hprovider⟩ := hcalled
        rw [← h.leases] at hfind
        simp only [reportRuntime, resumeReport, hfind]
        refine ⟨⟨h.leases, h.providerIds, hcalls _ (by simp), hothers _ ?_, h.marked⟩,
          counts_forward hcall rfl rfl rfl rfl⟩
        simpa using ⟨rfl, hkey, hprovider⟩
      | recording lease healthy =>
        obtain ⟨rfl, hkey, hprovider⟩ := hcalled
        rw [← h.providerIds] at hprovider
        simp only [reportRuntime, resumeReport, hprovider, if_true]
        refine ⟨⟨h.leases, h.providerIds, hcalls _ (by simp), hothers _ ?_, h.marked⟩, ?_⟩
        · simpa using ⟨rfl, hkey⟩
        · refine counts_forward hcall rfl rfl rfl rfl
      | reading lease healthy =>
        obtain ⟨rfl, hkey⟩ := hcalled
        simp only [reportRuntime, resumeReport]
        refine ⟨⟨h.leases, h.providerIds, hcalls _ (by simp), hothers _ ?_, h.marked⟩,
          counts_read hcall hkey⟩
        have hnext : (nextCircuit (currentCircuit s.shared.circuits lease.circuitKey) false now).key
            = key := by
          rw [nextCircuit_key, currentCircuit_key, hkey]
        simpa using ⟨hnext, nextCircuit_marked _ now⟩
      | writing next =>
        obtain ⟨hkey, hmarked⟩ := hcalled
        simp only [reportRuntime, resumeReport]
        refine ⟨⟨h.leases, h.providerIds, hcalls _ (by simp), hothers _ (by simp), ?_⟩,
          counts_write h hcall hkey⟩
        show (currentCircuit (upsertKey Circuit.key next s.shared.circuits) key).Marked
        rwa [currentCircuit_upsert hkey]

/-! ## Whole runs -/

/-- The verdict on the reports so far: exact as long as reads were alone, lost from the first that
was not. -/
def Verdict (store : RuntimeStore) (es : List ReportEvent) (t : Tally) : Prop :=
  (reportRuntime.events.Along ReadsAlone (idleRuntime store) es → t.Exact) ∧
    (¬reportRuntime.events.Along ReadsAlone (idleRuntime store) es → t.Lost)

theorem reporting_idle (hclosed : ClosedCircuit store.circuits key) :
    Reporting store key [] (idleRuntime store) ∧
      (tally key [] (idleRuntime store)).Bounded ∧
      Verdict store [] (tally key [] (idleRuntime store)) := by
  have hnone : (currentCircuit store.circuits key).consecutiveFailures = 0 := by
    unfold currentCircuit
    cases hfind : findCircuit store.circuits key with
    | none => rfl
    | some circuit => exact (hclosed circuit hfind).2.1
  have hmarked : (currentCircuit store.circuits key).Marked := by
    intro hmany
    rw [hnone] at hmany
    exact absurd hmany (by decide)
  refine ⟨⟨rfl, rfl, Nat.zero_le _, by simp [idleRuntime], hmarked⟩, ⟨?_, ?_⟩, ?_, ?_⟩
  · exact Nat.le_of_eq hnone
  · simp [tally, idleRuntime]
  · intro _
    exact .still rfl hnone
  · intro hfalse
    exact absurd trivial hfalse

/-- **Run lemma**: the count of the failures of the endpoint, after any reports. -/
theorem reporting_run (hclosed : ClosedCircuit store.circuits key)
    (hfailing : Failing store key es) :
    Reporting store key es (reportRuntime.events.run (idleRuntime store) es) ∧
      (tally key es (reportRuntime.events.run (idleRuntime store) es)).Bounded ∧
      Verdict store es (tally key es (reportRuntime.events.run (idleRuntime store) es)) := by
  induction es using List.reverseRecOn with
  | nil => exact reporting_idle hclosed
  | append_singleton es e ih =>
    obtain ⟨hreporting, hbounded, hexact, hlost⟩ := ih hfailing.before
    rw [EventSystem.run_concat]
    obtain ⟨hreporting', hcounts⟩ := reporting_step hfailing hreporting
    refine ⟨hreporting', hbounded.move hcounts.move, ?_, ?_⟩
    · intro halong
      obtain ⟨hbefore, halone⟩ := EventSystem.along_concat.mp halong
      refine (hexact hbefore).move hcounts.move fun hgrown => ?_
      cases hcounts with
      | read hreads _ => exact readsAlone_iff.mp halone hreads
      | other _ _ hless => omega
    · intro hbroken
      by_cases hbefore : reportRuntime.events.Along ReadsAlone (idleRuntime store) es
      · -- The first read that is not alone.
        have hoverlap : ¬ReadsAlone (reportRuntime.events.run (idleRuntime store) es) e :=
          fun halone => hbroken (EventSystem.along_concat.mpr ⟨hbefore, halone⟩)
        rw [readsAlone_iff] at hoverlap
        obtain ⟨hreads, hpending⟩ := Classical.not_imp.mp hoverlap
        cases hcounts with
        | read _ h =>
          rw [h]
          exact Tally.lost_of_overlap hpending
        | other hno _ _ => exact absurd hreads hno
      · exact (hlost hbefore).move hbounded hcounts.move

/-- **Failures of one endpoint that are reported at the same time** are all counted, and open the
circuit from the threshold on, exactly when no report reads the circuits while another is about to
write. -/
theorem reports_counted_iff (store : RuntimeStore) (key : CircuitKey) (es : List ReportEvent)
    (hclosed : ClosedCircuit store.circuits key) (hfailing : Failing store key es)
    (hdone : (reportRuntime.events.run (idleRuntime store) es).calls = []) :
    ((currentCircuit (reportRuntime.events.run (idleRuntime store) es).shared.circuits
          key).consecutiveFailures = reportCount es ∧
        (failureThreshold ≤ reportCount es →
          (currentCircuit (reportRuntime.events.run (idleRuntime store) es).shared.circuits
            key).state = .opened)) ↔
      reportRuntime.events.Along ReadsAlone (idleRuntime store) es := by
  obtain ⟨hreporting, -, hexact, hlost⟩ := reporting_run hclosed hfailing
  have hmarked := hreporting.marked
  generalize reportRuntime.events.run (idleRuntime store) es = s at *
  have hpending : (tally key es s).pending = [] := by simp [tally, hdone]
  have hwritten : (tally key es s).written = reportCount es := by simp [tally, hdone]
  constructor
  · rintro ⟨hcount, -⟩
    by_contra hoverlap
    have hless := (hlost hoverlap).still hpending
    rw [hwritten] at hless
    exact absurd hcount (Nat.ne_of_lt hless)
  · intro halong
    have hcount : (currentCircuit s.shared.circuits key).consecutiveFailures = reportCount es := by
      cases hexact halong with
      | still _ hvalue => exact hvalue.trans hwritten
      | writing hone => simp [hpending] at hone
    refine ⟨hcount, fun hmany => hmarked ?_⟩
    rw [hcount]
    exact hmany

/-! ## Five reports at once -/

namespace Overlap

/-- The lease of a journey that fails. -/
def lease : ProxyLease where
  providerId := "iproyal"
  poolId := "iproyal-default"
  campaignId := "campaign"
  endpointKey := "gate.example:12321"
  ownerId := "proxy-runtime-1"
  sessionId := none
  rotationMode := "sticky-session"
  leaseId := 0
  fencingToken := 1
  state := .active
  createdAt := 0
  expiresAt := 180000

def initial : RuntimeStore where
  leases := [lease]
  providerIds := ["iproyal"]
  circuits := []

/-- A report of the lease. -/
def failure : ReportEvent := .input ⟨0, false⟩

/-- The next statement of the report that has waited longest. -/
def advance : ReportEvent := .answer 0 1000

/-- One report after the other. -/
def inTurn (n : Nat) : List ReportEvent :=
  (List.replicate n (failure :: List.replicate 4 advance)).flatten

/-- The reports side by side, statement by statement. -/
def together (n : Nat) : List ReportEvent :=
  List.replicate n failure ++ List.replicate (4 * n) advance

theorem closed : ClosedCircuit initial.circuits lease.circuitKey := by
  intro circuit hfind
  simp [findCircuit, initial] at hfind

/-- Every report of these runs is a failure of the lease's endpoint. -/
theorem failing {es : List ReportEvent} (h : ∀ e ∈ es, e = failure ∨ e = advance) :
    Failing initial lease.circuitKey es := by
  intro input hinput
  rcases h _ hinput with heq | heq
  · obtain rfl := AwaitEvent.input.inj heq
    exact ⟨rfl, lease, by simp [initial, lease], rfl, by simp [initial, lease]⟩
  · simp [advance] at heq

end Overlap

/-- Five reports in turn are counted, and open the circuit. -/
theorem reports_counted_iff_inTurn :
    (currentCircuit (reportRuntime.events.run (idleRuntime Overlap.initial)
        (Overlap.inTurn 5)).shared.circuits Overlap.lease.circuitKey).state = .opened :=
  ((reports_counted_iff Overlap.initial Overlap.lease.circuitKey (Overlap.inTurn 5) Overlap.closed
    (Overlap.failing (by simp [Overlap.inTurn])) (by decide)).mpr
      (by decide)).2 (by decide)

/-- **Five reports that read before any of them writes** are counted once. -/
theorem reports_lost :
    ¬∀ (store : RuntimeStore) (key : CircuitKey) (es : List ReportEvent),
      ClosedCircuit store.circuits key → Failing store key es →
      (reportRuntime.events.run (idleRuntime store) es).calls = [] →
      (currentCircuit (reportRuntime.events.run (idleRuntime store) es).shared.circuits
          key).consecutiveFailures = reportCount es ∧
        (failureThreshold ≤ reportCount es →
          (currentCircuit (reportRuntime.events.run (idleRuntime store) es).shared.circuits
            key).state = .opened) := by
  intro hall
  have hcount := (hall Overlap.initial Overlap.lease.circuitKey (Overlap.together 5) Overlap.closed
    (Overlap.failing (by simp [Overlap.together])) (by decide)).1
  exact absurd hcount (by decide)

end LinkSuffix
