import LinkSuffix.Health.CampaignAlerts

/-!
# Recoveries of a campaign

The watchdog (`health-watchdog.mjs`) has the health of the application evaluated, reads the report
and restarts the campaigns whose captures are stale, so many times in a window. What the evaluation
finds depends on the status of the campaign, which a restart changes.

* `recoverableAlerts`, `resetRecoveredCampaigns`, `claimRecovery`: `runRecovery` and what it calls.
* `system`: the alert table, the recovery table, the campaign, and the watchdog between its calls.
* `Bounded`: no interval of the length of a window has more restarts than two windows allow.
* `Spared`: no reset of attempts that were made, and no window that ends early.
* **`recovery_bounded`**, `recovery_unbounded`.

A window of milliseconds is meant to be one: `Date.parse` of a `Date` reads its text, which has no
milliseconds. The time that a transaction waits is an input, and so is all that an evaluation reads
beside the record of the campaign.
-/

namespace LinkSuffix.Health.Recovery

open Lib

/-! ## The recovery table -/

structure Config where
  campaignId : String
  windowMs : Nat
  maxAttempts : Nat
  baseCooldownMs : Nat
  freshnessMs : Nat

/-- A row of `tah_campaign_recovery`. -/
structure Attempts where
  windowStartedAt : Nat
  attemptCount : Nat := 0
  nextAttemptAt : Option Nat := none
  deriving DecidableEq

abbrev Recoveries := String → Option Attempts

/-- `Date.parse` of a `Date`. -/
def dateParse (time : Nat) : Nat := time / 1000 * 1000

def cooldownMs (cfg : Config) (attemptNumber : Nat) : Nat :=
  min (15 * 60000) (cfg.baseCooldownMs * 2 ^ (attemptNumber - 1))

/-- The transaction of `claimRecovery` that has the lock: the row it leaves, and whether the recovery
is claimed. It began at `started`, which is `NOW()`. -/
def claimRecovery (cfg : Config) (started now : Nat) (row : Option Attempts) : Attempts × Bool :=
  let state := row.getD { windowStartedAt := started }
  let windowExpired := dateParse state.windowStartedAt + cfg.windowMs ≤ now
  let attemptCount := if windowExpired then 0 else state.attemptCount
  let nextAttemptAt := if windowExpired then 0 else (state.nextAttemptAt.map dateParse).getD 0
  if now < nextAttemptAt then (state, false)
  else if cfg.maxAttempts ≤ attemptCount then (state, false)
  else
    ({ windowStartedAt := if windowExpired then started else state.windowStartedAt
       attemptCount := attemptCount + 1
       nextAttemptAt := some (now + cooldownMs cfg (attemptCount + 1)) }, true)

/-- `resetRecoveredCampaigns`. -/
def resetRecoveredCampaigns (now : Nat) (activeCampaignIds : List String)
    (recoveries : Recoveries) : Recoveries := fun id =>
  (recoveries id).map fun row =>
    if 0 < row.attemptCount ∧ id ∉ activeCampaignIds then { windowStartedAt := now } else row

/-! ## The report -/

/-- `String(alert.campaignRecordId || "").trim()`. -/
def alertCampaign (row : Row) : String := trim (row.alert.campaignRecordId.getD "")

/-- `recoverableAlerts`. -/
def recoverableAlerts (cfg : Config) (now : Nat) (report : List Row) : List Row :=
  report.filter fun row =>
    (row.status = .active ∨ row.status = .acknowledged) ∧ row.alert.scope = "capture" ∧
      ":capture-stale".toList.isSuffixOf row.alert.fingerprint.toList ∧ alertCampaign row ≠ "" ∧
      (now : Int) - row.lastSeenAt / 1000 ≤ cfg.freshnessMs

/-- `listHealthAlerts`, in the order and up to the limit of its rows. -/
def listHealthAlerts (table : Table) (listing : List String) : List Row :=
  (listing.filterMap table).filter fun row => row.status ≠ .resolved

/-! ## The system -/

/-- Where the watchdog is in `evaluate`. -/
inductive Phase where
  | idle
  /-- The report is read. -/
  | reported (report : List Row)
  /-- The alerts that are not recovered yet. -/
  | claiming (alerts : List Row)
  /-- `dispatchCampaignRestart`. -/
  | dispatching (campaignId : String) (alerts : List Row)

structure State where
  now : Nat
  alerts : Table
  recoveries : Recoveries
  phase : Phase := .idle
  /-- `campaign.status`. -/
  status : String
  desiredRunning : Bool

inductive Event where
  | wait (ms : Nat)
  /-- `evaluateHealth`, with what else is read and how it has the record of the campaign. -/
  | evaluate (parse : String → JsNumber) (limits : Limits) (sources : JsValue → Sources)
  /-- An operator acknowledges or resolves an alert. -/
  | acknowledge (fingerprint actor : String)
  | resolve (fingerprint : String)
  /-- The watchdog reads the report. -/
  | report (listing : List String)
  | reset
  /-- `claimRecovery`, with whether it has the lock and how long it took up to `Date.now()`. -/
  | claim (acquired : Bool) (latency : Nat)
  /-- `dispatchCampaignRestart`, with whether it is sent and what the control server says. -/
  | dispatch (sent accepted : Bool)
  /-- A query or a request of the watchdog fails. -/
  | fail
  /-- The control server changes the campaign. -/
  | control (status : String) (desiredRunning : Bool)

/-- The record of a campaign without new captures. -/
def campaignRecord (cfg : Config) (lastCapturedAt : JsValue) (s : State) : JsValue :=
  .object [("id", .string cfg.campaignId), ("status", .string s.status),
    ("desiredRunning", .bool s.desiredRunning), ("lastCapturedAt", lastCapturedAt)]

/-- The database's `NOW()`. -/
def State.micros (s : State) : Int := s.now * 1000

def claimed (cfg : Config) (s : State) (acquired : Bool) (latency : Nat) : State :=
  match s.phase with
  | .claiming (alert :: alerts) =>
    if ¬acquired then { s with phase := .claiming alerts }
    else
      let id := alertCampaign alert
      let claim := claimRecovery cfg s.now (s.now + latency) (s.recoveries id)
      { s with
        now := s.now + latency
        recoveries := Function.update s.recoveries id (some claim.1)
        phase := if claim.2 then .dispatching id alerts else .claiming alerts }
  | .claiming [] => { s with phase := .idle }
  | _ => s

def dispatched (cfg : Config) (s : State) (sent accepted : Bool) : State :=
  match s.phase with
  | .dispatching id alerts =>
    let s := { s with phase := .claiming alerts }
    -- `restart_campaign`
    if id = cfg.campaignId ∧ sent ∧ accepted then
      { s with status := "queued", desiredRunning := true }
    else s
  | _ => s

/-- The reply is the time of a restart that is sent for the campaign. -/
def system (cfg : Config) (lastCapturedAt : JsValue) : EventSystem State Event (List Nat) where
  step s event :=
    match event with
    | .wait ms => ({ s with now := s.now + ms }, [])
    | .evaluate parse limits sources =>
      let evaluation := evaluation { dateParse := parse, limits := limits, now := s.now }
        (sources (campaignRecord cfg lastCapturedAt s))
      ({ s with alerts := persistEvaluation s.micros evaluation s.alerts }, [])
    | .acknowledge fingerprint actor =>
      ({ s with alerts := acknowledgeHealthAlert s.micros fingerprint actor s.alerts }, [])
    | .resolve fingerprint =>
      ({ s with alerts := resolveHealthAlert s.micros fingerprint s.alerts }, [])
    | .report listing =>
      match s.phase with
      | .idle => ({ s with phase := .reported (listHealthAlerts s.alerts listing) }, [])
      | _ => (s, [])
    | .reset =>
      match s.phase with
      | .reported report =>
        let alerts := recoverableAlerts cfg s.now report
        ({ s with
            recoveries := resetRecoveredCampaigns s.now (alerts.map alertCampaign) s.recoveries
            phase := .claiming alerts }, [])
      | _ => (s, [])
    | .claim acquired latency => (claimed cfg s acquired latency, [])
    | .dispatch sent accepted =>
      (dispatched cfg s sent accepted,
        match s.phase with
        | .dispatching id _ => if id = cfg.campaignId ∧ sent then [s.now] else []
        | _ => [])
    | .fail => ({ s with phase := .idle }, [])
    | .control status desiredRunning =>
      ({ s with status := status, desiredRunning := desiredRunning }, [])

/-- The times of the restarts that a run sends. -/
def restarts (cfg : Config) (lastCapturedAt : JsValue) (s : State) (events : List Event) :
    List Nat :=
  (system cfg lastCapturedAt).collect (system cfg lastCapturedAt).reply s events

/-- The times in an interval of the length of a window. -/
def inWindow (cfg : Config) (first : Nat) (times : List Nat) : List Nat :=
  times.filter fun time => first ≤ time ∧ time < first + cfg.windowMs

/-- In any interval of the length of a window there are no more restarts than two windows allow. -/
def Bounded (cfg : Config) (times : List Nat) : Prop :=
  ∀ first, (inWindow cfg first times).length ≤ 2 * cfg.maxAttempts

/-- The report that the watchdog holds has the alert of the campaign, or nothing was attempted. -/
def Counted (cfg : Config) (s : State) : Prop :=
  ∀ report, s.phase = .reported report →
    cfg.campaignId ∈ (recoverableAlerts cfg s.now report).map alertCampaign ∨
      ∀ row, s.recoveries cfg.campaignId = some row → row.attemptCount = 0

/-- The window of the campaign is over where its text says so. -/
def Elapsed (cfg : Config) (s : State) (latency : Nat) : Prop :=
  ∀ alert alerts row, s.phase = .claiming (alert :: alerts) → alertCampaign alert = cfg.campaignId →
    s.recoveries cfg.campaignId = some row →
    dateParse row.windowStartedAt + cfg.windowMs ≤ s.now + latency →
      row.windowStartedAt + cfg.windowMs ≤ s.now + latency

/-- A step that neither resets attempts that were made nor ends a window early. -/
def Spared (cfg : Config) (s : State) (event : Event) : Prop :=
  match event with
  | .reset => Counted cfg s
  | .claim acquired latency => acquired = true → Elapsed cfg s latency
  | _ => True

/-! ## Windows -/

section Windows

variable {cfg : Config} {lastCapturedAt : JsValue} {s s' : State}
  {oldest previous current : List Nat} {opened : Nat}

/-- A restart of the campaign that is claimed and not sent. -/
def Phase.pending (cfg : Config) : Phase → Nat
  | .dispatching id _ => if id = cfg.campaignId then 1 else 0
  | _ => 0

theorem pending_claim (claimed : Bool) (id : String) (alerts : List Row) :
    (if claimed then Phase.dispatching id alerts else .claiming alerts).pending cfg =
      if claimed ∧ id = cfg.campaignId then 1 else 0 := by
  cases claimed
  · rfl
  · simp [Phase.pending]

/-- The restarts by the windows they were claimed in: the current one, the one before and the others.
`opened` is when the current one was. -/
structure Windows (cfg : Config) (oldest previous current : List Nat) (opened : Nat) (s : State) :
    Prop where
  past : ∀ time ∈ oldest ++ previous ++ current, time ≤ s.now
  since : opened ≤ s.now
  apart : ∀ time ∈ oldest, time + cfg.windowMs ≤ opened
  full : previous.length ≤ cfg.maxAttempts
  limit : current.length + s.phase.pending cfg ≤ cfg.maxAttempts
  row : ∀ row, s.recoveries cfg.campaignId = some row →
    (∀ time ∈ oldest ++ previous, time ≤ row.windowStartedAt) ∧
      current.length + s.phase.pending cfg ≤ row.attemptCount
  fresh : s.recoveries cfg.campaignId = none →
    oldest ++ previous ++ current = [] ∧ s.phase.pending cfg = 0

/-- What does not touch the row of the campaign keeps the windows. -/
theorem Windows.frame (h : Windows cfg oldest previous current opened s) (hnow : s.now ≤ s'.now)
    (hrow : s'.recoveries cfg.campaignId = s.recoveries cfg.campaignId)
    (hpending : s'.phase.pending cfg ≤ s.phase.pending cfg) :
    Windows cfg oldest previous current opened s' where
  past time htime := Nat.le_trans (h.past time htime) hnow
  since := Nat.le_trans h.since hnow
  apart := h.apart
  full := h.full
  limit := Nat.le_trans (Nat.add_le_add_left hpending _) h.limit
  row row hsome := by
    obtain ⟨hstarted, hcount⟩ := h.row row (hrow ▸ hsome)
    exact ⟨hstarted, Nat.le_trans (Nat.add_le_add_left hpending _) hcount⟩
  fresh hnone := by
    obtain ⟨hempty, hzero⟩ := h.fresh (hrow ▸ hnone)
    exact ⟨hempty, Nat.le_zero.mp (hzero ▸ hpending)⟩

theorem inWindow_append (first : Nat) (times more : List Nat) :
    inWindow cfg first (times ++ more) = inWindow cfg first times ++ inWindow cfg first more :=
  List.filter_append _ _

theorem inWindow_length_le (first : Nat) (times : List Nat) :
    (inWindow cfg first times).length ≤ times.length :=
  List.length_filter_le _ _

/-- One restart more, now: an interval that it is in begins after the oldest ones. -/
theorem Windows.bounded (h : Windows cfg oldest previous current opened s)
    (hpending : s.phase.pending cfg = 1) (hbounded : Bounded cfg (oldest ++ previous ++ current)) :
    Bounded cfg (oldest ++ previous ++ current ++ [s.now]) := by
  intro first
  by_cases hin : first ≤ s.now ∧ s.now < first + cfg.windowMs
  · have hold : inWindow cfg first oldest = [] := by
      refine List.filter_eq_nil_iff.mpr fun time htime hmem => ?_
      have hapart := h.apart time htime
      have hsince := h.since
      have hfirst := (of_decide_eq_true hmem).1
      omega
    have hprevious := Nat.le_trans (@inWindow_length_le cfg first previous) h.full
    have hcurrent := @inWindow_length_le cfg first (current ++ [s.now])
    have hlimit := h.limit
    rw [List.append_assoc, inWindow_append, inWindow_append, hold, List.nil_append,
      List.length_append]
    rw [List.length_append, List.length_singleton] at hcurrent
    omega
  · have hout : inWindow cfg first [s.now] = [] := by
      refine List.filter_eq_nil_iff.mpr fun time htime hmem => hin ?_
      rw [List.mem_singleton.mp htime] at hmem
      exact of_decide_eq_true hmem
    rw [inWindow_append, hout, List.append_nil]
    exact hbounded first

/-! ## Claims -/

/-- What a claim does with the row. -/
theorem claimRecovery_cases (started now : Nat) (row : Option Attempts) :
    (claimRecovery cfg started now row).2 = false ∧ (claimRecovery cfg started now row).1 =
      row.getD { windowStartedAt := started } ∨
    ((claimRecovery cfg started now row).2 = true ∧ 0 < cfg.maxAttempts ∧
      dateParse (row.getD { windowStartedAt := started }).windowStartedAt + cfg.windowMs ≤ now ∧
      (claimRecovery cfg started now row).1.windowStartedAt = started ∧
      (claimRecovery cfg started now row).1.attemptCount = 1) ∨
    ((claimRecovery cfg started now row).2 = true ∧
      (row.getD { windowStartedAt := started }).attemptCount < cfg.maxAttempts ∧
      (claimRecovery cfg started now row).1.windowStartedAt =
        (row.getD { windowStartedAt := started }).windowStartedAt ∧
      (claimRecovery cfg started now row).1.attemptCount =
        (row.getD { windowStartedAt := started }).attemptCount + 1) := by
  unfold claimRecovery
  dsimp only
  generalize row.getD { windowStartedAt := started } = state
  by_cases hexpired : dateParse state.windowStartedAt + cfg.windowMs ≤ now
  · simp only [hexpired, if_true, Nat.not_lt_zero, if_false]
    split
    · exact Or.inl ⟨rfl, rfl⟩
    · rename_i hmax
      exact Or.inr (Or.inl ⟨rfl, Nat.not_le.mp hmax, trivial, rfl, rfl⟩)
  · simp only [hexpired, if_false]
    split
    · exact Or.inl ⟨rfl, rfl⟩
    · split
      · exact Or.inl ⟨rfl, rfl⟩
      · rename_i hmax
        exact Or.inr (Or.inr ⟨rfl, Nat.not_le.mp hmax, rfl, rfl⟩)

/-- A claim that begins in the state of the windows, of the campaign's row. -/
theorem Windows.claim (h : Windows cfg oldest previous current opened s)
    (hzero : s.phase.pending cfg = 0) {latency : Nat}
    (helapsed : ∀ row, s.recoveries cfg.campaignId = some row →
      dateParse row.windowStartedAt + cfg.windowMs ≤ s.now + latency →
        row.windowStartedAt + cfg.windowMs ≤ s.now + latency)
    (hnow : s'.now = s.now + latency)
    (hrow : s'.recoveries cfg.campaignId = some (claimRecovery cfg s.now (s.now + latency)
      (s.recoveries cfg.campaignId)).1)
    (hpending : s'.phase.pending cfg = if (claimRecovery cfg s.now (s.now + latency)
      (s.recoveries cfg.campaignId)).2 then 1 else 0) :
    ∃ oldest' previous' current' opened',
      oldest' ++ previous' ++ current' = oldest ++ previous ++ current ∧
      Windows cfg oldest' previous' current' opened' s' := by
  have hlater : s.now ≤ s'.now := hnow ▸ Nat.le_add_right _ _
  have hlimit := h.limit
  rw [hzero, Nat.add_zero] at hlimit
  -- the row as the transaction finds it
  obtain ⟨hstarted, hcount⟩ : (∀ time ∈ oldest ++ previous, time ≤
      ((s.recoveries cfg.campaignId).getD { windowStartedAt := s.now }).windowStartedAt) ∧
      current.length ≤
        ((s.recoveries cfg.campaignId).getD { windowStartedAt := s.now }).attemptCount := by
    cases hold : s.recoveries cfg.campaignId with
    | none =>
      obtain ⟨hempty, -⟩ := h.fresh hold
      obtain ⟨hbefore, rfl⟩ := List.append_eq_nil_iff.mp hempty
      rw [hbefore]
      exact ⟨fun _ => nofun, Nat.le_refl 0⟩
    | some row =>
      obtain ⟨hstarted, hcount⟩ := h.row row hold
      exact ⟨hstarted, Nat.le_trans (Nat.le_add_right _ _) hcount⟩
  rcases @claimRecovery_cases cfg s.now (s.now + latency) (s.recoveries cfg.campaignId) with
    ⟨hclaim, hleft⟩ | ⟨hclaim, hmax, hexpired, hstart, hattempts⟩ |
    ⟨hclaim, hmax, hstart, hattempts⟩
  · rw [hclaim, if_neg Bool.false_ne_true] at hpending
    refine ⟨oldest, previous, current, opened, rfl,
      fun time htime => Nat.le_trans (h.past time htime) hlater, Nat.le_trans h.since hlater,
      h.apart, h.full, by rwa [hpending], fun row hsome => ?_, fun hnone => ?_⟩
    · rw [hrow, hleft] at hsome
      obtain rfl := Option.some.inj hsome
      rw [hpending]
      exact ⟨hstarted, hcount⟩
    · rw [hrow] at hnone
      cases hnone
  · rw [hclaim, if_pos rfl] at hpending
    refine ⟨oldest ++ previous, current, [], s.now + latency, List.append_nil _,
      fun time htime => ?_, Nat.le_of_eq hnow.symm, fun time htime => ?_, hlimit, ?_,
      fun row hsome => ?_, fun hnone => ?_⟩
    · rw [List.append_nil] at htime
      exact Nat.le_trans (h.past time htime) hlater
    · -- the window before was over
      cases hold : s.recoveries cfg.campaignId with
      | none =>
        obtain ⟨hempty, -⟩ := h.fresh hold
        rw [(List.append_eq_nil_iff.mp hempty).1] at htime
        cases htime
      | some row =>
        rw [hold, Option.getD_some] at hexpired
        exact Nat.le_trans (Nat.add_le_add_right ((h.row row hold).1 time htime) _)
          (helapsed row hold hexpired)
    · rw [hpending]
      exact hmax
    · rw [hrow] at hsome
      obtain rfl := Option.some.inj hsome
      rw [hstart, hattempts, hpending]
      exact ⟨h.past, Nat.le_refl 1⟩
    · rw [hrow] at hnone
      cases hnone
  · rw [hclaim, if_pos rfl] at hpending
    refine ⟨oldest, previous, current, opened, rfl,
      fun time htime => Nat.le_trans (h.past time htime) hlater, Nat.le_trans h.since hlater,
      h.apart, h.full, by rw [hpending]; exact Nat.lt_of_le_of_lt hcount hmax,
      fun row hsome => ?_, fun hnone => ?_⟩
    · rw [hrow] at hsome
      obtain rfl := Option.some.inj hsome
      rw [hstart, hattempts, hpending]
      exact ⟨hstarted, Nat.add_le_add_right hcount 1⟩
    · rw [hrow] at hnone
      cases hnone

/-! ## Steps -/

/-- The restarts so far, by windows, and within the bound. -/
def Tracked (cfg : Config) (times : List Nat) (s : State) : Prop :=
  (∃ oldest previous current opened, oldest ++ previous ++ current = times ∧
    Windows cfg oldest previous current opened s) ∧ Bounded cfg times

theorem Tracked.frame {times : List Nat} (h : Tracked cfg times s) (hnow : s.now ≤ s'.now)
    (hrow : s'.recoveries cfg.campaignId = s.recoveries cfg.campaignId)
    (hpending : s'.phase.pending cfg ≤ s.phase.pending cfg) : Tracked cfg (times ++ []) s' := by
  obtain ⟨⟨oldest, previous, current, opened, heq, hwindows⟩, hbounded⟩ := h
  rw [List.append_nil]
  exact ⟨⟨oldest, previous, current, opened, heq, hwindows.frame hnow hrow hpending⟩, hbounded⟩

theorem Tracked.claimed {times : List Nat} (h : Tracked cfg times s) {acquired : Bool}
    {latency : Nat} (helapsed : acquired = true → Elapsed cfg s latency) :
    Tracked cfg (times ++ []) (claimed cfg s acquired latency) := by
  unfold Recovery.claimed
  split
  · rename_i alert alerts hphase
    have hzero : s.phase.pending cfg = 0 := by rw [hphase]; rfl
    split
    · exact h.frame (Nat.le_refl _) rfl (Nat.zero_le _)
    · rename_i hacquired
      rw [Bool.not_eq_true, Bool.not_eq_false] at hacquired
      dsimp only
      by_cases hid : alertCampaign alert = cfg.campaignId
      · obtain ⟨⟨oldest, previous, current, opened, heq, hwindows⟩, hbounded⟩ := h
        rw [hid, List.append_nil]
        obtain ⟨oldest', previous', current', opened', heq', hwindows'⟩ :
            ∃ oldest' previous' current' opened',
              oldest' ++ previous' ++ current' = oldest ++ previous ++ current ∧
              Windows cfg oldest' previous' current' opened' { s with
                now := s.now + latency
                recoveries := Function.update s.recoveries cfg.campaignId
                  (some (claimRecovery cfg s.now (s.now + latency)
                    (s.recoveries cfg.campaignId)).1)
                phase :=
                  if (claimRecovery cfg s.now (s.now + latency) (s.recoveries cfg.campaignId)).2 then
                    .dispatching cfg.campaignId alerts
                  else .claiming alerts } :=
          hwindows.claim hzero
            (fun row hrow => helapsed hacquired alert alerts row hphase hid hrow) rfl
            (Function.update_self ..) (by rw [pending_claim]; simp only [and_true])
        exact ⟨⟨oldest', previous', current', opened', heq'.trans heq, hwindows'⟩, hbounded⟩
      · refine h.frame (Nat.le_add_right _ _) (Function.update_of_ne (Ne.symm hid) _ _) ?_
        rw [pending_claim, if_neg fun hclaim => hid hclaim.2]
        exact Nat.zero_le _
  · exact h.frame (Nat.le_refl _) rfl (Nat.zero_le _)
  · exact h.frame (Nat.le_refl _) rfl (Nat.le_refl _)

/-- A reset that finds the campaign in the report, or nothing to reset, leaves its row alone. -/
theorem reset_row {report : List Row} (h : Counted cfg s) (hphase : s.phase = .reported report) :
    resetRecoveredCampaigns s.now ((recoverableAlerts cfg s.now report).map alertCampaign)
      s.recoveries cfg.campaignId = s.recoveries cfg.campaignId := by
  unfold resetRecoveredCampaigns
  cases hold : s.recoveries cfg.campaignId with
  | none => rfl
  | some row =>
    rw [Option.map_some, if_neg]
    rintro ⟨hattempts, hmissing⟩
    rcases h report hphase with hlisted | hnone
    · exact hmissing hlisted
    · exact absurd (hnone row hold) (Nat.ne_of_gt hattempts)

theorem Tracked.dispatched {times : List Nat} (h : Tracked cfg times s) (sent accepted : Bool) :
    Tracked cfg (times ++ (system cfg lastCapturedAt).reply s (.dispatch sent accepted))
      (dispatched cfg s sent accepted) := by
  have hreply : (system cfg lastCapturedAt).reply s (.dispatch sent accepted) =
      match s.phase with
      | .dispatching id _ => if id = cfg.campaignId ∧ sent then [s.now] else []
      | _ => [] := rfl
  rw [hreply]
  unfold Recovery.dispatched
  cases hphase : s.phase with
  | dispatching id alerts =>
    dsimp only
    have hstate (t : State) (hnow : t.now = s.now) (hrow : t.recoveries = s.recoveries)
        (hpending : t.phase.pending cfg = 0) :
        Tracked cfg (times ++ if id = cfg.campaignId ∧ sent then [s.now] else []) t := by
      split
      · rename_i hsent
        obtain ⟨⟨oldest, previous, current, opened, rfl, hwindows⟩, hbounded⟩ := h
        have hone : s.phase.pending cfg = 1 := by
          rw [hphase]
          exact if_pos hsent.1
        refine ⟨⟨oldest, previous, current ++ [s.now], opened, (List.append_assoc ..).symm, ?_⟩,
          hwindows.bounded hone hbounded⟩
        refine ⟨fun time htime => ?_, hnow ▸ hwindows.since, hwindows.apart, hwindows.full, ?_,
          fun row hsome => ?_, fun hnone => ?_⟩
        · rw [hnow]
          rw [← List.append_assoc, List.mem_append] at htime
          rcases htime with hold | hnew
          · exact hwindows.past time hold
          · exact Nat.le_of_eq (List.mem_singleton.mp hnew)
        · have hlimit := hwindows.limit
          rw [hone] at hlimit
          rw [hpending, List.length_append, List.length_singleton]
          exact hlimit
        · rw [hrow] at hsome
          obtain ⟨hstarted, hcount⟩ := hwindows.row row hsome
          rw [hone] at hcount
          rw [hpending, List.length_append, List.length_singleton]
          exact ⟨hstarted, hcount⟩
        · rw [hrow] at hnone
          have hzero := (hwindows.fresh hnone).2
          rw [hone] at hzero
          cases hzero
      · exact h.frame (Nat.le_of_eq hnow.symm) (congrFun hrow _) (hpending ▸ Nat.zero_le _)
    exact hstate _ (by split <;> rfl) (by split <;> rfl) (by split <;> rfl)
  | idle => exact h.frame (Nat.le_refl _) rfl (Nat.le_refl _)
  | reported report => exact h.frame (Nat.le_refl _) rfl (Nat.le_refl _)
  | claiming alerts => exact h.frame (Nat.le_refl _) rfl (Nat.le_refl _)

theorem Tracked.event {times : List Nat} (h : Tracked cfg times s) {event : Event}
    (hspared : Spared cfg s event) :
    Tracked cfg (times ++ (system cfg lastCapturedAt).reply s event)
      ((system cfg lastCapturedAt).next s event) := by
  cases event with
  | wait ms => exact h.frame (Nat.le_add_right _ _) rfl (Nat.le_refl _)
  | evaluate parse limits sources => exact h.frame (Nat.le_refl _) rfl (Nat.le_refl _)
  | acknowledge fingerprint actor => exact h.frame (Nat.le_refl _) rfl (Nat.le_refl _)
  | resolve fingerprint => exact h.frame (Nat.le_refl _) rfl (Nat.le_refl _)
  | report listing =>
    unfold EventSystem.reply EventSystem.next system
    dsimp only
    split
    · exact h.frame (Nat.le_refl _) rfl (Nat.zero_le _)
    · exact h.frame (Nat.le_refl _) rfl (Nat.le_refl _)
  | reset =>
    unfold EventSystem.reply EventSystem.next system
    dsimp only
    split
    · rename_i report hphase
      exact h.frame (Nat.le_refl _) (reset_row hspared hphase) (Nat.zero_le _)
    · exact h.frame (Nat.le_refl _) rfl (Nat.le_refl _)
  | claim acquired latency => exact h.claimed hspared
  | dispatch sent accepted => exact h.dispatched sent accepted
  | fail => exact h.frame (Nat.le_refl _) rfl (Nat.zero_le _)
  | control status desiredRunning => exact h.frame (Nat.le_refl _) rfl (Nat.le_refl _)

end Windows

/-- A watchdog that begins, with any tables. -/
def started (now : Nat) (alerts : Table) (recoveries : Recoveries) (status : String)
    (desiredRunning : Bool) : State :=
  { now := now, alerts := alerts, recoveries := recoveries, status := status,
    desiredRunning := desiredRunning }

/-- **Recoveries are bounded** in runs that neither reset attempts nor end windows early. -/
theorem recovery_bounded (cfg : Config) (lastCapturedAt : JsValue) (now : Nat) (alerts : Table)
    (recoveries : Recoveries) (status : String) (desiredRunning : Bool) (events : List Event)
    (h : (system cfg lastCapturedAt).Along (Spared cfg)
      (started now alerts recoveries status desiredRunning) events) :
    Bounded cfg (restarts cfg lastCapturedAt
      (started now alerts recoveries status desiredRunning) events) := by
  have htracked : Tracked cfg (restarts cfg lastCapturedAt
      (started now alerts recoveries status desiredRunning) events)
      ((system cfg lastCapturedAt).run
        (started now alerts recoveries status desiredRunning) events) := by
    refine EventSystem.history_inv (P := fun events s => Tracked cfg (restarts cfg lastCapturedAt
      (started now alerts recoveries status desiredRunning) events) s) ?_
      (fun es event halong htracked => ?_) h
    · refine ⟨⟨[], [], [], 0, rfl, fun _ => nofun, Nat.zero_le _, fun _ => nofun, Nat.zero_le _,
        Nat.zero_le _, fun row _ => ⟨fun _ => nofun, Nat.zero_le _⟩, fun _ => ⟨rfl, rfl⟩⟩,
        fun first => Nat.zero_le _⟩
    · unfold restarts at htracked ⊢
      rw [EventSystem.collect_concat]
      exact htracked.event (EventSystem.along_concat.mp halong).2
  exact htracked.2

/-! ## Restarts without a bound -/

section Sample

/-- The watchdog's defaults. -/
def defaultConfig : Config where
  campaignId := "alpha"
  windowMs := 3600000
  maxAttempts := 4
  baseCooldownMs := 120000
  freshnessMs := 45000

def staleAlert : String := campaignFingerprint "alpha" ":capture-stale"

def plainParse (_ : String) : JsNumber := .nan

/-- An evaluation that reads the registry only. -/
def evaluateRegistry : Event := .evaluate plainParse {} fun record => registrySources [record]

/-- The watchdog has the health evaluated, and acts on the report. -/
def recover : List Event :=
  [evaluateRegistry, .report [staleAlert], .reset, .claim true 0, .dispatch true true, .claim true 0]

/-- The campaign is queued when the watchdog looks again, and runs after that. -/
def requeue : List Event :=
  [.wait 15000, evaluateRegistry, .report [staleAlert], .reset, .claim true 0,
    .control "running" true, .wait 15000]

/-- The record of a campaign that has captured nothing. -/
def waitingRecord (status : String) : JsValue :=
  .object [("id", .string "alpha"), ("status", .string status), ("desiredRunning", .bool true),
    ("lastCapturedAt", .null)]

/-- What the registry alone gives at a time. -/
def registryEvaluation (now : Rat) (status : String) : Evaluation :=
  evaluation { dateParse := plainParse, limits := {}, now := now }
    (registrySources [waitingRecord status])

theorem ofCampaign_registry (now : Rat) {status : String}
    (hid : campaignId (waitingRecord status) = "alpha") :
    ofCampaign "alpha" (registryEvaluation now status).candidates =
      (campaignAlerts plainParse now "alpha"
        (merge (waitingRecord status) (waitingRecord status))).foldl addCandidate [] := by
  have hrows : campaignRows (registrySources [waitingRecord status]).capacityValue
      (registrySources [waitingRecord status]).registryRows = [waitingRecord status] := rfl
  have hregistry : (registrySources [waitingRecord status]).registryRows =
      [waitingRecord status] := rfl
  have hown : rowsOf "alpha" [waitingRecord status] = [waitingRecord status] :=
    List.filter_eq_self.mpr fun row hrow => decide_eq_true (List.mem_singleton.mp hrow ▸ hid)
  have hown' := @ofCampaign_evaluateHealth { dateParse := plainParse, limits := {}, now := now }
    (registrySources [waitingRecord status]) "alpha"
  rw [hrows, hregistry, hown, List.flatMap_singleton] at hown'
  unfold registryEvaluation evaluation
  rw [hown']
  unfold rowCandidates lastRow
  dsimp only
  have hfound : [waitingRecord status].find? (fun row => campaignId row = "alpha") =
      some (waitingRecord status) := List.find?_cons_of_pos (decide_eq_true hid)
  rw [hid, if_neg (by decide), List.reverse_singleton, hfound, Option.getD_some]

/-- While it is queued, the campaign has no alert. -/
theorem queued_unreported (now : Rat) :
    staleAlert ∉ (registryEvaluation now "queued").fingerprints := by
  have hnone : ofCampaign "alpha" (registryEvaluation now "queued").candidates = [] := by
    rw [ofCampaign_registry now (by decide +kernel)]
    have hquiet : campaignAlerts plainParse now "alpha"
        (merge (waitingRecord "queued") (waitingRecord "queued")) = [] :=
      (@campaignAlerts_eq_nil { dateParse := plainParse, limits := {}, now := now } "alpha" _).mpr
        (.inr (.inl (by decide +kernel)))
    rw [hquiet]
    rfl
  intro hmem
  obtain ⟨candidate, hcandidate, heq⟩ := List.mem_map.mp hmem
  have hof : candidate ∈ ofCampaign "alpha" (registryEvaluation now "queued").candidates :=
    List.mem_filter.mpr ⟨hcandidate, decide_eq_true (heq ▸ List.mem_map_of_mem (by decide))⟩
  rw [hnone] at hof
  cases hof

/-- While it runs, its captures are stale. -/
theorem running_reported (now : Rat) :
    ∃ candidate ∈ (registryEvaluation now "running").candidates,
      candidate.fingerprint = staleAlert ∧ candidate.scope = "capture" ∧
        candidate.campaignRecordId = some "alpha" ∧ candidate.activationAfterMs = 0 := by
  have hstatus : jsLower (textValue (merge (waitingRecord "running") (waitingRecord "running"))
      ["status", "runStatus"]) = "running" := by decide +kernel
  have hdesired : booleanValue (merge (waitingRecord "running") (waitingRecord "running"))
      ["desiredRunning", "shouldRun"] = some true := by decide +kernel
  have hstale : exceeds (ageMs plainParse now
      (((merge (waitingRecord "running") (waitingRecord "running")).get "lastCapturedAt").orElse
        ((merge (waitingRecord "running") (waitingRecord "running")).get "last_capture_at")))
      180000 = true := rfl
  obtain ⟨candidate, hone, hfields⟩ : ∃ candidate, campaignAlerts plainParse now "alpha"
      (merge (waitingRecord "running") (waitingRecord "running")) = [candidate] ∧
      candidate.fingerprint = staleAlert ∧ candidate.scope = "capture" ∧
        candidate.campaignRecordId = some "alpha" ∧ candidate.activationAfterMs = 0 := by
    unfold campaignAlerts
    dsimp only
    have hstopped : ¬((some true).getD false = true ∧
        "running" ∉ ["running", "queued", "starting", "scheduled", "retrying"]) := by decide
    have hfailed : ¬((some true).getD false = true ∧
        "running" ∈ ["error", "failed", "fatal"]) := by decide
    rw [hstatus, hdesired, hstale, if_neg hstopped, if_pos ⟨rfl, rfl, rfl⟩, if_neg hfailed]
    exact ⟨_, rfl, rfl, rfl, rfl, rfl⟩
  refine ⟨candidate, ?_, hfields⟩
  have hof : candidate ∈ ofCampaign "alpha" (registryEvaluation now "running").candidates := by
    rw [ofCampaign_registry now (by decide +kernel), hone]
    exact List.mem_singleton_self _
  exact (List.mem_filter.mp hof).1

/-- The campaign runs, no attempt is counted and its alert is closed. -/
structure Ready (s : State) : Prop where
  phase : s.phase = .idle
  status : s.status = "running"
  desired : s.desiredRunning = true
  attempts : ∀ row, s.recoveries "alpha" = some row →
    row.attemptCount = 0 ∧ row.nextAttemptAt = none
  alert : ∀ row, s.alerts staleAlert = some row → row.status = .resolved

/-- The restart is dispatched: the campaign is queued, its attempt counted and its alert open. -/
structure Queued (s : State) : Prop where
  phase : s.phase = .idle
  status : s.status = "queued"
  desired : s.desiredRunning = true
  attempts : ∃ row, s.recoveries "alpha" = some row ∧ 0 < row.attemptCount
  alert : ∃ row, s.alerts staleAlert = some row

theorem seen_active {candidate : Candidate} (hcandidate : candidate.activationAfterMs = 0)
    (now : Int) {old : Option Row} (hold : ∀ row, old = some row → row.status = .resolved) :
    (seen now candidate old).status = .active ∧ (seen now candidate old).alert = candidate ∧
      (seen now candidate old).lastSeenAt = now := by
  cases old with
  | none =>
    refine ⟨?_, rfl, rfl⟩
    exact if_pos hcandidate
  | some row =>
    have hresolved := hold row rfl
    refine ⟨?_, rfl, rfl⟩
    show (onConflict now row candidate).status = .active
    unfold onConflict
    dsimp only
    rw [hresolved, if_neg (by decide), if_pos rfl, if_pos hcandidate]

theorem evaluate_registry {s : State} {status : String} (hstatus : s.status = status)
    (hdesired : s.desiredRunning = true) :
    (system defaultConfig .null).next s evaluateRegistry =
      { s with alerts := persistEvaluation s.micros (registryEvaluation s.now status) s.alerts } := by
  have hrecord : campaignRecord defaultConfig .null s = waitingRecord status := by
    unfold campaignRecord waitingRecord
    rw [hstatus, hdesired]
    rfl
  have hnext : (system defaultConfig .null).next s evaluateRegistry =
      { s with
        alerts := persistEvaluation s.micros
          (evaluation { dateParse := plainParse, limits := {}, now := s.now }
            (registrySources [campaignRecord defaultConfig .null s])) s.alerts } := rfl
  rw [hnext, hrecord]
  rfl

/-- The claim of a campaign without attempts. -/
theorem claim_first (cfg : Config) (hmax : 0 < cfg.maxAttempts) (now : Nat)
    {row : Option Attempts}
    (h : ∀ old, row = some old → old.attemptCount = 0 ∧ old.nextAttemptAt = none) :
    (claimRecovery cfg now now row).2 = true ∧ (claimRecovery cfg now now row).1.attemptCount = 1 := by
  obtain ⟨hcount, hnext⟩ : (row.getD { windowStartedAt := now }).attemptCount = 0 ∧
      (row.getD { windowStartedAt := now }).nextAttemptAt = none := by
    cases row with
    | none => exact ⟨rfl, rfl⟩
    | some old => exact h old rfl
  unfold claimRecovery
  dsimp only
  rw [hcount, hnext, ite_self, if_neg, if_neg (Nat.not_le.mpr hmax)]
  · exact ⟨rfl, rfl⟩
  · split <;> exact Nat.not_lt_zero now

/-- The states of a campaign that is to run. -/
def alpha (now : Nat) (alerts : Table) (recoveries : Recoveries) (phase : Phase)
    (status : String) : State where
  now := now
  alerts := alerts
  recoveries := recoveries
  phase := phase
  status := status
  desiredRunning := true

/-- The watchdog restarts a campaign that is ready. -/
theorem recover_ready {s : State} (h : Ready s) :
    restarts defaultConfig .null s recover = [s.now] ∧
      Queued ((system defaultConfig .null).run s recover) ∧
      ((system defaultConfig .null).run s recover).now = s.now := by
  obtain ⟨now, before, recoveries, phase, status, desiredRunning⟩ := s
  obtain ⟨rfl, rfl, rfl, hattempts, hclosed⟩ := h
  change restarts defaultConfig .null (alpha now before recoveries .idle "running") recover = [now] ∧
    Queued ((system defaultConfig .null).run (alpha now before recoveries .idle "running") recover) ∧
    ((system defaultConfig .null).run (alpha now before recoveries .idle "running") recover).now =
      now
  obtain ⟨candidate, hmem, hfingerprint, hscope, hcampaign, hactivation⟩ :=
    running_reported (now : Rat)
  have hrow := @persistEvaluation_of_mem (now * 1000) before _ candidate hmem
  rw [hfingerprint] at hrow
  obtain ⟨hactive, halert, hseen⟩ := seen_active hactivation (now * 1000) hclosed
  generalize seen (now * 1000) candidate (before staleAlert) = row at *
  have hevaluated : (system defaultConfig .null).next (alpha now before recoveries .idle "running")
      evaluateRegistry = alpha now (persistEvaluation (now * 1000)
        (registryEvaluation now "running") before) recoveries .idle "running" :=
    @evaluate_registry (alpha now before recoveries .idle "running") "running" rfl rfl
  generalize persistEvaluation (now * 1000) (registryEvaluation now "running") before =
    alerts at hrow hevaluated
  -- the report has the alert, and the watchdog recovers it
  have hreport : listHealthAlerts alerts [staleAlert] = [row] := by
    unfold listHealthAlerts
    rw [List.filterMap_cons_some hrow, List.filterMap_nil, List.filter_cons_of_pos]
    · rfl
    · rw [hactive]
      decide
  have hid : alertCampaign row = "alpha" := by
    unfold alertCampaign
    rw [halert, hcampaign]
    decide +kernel
  have hrecoverable : recoverableAlerts defaultConfig now [row] = [row] := by
    refine List.filter_eq_self.mpr fun other hother => ?_
    rw [List.mem_singleton.mp hother]
    refine decide_eq_true ⟨.inl hactive, halert ▸ hscope, ?_, by rw [hid]; decide, ?_⟩
    · rw [halert, hfingerprint]
      decide +kernel
    · rw [hseen]
      unfold defaultConfig
      dsimp only
      omega
  have hkept : resetRecoveredCampaigns now ["alpha"] recoveries "alpha" = recoveries "alpha" := by
    unfold resetRecoveredCampaigns
    cases recoveries "alpha" with
    | none => rfl
    | some old => rw [Option.map_some, if_neg fun hreset => hreset.2 (List.mem_singleton_self _)]
  obtain ⟨hclaim, hcount⟩ := claim_first defaultConfig (by decide) now hattempts
  -- the steps, in order
  have hreset : (system defaultConfig .null).next (alpha now alerts recoveries
      (.reported (listHealthAlerts alerts [staleAlert])) "running") .reset =
        alpha now alerts (resetRecoveredCampaigns now ["alpha"] recoveries) (.claiming [row])
          "running" := by
    have hnext : (system defaultConfig .null).next (alpha now alerts recoveries
        (.reported (listHealthAlerts alerts [staleAlert])) "running") .reset =
          alpha now alerts (resetRecoveredCampaigns now ((recoverableAlerts defaultConfig now
              (listHealthAlerts alerts [staleAlert])).map alertCampaign) recoveries)
            (.claiming (recoverableAlerts defaultConfig now
              (listHealthAlerts alerts [staleAlert]))) "running" := rfl
    rw [hnext, hreport, hrecoverable, List.map_singleton, hid]
  have hclaimed : (system defaultConfig .null).next (alpha now alerts
      (resetRecoveredCampaigns now ["alpha"] recoveries) (.claiming [row]) "running")
      (.claim true 0) = alpha now alerts (Function.update (resetRecoveredCampaigns now ["alpha"]
        recoveries) "alpha" (some (claimRecovery defaultConfig now now (recoveries "alpha")).1))
          (.dispatching "alpha" []) "running" := by
    have hnext : (system defaultConfig .null).next (alpha now alerts
        (resetRecoveredCampaigns now ["alpha"] recoveries) (.claiming [row]) "running")
        (.claim true 0) = alpha now alerts (Function.update (resetRecoveredCampaigns now ["alpha"]
          recoveries) (alertCampaign row) (some (claimRecovery defaultConfig now now
            (resetRecoveredCampaigns now ["alpha"] recoveries (alertCampaign row))).1))
          (if (claimRecovery defaultConfig now now (resetRecoveredCampaigns now ["alpha"]
            recoveries (alertCampaign row))).2 then .dispatching (alertCampaign row) []
            else .claiming []) "running" := rfl
    rw [hnext, hid, hkept, hclaim, if_pos rfl]
  generalize hleft : (claimRecovery defaultConfig now now (recoveries "alpha")).1 = left
    at hclaimed hcount
  generalize hrecovered : Function.update (resetRecoveredCampaigns now ["alpha"] recoveries) "alpha"
    (some left) = recovered at hclaimed
  have hread : (system defaultConfig .null).next (alpha now alerts recoveries .idle "running")
      (.report [staleAlert]) = alpha now alerts recoveries
        (.reported (listHealthAlerts alerts [staleAlert])) "running" := rfl
  have hdispatched : (system defaultConfig .null).next (alpha now alerts recovered
      (.dispatching "alpha" []) "running") (.dispatch true true) =
        alpha now alerts recovered (.claiming []) "queued" := rfl
  have hsent : (system defaultConfig .null).reply (alpha now alerts recovered
      (.dispatching "alpha" []) "running") (.dispatch true true) = [now] := rfl
  have hrun : (system defaultConfig .null).run (alpha now before recoveries .idle "running")
      recover = alpha now alerts recovered .idle "queued" := by
    unfold recover
    rw [EventSystem.run_cons, hevaluated, EventSystem.run_cons, hread, EventSystem.run_cons, hreset,
      EventSystem.run_cons, hclaimed, EventSystem.run_cons, hdispatched]
    rfl
  have hrestarts : restarts defaultConfig .null (alpha now before recoveries .idle "running")
      recover = [now] := by
    unfold restarts recover
    simp only [EventSystem.collect, hevaluated, hread, hreset, hclaimed, hdispatched, hsent]
    rfl
  have hcounted : recovered "alpha" = some left := by
    rw [← hrecovered]
    exact Function.update_self ..
  have hqueued : Queued (alpha now alerts recovered .idle "queued") :=
    ⟨rfl, rfl, rfl, ⟨left, hcounted, hcount ▸ Nat.one_pos⟩, row, hrow⟩
  exact ⟨hrestarts, hrun ▸ hqueued, congrArg State.now hrun⟩

/-- The watchdog looks while the campaign is queued. -/
theorem requeue_queued {s : State} (h : Queued s) :
    restarts defaultConfig .null s requeue = [] ∧
      Ready ((system defaultConfig .null).run s requeue) ∧
      ((system defaultConfig .null).run s requeue).now = s.now + 30000 := by
  obtain ⟨now, before, recoveries, phase, status, desiredRunning⟩ := s
  obtain ⟨rfl, rfl, rfl, ⟨attempts, hattempts, hpositive⟩, row, hrow⟩ := h
  change recoveries "alpha" = some attempts at hattempts
  change before staleAlert = some row at hrow
  change restarts defaultConfig .null (alpha now before recoveries .idle "queued") requeue = [] ∧
    Ready ((system defaultConfig .null).run (alpha now before recoveries .idle "queued") requeue) ∧
    ((system defaultConfig .null).run (alpha now before recoveries .idle "queued") requeue).now =
      now + 30000
  have hgone := @persistEvaluation_of_not_mem ((now + 15000 : Nat) * 1000) before staleAlert _
    (queued_unreported ((now + 15000 : Nat) : Rat))
  rw [hrow, Option.map_some] at hgone
  have hevaluated : (system defaultConfig .null).next
      (alpha (now + 15000) before recoveries .idle "queued") evaluateRegistry =
        alpha (now + 15000) (persistEvaluation ((now + 15000 : Nat) * 1000)
          (registryEvaluation (now + 15000 : Nat) "queued") before) recoveries .idle "queued" :=
    @evaluate_registry (alpha (now + 15000) before recoveries .idle "queued") "queued" rfl rfl
  generalize persistEvaluation ((now + 15000 : Nat) * 1000)
    (registryEvaluation (now + 15000 : Nat) "queued") before = alerts at hgone hevaluated
  have hreport : listHealthAlerts alerts [staleAlert] = [] := by
    unfold listHealthAlerts
    rw [List.filterMap_cons_some hgone, List.filterMap_nil, List.filter_cons_of_neg]
    · rfl
    · rw [resolve_status]
      decide
  have hreset : (system defaultConfig .null).next (alpha (now + 15000) alerts recoveries
      (.reported (listHealthAlerts alerts [staleAlert])) "queued") .reset =
        alpha (now + 15000) alerts (resetRecoveredCampaigns (now + 15000) [] recoveries)
          (.claiming []) "queued" := by
    rw [hreport]
    rfl
  have hrun : (system defaultConfig .null).run (alpha now before recoveries .idle "queued")
      requeue = alpha (now + 15000 + 15000) alerts (resetRecoveredCampaigns (now + 15000) []
        recoveries) .idle "running" := by
    have hwait : (system defaultConfig .null).next (alpha now before recoveries .idle "queued")
        (.wait 15000) = alpha (now + 15000) before recoveries .idle "queued" := rfl
    have hread : (system defaultConfig .null).next
        (alpha (now + 15000) alerts recoveries .idle "queued") (.report [staleAlert]) =
          alpha (now + 15000) alerts recoveries (.reported (listHealthAlerts alerts [staleAlert]))
            "queued" := rfl
    unfold requeue
    rw [EventSystem.run_cons, hwait, EventSystem.run_cons, hevaluated, EventSystem.run_cons, hread,
      EventSystem.run_cons, hreset]
    rfl
  have hrestarts : restarts defaultConfig .null (alpha now before recoveries .idle "queued")
      requeue = [] := rfl
  have hready : Ready (alpha (now + 15000 + 15000) alerts (resetRecoveredCampaigns (now + 15000) []
      recoveries) .idle "running") := by
    refine ⟨rfl, rfl, rfl, fun old hold => ?_, fun old hold => ?_⟩
    · have hset : resetRecoveredCampaigns (now + 15000) [] recoveries "alpha" =
          some { windowStartedAt := now + 15000 } := by
        unfold resetRecoveredCampaigns
        rw [hattempts, Option.map_some, if_pos ⟨hpositive, List.not_mem_nil⟩]
      obtain rfl := Option.some.inj (hset.symm.trans hold)
      exact ⟨rfl, rfl⟩
    · obtain rfl := Option.some.inj (hgone.symm.trans hold)
      exact resolve_status _ _
  refine ⟨hrestarts, hrun ▸ hready, ?_⟩
  rw [hrun]
  show now + 15000 + 15000 = now + 30000
  omega

theorem recovery_bounded_once : Bounded defaultConfig (restarts defaultConfig .null
    (started 0 empty (fun _ => none) "running" true)
    [evaluateRegistry, .report [staleAlert], .reset, .claim true 0, .dispatch true true]) :=
  recovery_bounded defaultConfig .null 0 empty (fun _ => none) "running" true _
    ⟨trivial, trivial, fun _ _ => .inr (fun _ h => nomatch h),
      (fun _ _ _ _ _ _ h => nomatch h), trivial, trivial⟩

/-- As many restarts as wanted, one every half minute. -/
theorem restarts_cycles (cycles : Nat) {s : State} (h : Ready s) :
    restarts defaultConfig .null s (List.replicate cycles (recover ++ requeue)).flatten =
      (List.range cycles).map fun i => s.now + 30000 * i := by
  induction cycles generalizing s with
  | zero => rfl
  | succ cycles ih =>
    obtain ⟨hfirst, hqueued, hnow⟩ := recover_ready h
    obtain ⟨hnone, hready, hlater⟩ := requeue_queued hqueued
    have hrest := ih hready
    unfold restarts at hfirst hnone hrest ⊢
    rw [List.replicate_succ, List.flatten_cons, List.append_assoc, EventSystem.collect_append,
      EventSystem.collect_append, hfirst, hnone, hrest, hlater, hnow, List.range_succ_eq_map,
      List.map_cons, List.map_map, List.nil_append, List.singleton_append, Nat.mul_zero,
      Nat.add_zero]
    congr 1
    refine List.map_congr_left fun i _ => ?_
    rw [Function.comp_apply, Nat.succ_eq_add_one, Nat.mul_add, Nat.mul_one]
    omega

/-- **The attempts are reset by the absence of the alert while a restart is queued**: nine restarts
in five minutes, of the four in an hour. -/
theorem recovery_unbounded : ¬Bounded defaultConfig (restarts defaultConfig .null
    (started 0 empty (fun _ => none) "running" true)
    (List.replicate 9 (recover ++ requeue)).flatten) := by
  intro h
  have hready : Ready (started 0 empty (fun _ => none) "running" true) :=
    ⟨rfl, rfl, rfl, fun _ => nofun, fun _ => nofun⟩
  rw [restarts_cycles 9 hready] at h
  exact absurd (h 0) (by decide +kernel)

end Sample

end LinkSuffix.Health.Recovery
