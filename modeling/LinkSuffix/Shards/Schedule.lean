import LinkSuffix.Lib.Run
import Mathlib.Algebra.GroupWithZero.Nat
import Mathlib.Order.Lattice

/-!
# Adaptive execution windows

When a shard's script is invoked, the store learns the phase of the hourly trigger from the starts
(`adaptiveExecutionWindow`, `script-bridge-store.ts`), and gives the invocation a window that ends
before the next start it expects. `bridgeShardManifest` carries what was learned in the shard's row.

* `schedulePhaseDistance`, `nextScheduleSlot`, `learn`: the phase.
* `adaptiveExecutionWindow`: the window. `invocations`: the manifests of one shard.
* `InPhase`: two times whose difference is a number of intervals, nearly. `inPhase_iff`.
* `Carried`: what a row has learned by a time.
* **`windows_well_formed`**: the windows of a run are well formed, and its phase moves as it should.
-/

namespace LinkSuffix.Schedule

open Lib

/-- The timing constants, with their defaults, in milliseconds. -/
structure Timing where
  /-- `SCHEDULE_INTERVAL_MS`. -/
  scheduleInterval : Int := 3600000
  /-- `SCHEDULE_TOLERANCE_MS`. -/
  scheduleTolerance : Int := 480000
  /-- `HANDOFF_MARGIN_MS`. -/
  handoffMargin : Int := 120000
  /-- `PHASE_ONE_MAX_MS`. -/
  phaseOneMax : Int := 1680000
  /-- `PHASE_TWO_RESERVE_MAX_MS`. -/
  phaseTwoReserveMax : Int := 600000
  /-- `MIN_USEFUL_WINDOW_MS`. -/
  minUsefulWindow : Int := 180000

inductive ScheduleMode
  | learning | scheduled | scheduleShift | offCycle
  deriving DecidableEq

/-- The columns of `tah_script_shards` that an invocation reads or writes. -/
structure ShardRow where
  previousExecutionStartedAt : Option Int := none
  lastExecutionStartedAt : Option Int := none
  lastInvocationId : Option String := none
  scheduleAnchorAt : Option Int := none
  scheduleSampleCount : Int := 0
  expectedNextStartAt : Option Int := none
  phaseOneStopAt : Option Int := none
  hardStopAt : Option Int := none
  handoffMarginMs : Int := 120000

structure ExecutionWindow where
  invocationId : String
  startedAt : Int
  phaseOneStopAt : Int
  hardStopAt : Int
  nextExpectedStartAt : Int
  handoffMarginMs : Int
  phaseOneBudgetMs : Int
  phaseTwoReserveMs : Int
  scheduleMode : ScheduleMode
  /-- `scheduleConfidence`: whether it is "learned". -/
  learned : Bool
  scheduleSampleCount : Int
  scheduleAnchorAt : Int
  shouldYield : Bool

/-- What a start has taught. -/
structure Learned where
  anchorMs : Int
  samples : Int
  mode : ScheduleMode

/-- `dateMs`. -/
def dateMs (value : Option Int) : Int := value.getD 0

/-- `Math.floor(n * 0.35)`: the double `0.35` is `3152519739159347 / 2 ^ 53`, and the product is
rounded to 53 bits, a tie to even. -/
def floorShare (n : Nat) : Nat :=
  let product := n * 3152519739159347
  let unit := 2 ^ (product.log2 - 52)
  let rest := product % unit
  let rounded :=
    if unit < 2 * rest ∨ unit = 2 * rest ∧ product / unit % 2 = 1 then product / unit + 1
    else product / unit
  rounded * unit / 2 ^ 53

section Windows

variable (timing : Timing)

def schedulePhaseDistance (left right : Int) : Int :=
  let distance := (left - right).natAbs % timing.scheduleInterval
  min distance (timing.scheduleInterval - distance)

def nextScheduleSlot (anchorMs nowMs : Int) : Int :=
  if anchorMs ≤ 0 then nowMs + timing.scheduleInterval
  else
    let periods := (nowMs - anchorMs) / timing.scheduleInterval + 1
    anchorMs + max 1 periods * timing.scheduleInterval

def learn (row : ShardRow) (startedMs : Int) : Learned :=
  let previousStartMs := dateMs row.lastExecutionStartedAt
  let anchorMs := dateMs row.scheduleAnchorAt
  let samples := max 0 row.scheduleSampleCount
  if anchorMs = 0 then ⟨startedMs, 1, .learning⟩
  else if schedulePhaseDistance timing startedMs anchorMs ≤ timing.scheduleTolerance then
    let samples := min 100 (samples + 1)
    ⟨startedMs, samples, if 2 ≤ samples then .scheduled else .learning⟩
  else if 0 < previousStartMs ∧ 45 * 60000 ≤ startedMs - previousStartMs ∧
      schedulePhaseDistance timing startedMs previousStartMs ≤ timing.scheduleTolerance then
    ⟨startedMs, 2, .scheduleShift⟩
  else if samples < 2 then ⟨startedMs, 1, .learning⟩
  else ⟨anchorMs, samples, .offCycle⟩

def adaptiveExecutionWindow (row : ShardRow) (startedMs : Int) (invocationId : String) :
    ExecutionWindow :=
  let learned := learn timing row startedMs
  let nextExpectedMs :=
    if learned.mode = .offCycle then nextScheduleSlot timing learned.anchorMs startedMs
    else startedMs + timing.scheduleInterval
  let hardStopMs := max startedMs (nextExpectedMs - timing.handoffMargin)
  let availableMs := max 0 (hardStopMs - startedMs)
  let phaseTwoReserveMs :=
    min timing.phaseTwoReserveMax (max (2 * 60000) (floorShare availableMs.toNat))
  let shouldYield := decide (availableMs < timing.minUsefulWindow)
  let phaseOneBudgetMs :=
    if shouldYield then 0 else min timing.phaseOneMax (max 0 (availableMs - phaseTwoReserveMs))
  { invocationId := invocationId
    startedAt := startedMs
    phaseOneStopAt := startedMs + phaseOneBudgetMs
    hardStopAt := hardStopMs
    nextExpectedStartAt := nextExpectedMs
    handoffMarginMs := timing.handoffMargin
    phaseOneBudgetMs := phaseOneBudgetMs
    phaseTwoReserveMs := phaseTwoReserveMs
    scheduleMode := learned.mode
    learned := decide (2 ≤ learned.samples)
    scheduleSampleCount := learned.samples
    scheduleAnchorAt := learned.anchorMs
    shouldYield := shouldYield }

/-! ## Invocations -/

/-- A call of `bridgeShardManifest` for one shard. The clock is past the epoch. -/
structure Invocation where
  startedAt : Int
  started_pos : 0 < startedAt
  invocationId : String
  preview : Bool := false
  adaptive : Bool := true
  /-- The shard is enabled, and its campaigns are those of one MCC account. -/
  admitted : Bool := true

/-- The row that an invocation with a window leaves. -/
def ShardRow.begin (row : ShardRow) (window : ExecutionWindow) : ShardRow where
  previousExecutionStartedAt := row.lastExecutionStartedAt
  lastExecutionStartedAt := some window.startedAt
  lastInvocationId := some window.invocationId
  scheduleAnchorAt := some window.scheduleAnchorAt
  scheduleSampleCount := window.scheduleSampleCount
  expectedNextStartAt := some window.nextExpectedStartAt
  phaseOneStopAt := some window.phaseOneStopAt
  hardStopAt := some window.hardStopAt
  handoffMarginMs := window.handoffMarginMs

/-- The reply is the execution window, if the manifest has one. -/
def invocations : EventSystem ShardRow Invocation (Option ExecutionWindow) where
  step row call :=
    if call.admitted ∧ ¬call.preview ∧ call.adaptive then
      let window := adaptiveExecutionWindow timing row call.startedAt call.invocationId
      (row.begin window, some window)
    else (row, none)

end Windows

/-! ## Phases -/

/-- Two times whose difference is a number of intervals, but for the tolerance. -/
def InPhase (timing : Timing) (left right : Int) : Prop :=
  ∃ k : Int, (left - right - k * timing.scheduleInterval).natAbs ≤ timing.scheduleTolerance

/-- A start that repeats the phase of the one before it, three quarters of an hour later at least. -/
def Repeats (timing : Timing) (row : ShardRow) (start : Int) : Prop :=
  ∃ previous, row.lastExecutionStartedAt = some previous ∧ 45 * 60000 ≤ start - previous ∧
    InPhase timing start previous

/-- A start in the phase that was learned. -/
def OnPhase (timing : Timing) (row : ShardRow) (start : Int) : Prop :=
  ∃ anchor, row.scheduleAnchorAt = some anchor ∧ InPhase timing start anchor

/-- The circular distance is the least one from a number of intervals. -/
theorem distance_le {timing : Timing} (hpos : 0 < timing.scheduleInterval) (left right k : Int) :
    schedulePhaseDistance timing left right ≤
      (left - right - k * timing.scheduleInterval).natAbs := by
  unfold schedulePhaseDistance
  generalize timing.scheduleInterval = interval at hpos ⊢
  dsimp only
  -- the sign of the difference does not matter, and `k` counts from the quotient
  obtain ⟨m, hm⟩ : ∃ m : Int, (left - right - k * interval).natAbs =
      (((left - right).natAbs : Int) - m * interval).natAbs := by
    rcases Int.natAbs_eq (left - right) with hsign | hsign
    · exact ⟨k, by rw [← hsign]⟩
    · refine ⟨-k, ?_⟩
      rw [← Int.natAbs_neg, Int.neg_mul]
      congr 1
      omega
  rw [hm]
  generalize ((left - right).natAbs : Int) = distance
  have hsplit := Int.emod_add_mul_ediv distance interval
  have hrest := Int.emod_nonneg distance (Int.ne_of_gt hpos)
  have hlt := Int.emod_lt_of_pos distance hpos
  rcases Int.lt_or_le (distance / interval) m with hless | hmore
  · have hstep : interval * (distance / interval + 1) ≤ interval * m :=
      Int.mul_le_mul_of_nonneg_left hless (Int.le_of_lt hpos)
    rw [Int.mul_add, Int.mul_one, Int.mul_comm interval m] at hstep
    omega
  · have hstep : interval * m ≤ interval * (distance / interval) :=
      Int.mul_le_mul_of_nonneg_left hmore (Int.le_of_lt hpos)
    rw [Int.mul_comm interval m] at hstep
    omega

/-- Some number of intervals is that near. -/
theorem distance_attained {timing : Timing} (hpos : 0 < timing.scheduleInterval)
    (left right : Int) : ∃ k : Int,
      (left - right - k * timing.scheduleInterval).natAbs =
        schedulePhaseDistance timing left right := by
  unfold schedulePhaseDistance
  generalize timing.scheduleInterval = interval at hpos ⊢
  dsimp only
  obtain ⟨m, hm⟩ : ∃ m : Int, ((((left - right).natAbs : Int) - m * interval).natAbs : Int) =
      min ((left - right).natAbs % interval) (interval - (left - right).natAbs % interval) := by
    generalize ((left - right).natAbs : Int) = distance
    have hsplit := Int.emod_add_mul_ediv distance interval
    have hrest := Int.emod_nonneg distance (Int.ne_of_gt hpos)
    have hlt := Int.emod_lt_of_pos distance hpos
    rcases Int.le_total (distance % interval) (interval - distance % interval) with hnear | hfar
    · refine ⟨distance / interval, ?_⟩
      rw [Int.mul_comm]
      omega
    · refine ⟨distance / interval + 1, ?_⟩
      rw [Int.add_mul, Int.one_mul, Int.mul_comm]
      omega
  rw [← hm]
  rcases Int.natAbs_eq (left - right) with hsign | hsign
  · exact ⟨m, by rw [← hsign]⟩
  · refine ⟨-m, ?_⟩
    rw [← Int.natAbs_neg, Int.neg_mul]
    congr 2
    omega

/-- The circular distance is within the tolerance for times in phase alone. -/
theorem inPhase_iff {timing : Timing} (hpos : 0 < timing.scheduleInterval) {left right : Int} :
    schedulePhaseDistance timing left right ≤ timing.scheduleTolerance ↔
      InPhase timing left right := by
  constructor
  · intro h
    obtain ⟨k, hk⟩ := distance_attained hpos left right
    exact ⟨k, by rw [hk]; exact h⟩
  · rintro ⟨k, hk⟩
    exact Int.le_trans (distance_le hpos left right k) hk

/-! ## What a row has learned -/

/-- What a row has learned from starts up to a time. -/
structure Carried (row : ShardRow) (now : Int) : Prop where
  anchor : ∀ anchor ∈ row.scheduleAnchorAt, 0 < anchor ∧ anchor ≤ now
  previous : ∀ previous ∈ row.lastExecutionStartedAt, 0 < previous ∧ previous ≤ now
  unlearned : row.scheduleAnchorAt = none → row.scheduleSampleCount = 0

/-- What is asked of a window. -/
structure WellFormed (timing : Timing) (window : ExecutionWindow) : Prop where
  start_le : window.startedAt ≤ window.phaseOneStopAt
  phaseOneStop_le : window.phaseOneStopAt ≤ window.hardStopAt
  hardStop_le : window.hardStopAt ≤ window.nextExpectedStartAt
  next_gt : window.startedAt < window.nextExpectedStartAt
  next_le : window.nextExpectedStartAt ≤ window.startedAt + timing.scheduleInterval
  reserve : window.shouldYield = false →
    window.phaseTwoReserveMs ≤ window.hardStopAt - window.phaseOneStopAt ∧
      window.startedAt < window.phaseOneStopAt

/-- What is asked of a row that has learned two samples: a start off the cycle leaves its anchor and
its count as they are, and it stays learned. -/
structure Lawful (timing : Timing) (row next : ShardRow) (start : Int) : Prop where
  offCycle : ¬OnPhase timing row start → ¬Repeats timing row start →
    next.scheduleAnchorAt = row.scheduleAnchorAt ∧
      next.scheduleSampleCount = row.scheduleSampleCount
  moved : next.scheduleAnchorAt ≠ row.scheduleAnchorAt →
    OnPhase timing row start ∨ Repeats timing row start
  learned : 2 ≤ next.scheduleSampleCount

section Learning

variable {timing : Timing} {row : ShardRow} {now start : Int}

/-- **What a start teaches.** It sets the anchor, and one that is neither on phase nor repeated does
so only before two samples are learned; or it is off the cycle, and teaches nothing. -/
theorem learn_cases (hpos : 0 < timing.scheduleInterval) (hcarried : Carried row now) :
    ((learn timing row start).mode ≠ .offCycle ∧ (learn timing row start).anchorMs = start ∧
        1 ≤ (learn timing row start).samples ∧
        (2 ≤ row.scheduleSampleCount → 2 ≤ (learn timing row start).samples ∧
          (OnPhase timing row start ∨ Repeats timing row start))) ∨
      ((learn timing row start).mode = .offCycle ∧
        row.scheduleAnchorAt = some (learn timing row start).anchorMs ∧
        (learn timing row start).samples = row.scheduleSampleCount ∧
        2 ≤ (learn timing row start).samples ∧
        ¬OnPhase timing row start ∧ ¬Repeats timing row start) := by
  unfold learn
  dsimp only
  split
  · rename_i hunset
    have hnone : row.scheduleAnchorAt = none := by
      cases hanchor : row.scheduleAnchorAt with
      | none => rfl
      | some anchor =>
        have hafter := (hcarried.anchor anchor hanchor).1
        rw [hanchor] at hunset
        change anchor = 0 at hunset
        omega
    refine .inl ⟨nofun, rfl, Int.le_refl 1, fun htwo => ?_⟩
    rw [hcarried.unlearned hnone] at htwo
    omega
  · rename_i hset
    obtain ⟨anchor, hanchor⟩ : ∃ anchor, row.scheduleAnchorAt = some anchor := by
      cases hanchor : row.scheduleAnchorAt with
      | none =>
        rw [hanchor] at hset
        exact absurd rfl hset
      | some anchor => exact ⟨anchor, rfl⟩
    have honPhase : schedulePhaseDistance timing start (dateMs row.scheduleAnchorAt) ≤
        timing.scheduleTolerance ↔ OnPhase timing row start := by
      rw [hanchor, inPhase_iff hpos]
      constructor
      · exact fun h => ⟨anchor, hanchor, h⟩
      · rintro ⟨other, hother, h⟩
        rw [hanchor] at hother
        obtain rfl := Option.some.inj hother
        exact h
    have hrepeats : (0 < dateMs row.lastExecutionStartedAt ∧
        45 * 60000 ≤ start - dateMs row.lastExecutionStartedAt ∧
        schedulePhaseDistance timing start (dateMs row.lastExecutionStartedAt) ≤
          timing.scheduleTolerance) ↔ Repeats timing row start := by
      rw [inPhase_iff hpos]
      cases hprevious : row.lastExecutionStartedAt with
      | none =>
        refine ⟨fun h => absurd h.1 (by decide), ?_⟩
        rintro ⟨previous, hother, -⟩
        rw [hprevious] at hother
        cases hother
      | some previous =>
        constructor
        · exact fun h => ⟨previous, hprevious, h.2⟩
        · rintro ⟨other, hother, h⟩
          rw [hprevious] at hother
          obtain rfl := Option.some.inj hother
          exact ⟨(hcarried.previous _ hprevious).1, h⟩
    split
    · rename_i hon
      refine .inl ⟨?_, rfl, ?_, fun htwo => ⟨?_, .inl (honPhase.mp hon)⟩⟩
      · dsimp only
        split <;> exact nofun
      · dsimp only
        omega
      · dsimp only
        omega
    · rename_i hoff
      split
      · rename_i hrepeat
        refine .inl ⟨nofun, rfl, ?_, fun _ => ⟨Int.le_refl 2, .inr (hrepeats.mp hrepeat)⟩⟩
        dsimp only
        omega
      · rename_i hnorepeat
        split
        · rename_i hfew
          refine .inl ⟨nofun, rfl, Int.le_refl 1, fun htwo => ?_⟩
          omega
        · rename_i hmany
          refine .inr ⟨rfl, ?_, ?_, ?_, fun h => hoff (honPhase.mpr h),
            fun h => hnorepeat (hrepeats.mpr h)⟩
          · rw [hanchor]
            rfl
          · dsimp only
            omega
          · dsimp only
            omega

/-- The share is less than the whole: rounding at most doubles the product. -/
theorem floorShare_lt {n : Nat} (h : 0 < n) : floorShare n < n := by
  unfold floorShare
  dsimp only
  generalize hproduct : n * 3152519739159347 = product
  have hpositive : product ≠ 0 := by omega
  have hunit : 2 ^ (product.log2 - 52) ≤ product :=
    Nat.le_trans (Nat.pow_le_pow_right (by decide) (Nat.sub_le _ _)) (Nat.log2_self_le hpositive)
  generalize 2 ^ (product.log2 - 52) = unit at hunit ⊢
  have hquotient : product / unit * unit ≤ product := Nat.div_mul_le_self product unit
  have hrounded : (if unit < 2 * (product % unit) ∨ unit = 2 * (product % unit) ∧
      product / unit % 2 = 1 then product / unit + 1 else product / unit) * unit ≤ 2 * product := by
    split
    · rw [Nat.add_mul, Nat.one_mul]
      omega
    · omega
  generalize (if unit < 2 * (product % unit) ∨ unit = 2 * (product % unit) ∧
      product / unit % 2 = 1 then product / unit + 1 else product / unit) * unit = rounded
    at hrounded ⊢
  omega

/-- The next slot of an anchor comes within an interval, and as far off as the phase is. -/
theorem nextScheduleSlot_spec {anchor : Int} (hpos : 0 < timing.scheduleInterval)
    (hanchor : 0 < anchor) (hle : anchor ≤ start) (hoff : ¬InPhase timing start anchor) :
    start + timing.scheduleTolerance < nextScheduleSlot timing anchor start ∧
      nextScheduleSlot timing anchor start ≤ start + timing.scheduleInterval := by
  unfold nextScheduleSlot
  rw [if_neg (by omega)]
  dsimp only
  have hperiods : 0 ≤ (start - anchor) / timing.scheduleInterval :=
    Int.ediv_nonneg (by omega) (Int.le_of_lt hpos)
  rw [Int.max_eq_right (by omega)]
  have hfar : ¬(start - anchor - ((start - anchor) / timing.scheduleInterval + 1) *
      timing.scheduleInterval).natAbs ≤ timing.scheduleTolerance := fun h => hoff ⟨_, h⟩
  have hsplit := Int.emod_add_mul_ediv (start - anchor) timing.scheduleInterval
  have hrest := Int.emod_nonneg (start - anchor) (Int.ne_of_gt hpos)
  have hlt := Int.emod_lt_of_pos (start - anchor) hpos
  rw [Int.add_mul, Int.one_mul, Int.mul_comm] at hfar ⊢
  omega

/-! ## Windows -/

variable {invocationId : String}

theorem interval_pos : 0 < ({} : Timing).scheduleInterval := by decide

/-- **The window of a start** is well formed: the next start is expected between the tolerance and
an interval away. -/
theorem window_wellFormed (hcarried : Carried row now) (hnow : now ≤ start) :
    WellFormed {} (adaptiveExecutionWindow {} row start invocationId) := by
  have hnext : start + 480000 < (adaptiveExecutionWindow {} row start
        invocationId).nextExpectedStartAt ∧
      (adaptiveExecutionWindow {} row start invocationId).nextExpectedStartAt ≤
        start + 3600000 := by
    unfold adaptiveExecutionWindow
    dsimp only
    rcases learn_cases interval_pos hcarried with ⟨hmode, -⟩ | ⟨hmode, hanchor, -, -, hoff, -⟩
    · rw [if_neg hmode]
      omega
    · rw [if_pos hmode]
      obtain ⟨hafter, hbefore⟩ := hcarried.anchor _ hanchor
      exact nextScheduleSlot_spec interval_pos hafter (Int.le_trans hbefore hnow)
        fun hphase => hoff ⟨_, hanchor, hphase⟩
  unfold adaptiveExecutionWindow at hnext ⊢
  dsimp only at hnext ⊢
  generalize (if (learn {} row start).mode = .offCycle then
    nextScheduleSlot {} (learn {} row start).anchorMs start else start + 3600000) = next at hnext ⊢
  have havailable : max 0 (max start (next - 120000) - start) = next - 120000 - start := by omega
  rw [havailable]
  have hshare : floorShare (next - 120000 - start).toNat < (next - 120000 - start).toNat :=
    floorShare_lt (by omega)
  generalize floorShare (next - 120000 - start).toNat = share at hshare ⊢
  have huseful : ¬next - 120000 - start < 180000 := by omega
  rw [decide_eq_false huseful]
  constructor <;> simp only [Bool.false_eq_true, if_false] <;> omega

theorem carried_begin (hcarried : Carried row now) (hnow : now ≤ start) (hstart : 0 < start) :
    Carried (row.begin (adaptiveExecutionWindow {} row start invocationId)) start := by
  refine ⟨?_, ?_, nofun⟩
  · rintro anchor hanchor
    obtain rfl := Option.some.inj hanchor
    change 0 < (learn {} row start).anchorMs ∧ (learn {} row start).anchorMs ≤ start
    rcases learn_cases interval_pos hcarried with ⟨-, hset, -⟩ | ⟨-, hkept, -⟩
    · rw [hset]
      exact ⟨hstart, Int.le_refl start⟩
    · exact ⟨(hcarried.anchor _ hkept).1, Int.le_trans (hcarried.anchor _ hkept).2 hnow⟩
  · rintro previous hprevious
    obtain rfl := Option.some.inj hprevious
    exact ⟨hstart, Int.le_refl start⟩

/-- A row that has learned two samples moves lawfully. -/
theorem lawful_begin (hcarried : Carried row now)
    (htwo : 2 ≤ row.scheduleSampleCount) :
    Lawful {} row (row.begin (adaptiveExecutionWindow {} row start invocationId)) start := by
  rcases learn_cases interval_pos hcarried with
    ⟨-, -, -, hlearned⟩ | ⟨-, hanchor, hsamples, hmany, -⟩
  · obtain ⟨hmany, hphase⟩ := hlearned htwo
    exact ⟨fun hoff hrepeats => absurd hphase (not_or.mpr ⟨hoff, hrepeats⟩), fun _ => hphase, hmany⟩
  · exact ⟨fun _ _ => ⟨hanchor.symm, hsamples⟩, fun hmoved => absurd hanchor.symm hmoved, hmany⟩

end Learning

/-! ## Runs -/

section Runs

variable {timing : Timing} {row : ShardRow}

theorem Carried.later {now later : Int} (h : Carried row now) (hle : now ≤ later) :
    Carried row later :=
  ⟨fun anchor ha => ⟨(h.anchor anchor ha).1, Int.le_trans (h.anchor anchor ha).2 hle⟩,
    fun previous hp => ⟨(h.previous previous hp).1, Int.le_trans (h.previous previous hp).2 hle⟩,
    h.unlearned⟩

theorem carried_next {now : Int} (hcarried : Carried row now) (call : Invocation)
    (hnow : now ≤ call.startedAt) : Carried ((invocations {}).next row call) call.startedAt := by
  unfold EventSystem.next invocations
  dsimp only
  split
  · exact carried_begin hcarried hnow call.started_pos
  · exact hcarried.later hnow

/-- The starts of a run come in order. -/
def InOrder (calls : List Invocation) : Prop :=
  calls.Pairwise fun earlier later => earlier.startedAt ≤ later.startedAt

instance (calls : List Invocation) : Decidable (InOrder calls) :=
  inferInstanceAs (Decidable (List.Pairwise _ _))

/-- What a run has learned is not of the future. -/
theorem carried_run {calls : List Invocation} (h : InOrder calls) {now : Int}
    (hnow : ∀ call ∈ calls, call.startedAt ≤ now) (hstart : 0 < now) :
    Carried ((invocations {}).run {} calls) now := by
  induction calls using List.reverseRecOn generalizing now with
  | nil => exact ⟨nofun, nofun, fun _ => rfl⟩
  | append_singleton calls call ih =>
    obtain ⟨hbefore, -, hlast⟩ := List.pairwise_append.mp h
    rw [EventSystem.run_concat]
    refine Carried.later (carried_next ?_ call (Int.le_refl _))
      (hnow call (List.mem_append_right _ List.mem_cons_self))
    exact ih hbefore (fun earlier hearlier => hlast earlier hearlier call List.mem_cons_self)
      call.started_pos

end Runs

/-- **The windows of a run** of starts in order are well formed; and once two samples are learned, a
start moves the phase only if it is on phase or repeats the one before it. -/
theorem windows_well_formed (calls : List Invocation) (h : InOrder calls) :
    ∀ past call rest, calls = past ++ call :: rest →
      (∀ window, (invocations {}).reply ((invocations {}).run {} past) call = some window →
        window.startedAt = call.startedAt ∧ WellFormed {} window) ∧
      (2 ≤ ((invocations {}).run {} past).scheduleSampleCount →
        Lawful {} ((invocations {}).run {} past)
          ((invocations {}).next ((invocations {}).run {} past) call) call.startedAt) := by
  rintro past call rest rfl
  obtain ⟨hbefore, -, hlast⟩ := List.pairwise_append.mp h
  have hcarried : Carried ((invocations {}).run {} past) call.startedAt :=
    carried_run hbefore (fun earlier hearlier => hlast earlier hearlier call List.mem_cons_self)
      call.started_pos
  generalize (invocations {}).run {} past = row at hcarried ⊢
  unfold EventSystem.next EventSystem.reply invocations
  dsimp only
  split
  · refine ⟨fun window hwindow => ?_, lawful_begin hcarried⟩
    obtain rfl := Option.some.inj hwindow
    exact ⟨rfl, window_wellFormed hcarried (Int.le_refl _)⟩
  · refine ⟨fun window hwindow => ?_, fun htwo => ?_⟩
    · cases hwindow
    · exact
        { offCycle := fun _ _ => ⟨rfl, rfl⟩
          moved := fun hmoved => absurd rfl hmoved
          learned := htwo }

section Sample

def firstStart : Invocation := ⟨1700000000000, by decide, "first", false, true, true⟩

/-- An hour later. -/
def secondStart : Invocation := ⟨1700003600000, by decide, "second", false, true, true⟩

def startByHand : Invocation := ⟨1700005400000, by decide, "by hand", false, true, true⟩

/-- An hourly trigger: its second start is learned, and a start by hand comes after it. -/
def hourly : List Invocation := [firstStart, secondStart, startByHand]

theorem windows_well_formed_hourly :
    (∀ window, (invocations {}).reply
        ((invocations {}).run {} [firstStart, secondStart]) startByHand = some window →
      window.startedAt = startByHand.startedAt ∧ WellFormed {} window) ∧
    (2 ≤ ((invocations {}).run {} [firstStart, secondStart]).scheduleSampleCount →
      Lawful {} ((invocations {}).run {} [firstStart, secondStart])
        ((invocations {}).next ((invocations {}).run {} [firstStart, secondStart]) startByHand)
        startByHand.startedAt) :=
  windows_well_formed hourly (by decide) [firstStart, secondStart] startByHand [] rfl

end Sample

end LinkSuffix.Schedule
