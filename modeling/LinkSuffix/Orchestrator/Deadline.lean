import LinkSuffix.Control.Backoff

/-!
# The deadline of a backoff

The journeys of a run share one `CaptureBackoff` (`captureBackoff.ts`), and may overlap
(`runScenario`, `runner.ts`). Each one waits for `remainingMs` before it begins, and reports its
decision to `observe` at its end.

* `observations`: the decisions in the order they are reported.
* `Holds`: a decision that is retried, and not before a time.
* `IsRetried`: a decision that is retried at all.
* **`deadline_kept`**: retried decisions keep an ordinary deadline, and one that the host announced
  as long as they hold it; any decision that is not retried ends the wait.
* `deadline_lost`.
-/

namespace LinkSuffix.Backoff

open Lib

/-- A decision that is reported, and when. -/
structure Observation where
  decision : CaptureOutcome
  time : Int

/-- The reply is the retry that a decision is given. -/
def observations : EventSystem CaptureBackoff Observation (Option Retry) where
  step backoff observation := backoff.observe observation.decision observation.time

/-- The decision is retried, and not before the deadline. -/
def Holds (deadline : Int) (backoff : CaptureBackoff) (observation : Observation) : Prop :=
  ∃ retry, observations.reply backoff observation = some retry ∧ deadline ≤ retry.notBefore

/-- The decision is a rejection that is retried. -/
def IsRetried : CaptureOutcome → Prop
  | .accepted _ _ _ => False
  | .rejected rejection => Retried rejection

/-- The delay of a number of blocks that follow one another, where the host announces none. -/
def ordinaryMs (consecutiveBlocks : Nat) : Int :=
  min maxDelayMs (baseDelayMs * 2 ^ min 3 (consecutiveBlocks - 1))

section Deadlines

variable {backoff : CaptureBackoff} {observation : Observation} {retry : Retry}

theorem ordinaryMs_mono {n m : Nat} (h : n ≤ m) : ordinaryMs n ≤ ordinaryMs m := by
  have hpow : (2 : Int) ^ min 3 (n - 1) ≤ 2 ^ min 3 (m - 1) := by
    have hexp : min 3 (n - 1) ≤ min 3 (m - 1) := by omega
    exact_mod_cast Nat.pow_le_pow_right (by decide) hexp
  unfold ordinaryMs baseDelayMs
  omega

/-- A decision that is retried counts one block more, and waits for the ordinary delay at least. -/
theorem retried_step (backoff : CaptureBackoff) (h : IsRetried observation.decision) :
    ∃ retry, observations.reply backoff observation = some retry ∧
      (observations.next backoff observation).notBefore = retry.notBefore ∧
      (observations.next backoff observation).consecutiveBlocks =
        min 32 (backoff.consecutiveBlocks + 1) ∧
      retry.consecutiveBlocks = min 32 (backoff.consecutiveBlocks + 1) ∧
      retry.notBefore = observation.time + retry.delayMs ∧
      ordinaryMs (min 32 (backoff.consecutiveBlocks + 1)) ≤ retry.delayMs := by
  obtain ⟨decision, time⟩ := observation
  change ∃ retry, (backoff.observe decision time).2 = some retry ∧
    (backoff.observe decision time).1.notBefore = retry.notBefore ∧
    (backoff.observe decision time).1.consecutiveBlocks = _ ∧ _
  cases decision with
  | accepted finalUrl suffix evidence => exact h.elim
  | rejected rejection =>
    have hretried : ¬(¬Repeat.isBlockedCapture rejection ∧ rejection.code ∉ retriedCodes) := by
      rwa [not_and_or, not_not, not_not]
    unfold CaptureBackoff.observe
    dsimp only
    rw [if_neg hretried]
    exact ⟨_, rfl, rfl, rfl, by simp, rfl, Int.le_max_left _ _⟩

/-- Anything else ends the wait. -/
theorem next_reset (h : ¬IsRetried observation.decision) :
    observations.next backoff observation = {} ∧ observations.reply backoff observation = none := by
  obtain ⟨decision, time⟩ := observation
  change (backoff.observe decision time).1 = {} ∧ (backoff.observe decision time).2 = none
  cases decision with
  | accepted finalUrl suffix evidence => exact ⟨rfl, rfl⟩
  | rejected rejection =>
    have hother : ¬Repeat.isBlockedCapture rejection ∧ rejection.code ∉ retriedCodes :=
      not_or.mp h
    unfold CaptureBackoff.observe
    dsimp only
    rw [if_pos hother]
    exact ⟨rfl, rfl⟩

/-- A retry is given to the decisions that are retried, and to no other. -/
theorem isRetried_of_reply (h : observations.reply backoff observation = some retry) :
    IsRetried observation.decision := by
  by_contra hother
  rw [(next_reset hother).2] at h
  cases h

/-- The backoff waits for the last retry. -/
theorem next_notBefore (h : observations.reply backoff observation = some retry) :
    (observations.next backoff observation).notBefore = retry.notBefore := by
  obtain ⟨other, hother, hwait, -⟩ := retried_step backoff (isRetried_of_reply h)
  rw [h] at hother
  obtain rfl := Option.some.inj hother
  exact hwait

theorem remainingMs_pos {now : Int} (h : now < backoff.notBefore) : 0 < backoff.remainingMs now := by
  unfold CaptureBackoff.remainingMs maxDelayMs
  omega

theorem remainingMs_zero {now : Int} (h : backoff.notBefore ≤ now) :
    backoff.remainingMs now = 0 := by
  unfold CaptureBackoff.remainingMs maxDelayMs
  omega

/-- Decisions that hold a deadline keep it. -/
theorem run_holds {deadline : Int} {later : List Observation} (h : deadline ≤ backoff.notBefore)
    (hlater : observations.Along (Holds deadline) backoff later) :
    deadline ≤ (observations.run backoff later).notBefore := by
  refine EventSystem.run_inv (P := fun backoff => deadline ≤ backoff.notBefore) h
    (fun backoff next _ hholds => ?_) hlater
  obtain ⟨retry, hretry, hle⟩ := hholds
  rw [next_notBefore hretry]
  exact hle

/-- Retried decisions keep the ordinary delay of the blocks before them: the blocks only become
more, so that no later delay is a shorter one. -/
theorem run_ordinary {start : Int} {blocks : Nat} {later : List Observation}
    (h : start + ordinaryMs blocks ≤ backoff.notBefore) (hblocks : blocks ≤ backoff.consecutiveBlocks)
    (hmax : blocks ≤ 32)
    (hlater : ∀ next ∈ later, IsRetried next.decision ∧ start ≤ next.time) :
    start + ordinaryMs blocks ≤ (observations.run backoff later).notBefore := by
  induction later generalizing backoff with
  | nil => exact h
  | cons next later ih =>
    obtain ⟨hretried, htime⟩ := hlater next List.mem_cons_self
    obtain ⟨retry, -, hwait, hcount, -, hnotBefore, hdelay⟩ :=
      retried_step backoff hretried
    have hmore : blocks ≤ min 32 (backoff.consecutiveBlocks + 1) := by omega
    have hlonger := ordinaryMs_mono hmore
    refine ih ?_ (hcount ▸ hmore) fun other hother => hlater other (List.mem_cons_of_mem _ hother)
    rw [hwait, hnotBefore]
    omega

end Deadlines

/-- **A deadline is kept** by decisions that are retried, where it is of the ordinary delay, and by
those that hold it, where the host announced a longer one; a decision that is not retried ends it. -/
theorem deadline_kept (past : List Observation) (observation : Observation) (retry : Retry)
    (h : observations.reply (observations.run {} past) observation = some retry) :
    (∀ later, retry.delayMs = ordinaryMs retry.consecutiveBlocks.toNat →
      (∀ next ∈ later, IsRetried next.decision ∧ observation.time ≤ next.time) →
      ∀ now < retry.notBefore, 0 < (observations.run
        (observations.next (observations.run {} past) observation) later).remainingMs now) ∧
    (∀ later, observations.Along (Holds retry.notBefore)
        (observations.next (observations.run {} past) observation) later →
      ∀ now < retry.notBefore, 0 < (observations.run
        (observations.next (observations.run {} past) observation) later).remainingMs now) ∧
    ∀ later last, ¬IsRetried last.decision → ∀ now, 0 ≤ now →
      (observations.next (observations.run
        (observations.next (observations.run {} past) observation) later) last).remainingMs
          now = 0 := by
  obtain ⟨given, hgiven, hwait, hcount, hblocks, hnotBefore, -⟩ :=
    retried_step (observations.run {} past) (isRetried_of_reply h)
  rw [h] at hgiven
  obtain rfl := Option.some.inj hgiven
  refine ⟨fun later hordinary hlater now hnow => remainingMs_pos (Int.lt_of_lt_of_le hnow ?_),
    fun later hlater now hnow => remainingMs_pos (Int.lt_of_lt_of_le hnow ?_),
    fun later last hlast now hnow => ?_⟩
  · rw [hnotBefore, hordinary]
    refine run_ordinary ?_ ?_ ?_ hlater
    · rw [hwait, hnotBefore, hordinary]
    · rw [hcount, hblocks]
      omega
    · rw [hblocks]
      omega
  · exact run_holds (Int.le_of_eq hwait.symm) hlater
  · rw [(next_reset hlast).1]
    exact remainingMs_zero hnow

section Sample

/-- A journey that is refused, for as long as the host says. -/
def rateLimited (retryAfterMs : Option Int) (time : Int) : Observation where
  decision := .rejected {
    code := "rate_limited"
    message := "Rate limit received; the journey was stopped"
    diagnostics := { httpStatus := some 429, retryAfterMs := retryAfterMs } }
  time := time

theorem deadline_kept_hour :
    (∀ later, (⟨3600000, 3600000, 1⟩ : Retry).delayMs =
        ordinaryMs (⟨3600000, 3600000, 1⟩ : Retry).consecutiveBlocks.toNat →
      (∀ next ∈ later, IsRetried next.decision ∧ (rateLimited (some 3600000) 0).time ≤ next.time) →
      ∀ now < (⟨3600000, 3600000, 1⟩ : Retry).notBefore, 0 < (observations.run
        (observations.next (observations.run {} []) (rateLimited (some 3600000) 0))
          later).remainingMs now) ∧
    (∀ later, observations.Along (Holds (⟨3600000, 3600000, 1⟩ : Retry).notBefore)
        (observations.next (observations.run {} []) (rateLimited (some 3600000) 0)) later →
      ∀ now < (⟨3600000, 3600000, 1⟩ : Retry).notBefore, 0 < (observations.run
        (observations.next (observations.run {} []) (rateLimited (some 3600000) 0))
          later).remainingMs now) ∧
    ∀ later last, ¬IsRetried last.decision → ∀ now, 0 ≤ now →
      (observations.next (observations.run (observations.next (observations.run {} [])
        (rateLimited (some 3600000) 0)) later) last).remainingMs now = 0 :=
  deadline_kept [] (rateLimited (some 3600000) 0) ⟨3600000, 3600000, 1⟩ (by decide +kernel)

/-- A journey that began before another one was refused for an hour ends the wait when it captures. -/
theorem deadline_lost :
    observations.reply {} (rateLimited (some 3600000) 0) = some ⟨3600000, 3600000, 1⟩ ∧
      (observations.run {} [rateLimited (some 3600000) 0,
        ⟨.accepted "https://shop.example/?irclickid=7" "irclickid=7" .documentResponse,
          10000⟩]).remainingMs 10000 = 0 := by
  decide +kernel

end Sample

end LinkSuffix.Backoff
