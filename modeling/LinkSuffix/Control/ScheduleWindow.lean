import LinkSuffix.Js.IpAddress
import LinkSuffix.Js.Numeral
import LinkSuffix.Lib.DailyWindow
import LinkSuffix.Lib.Run
import Mathlib.Tactic.Ring

/-!
# Schedule windows

A saved campaign may have a schedule: a daily window on selected weekdays, in local time.
`saveCampaignInternal` checks the schedule as its values convert, and keeps it as it came;
`saveSchedule` keeps what it has converted. `scheduleWindow` says whether the window is open, and
names its occurrence by the date on which it started, and `reconcileCampaignSchedules` queues the
campaign when it has not been queued for that occurrence. Local time is counted in minutes, a date in
days from 1970-01-01, a Thursday.

* `checkSchedule`, `saveSchedule`, `scheduleWindow`, `reconcile`: the code.
* `Occurs`, `Exact`: what the window should be.
* `Plain`: the times are texts, and every weekday is there as a number.
* **`windows_exact_iff`**: the windows of an accepted schedule are exact if and only if it is plain;
  those of a schedule that `saveSchedule` has kept always are.
* `text_weekday_never_opens`: a weekday given as a text.
-/

namespace LinkSuffix.ScheduleWindow

open Lib

/-! ## Numbers -/

/-- `a + b`. -/
def plus : JsNumber → JsNumber → JsNumber
  | .finite a, .finite b => .finite (a + b)
  | .nan, _ => .nan
  | _, .nan => .nan
  | .infinity a, .infinity b => if a = b then .infinity a else .nan
  | .infinity a, _ => .infinity a
  | _, .infinity b => .infinity b

/-- `a * 60`. -/
def sixtyTimes : JsNumber → JsNumber
  | .finite a => .finite (a * 60)
  | a => a

/-- `a < b`. -/
def less : JsNumber → JsNumber → Bool
  | .finite a, .finite b => a < b
  | .finite _, .infinity b => !b
  | .infinity a, .finite _ => a
  | .infinity a, .infinity b => a && !b
  | _, _ => false

/-- `a <= b`. -/
def atMost (a b : JsNumber) : Bool := less a b || a = b && a ≠ .nan

/-- `a === b` of values of one parsed text: two objects of it are never the same. -/
def strictlyEqual : JsValue → JsValue → Bool
  | .undefined, .undefined => true
  | .null, .null => true
  | .bool a, .bool b => a = b
  | .number a, .number b => a = b && a ≠ .nan
  | .string a, .string b => a = b
  | _, _ => false

/-! ## Schedules -/

/-- The schedule of a campaign, as it is stored. -/
structure Schedule where
  timezone : JsValue
  startTime : JsValue
  stopTime : JsValue
  days : JsValue

/-- `validClockTime` of a text: `/^([01]\d|2[0-3]):[0-5]\d$/`. -/
def isClockTime (text : String) : Bool :=
  match text.toList with
  | [a, b, colon, c, d] =>
    ((a = '0' || a = '1') && b.isDigit || a = '2' && '0' ≤ b && b ≤ '3') && colon = ':'
      && '0' ≤ c && c ≤ '5' && d.isDigit
  | _ => false

/-- `validClockTime(value)`. -/
def validClockTime (value : JsValue) : Bool := isClockTime (value.orElse (.string "")).toText

/-- `Number.isInteger(Number(day)) && Number(day) >= 0 && Number(day) <= 6`. -/
def validDay (day : JsNumber) : Bool := day.integer.any fun k => 0 ≤ k && k ≤ 6

section Code

variable (validTimezone : JsValue → Bool)

/-- What `saveCampaignInternal` checks of a schedule. -/
def checkSchedule (s : Schedule) : Except String Unit :=
  if !validTimezone s.timezone then .error "Select a valid IANA timezone"
  else if !validClockTime s.startTime || !validClockTime s.stopTime
      || strictlyEqual s.startTime s.stopTime then
    .error "Select different valid schedule start and stop times"
  else match s.days with
    | .array days =>
      if days.isEmpty || days.any fun day => !validDay day.toNumber then
        .error "Select at least one valid schedule weekday"
      else .ok ()
    | _ => .error "Select at least one valid schedule weekday"

/-- `[...new Set(days.map(Number))].sort((a, b) => a - b)`, or `[]`. -/
def numericDays : JsValue → List JsNumber
  | .array days => ((days.map JsValue.toNumber).dedup).mergeSort atMost
  | _ => []

/-- `saveSchedule`, the schedule it keeps. -/
def saveSchedule (payload : Schedule) : Except String Schedule :=
  let text (value : JsValue) : String := (value.orElse (.string "")).toText
  let days := numericDays payload.days
  if !validTimezone (.string (text payload.timezone)) then .error "Select a valid IANA timezone"
  else if !isClockTime (text payload.startTime) || !isClockTime (text payload.stopTime)
      || text payload.startTime = text payload.stopTime then
    .error "Select different valid start and stop times in 24-hour format"
  else if days.isEmpty || days.any (!validDay ·) then .error "Select at least one valid weekday"
  else .ok {
    timezone := .string (text payload.timezone)
    startTime := .string (text payload.startTime)
    stopTime := .string (text payload.stopTime)
    days := .array (days.map .number) }

end Code

/-! ## Windows -/

/-- `localScheduleClock`. -/
structure Clock where
  date : Int
  weekday : Nat
  minutes : Nat

/-- The weekday of a date, 0 for Sunday. -/
def weekday (date : Int) : Nat := ((date + 4) % 7).toNat

/-- The clock at a local time. -/
def clock (t : Int) : Clock where
  date := t / 1440
  weekday := weekday (t / 1440)
  minutes := (t % 1440).toNat

/-- `timeMinutes(value)`. Only a text can be split: anything else throws. -/
def timeMinutes (value : JsValue) : Option JsNumber :=
  value.text?.map fun text =>
    let part (n : Nat) : JsNumber := (((splitText ':' text)[n]?).map textToNumber).getD .nan
    plus (sixtyTimes (part 0)) (part 1)

/-- `days.includes(weekday)`, of all weekdays when there is no array. -/
def includesDay (days : JsValue) (day : Nat) : Bool :=
  match days with
  | .array days => days.any fun value => match value with
    | .number n => n = .finite day
    | _ => false
  | _ => day ≤ 6

/-- What `scheduleWindow` returns. -/
structure Window where
  active : Bool
  windowKey : Int
  deriving DecidableEq

/-- `scheduleWindow`, on a clock; `none` when it throws. -/
def scheduleWindow (s : Schedule) (c : Clock) : Option Window := do
  let start ← timeMinutes s.startTime
  let stop ← timeMinutes s.stopTime
  let minutes : JsNumber := .finite c.minutes
  let overnight := atMost stop start
  let afterMidnight := overnight && less minutes stop
  let effectiveWeekday := if afterMidnight then (c.weekday + 6) % 7 else c.weekday
  let selectedDay := includesDay s.days effectiveWeekday
  let activeTime := if overnight then atMost start minutes || less minutes stop
    else atMost start minutes && less minutes stop
  return {
    active := selectedDay && activeTime
    windowKey := if afterMidnight then c.date - 1 else c.date }

/-! ## Ticks -/

/-- The fields of a saved campaign that the reconciliation reads or writes. -/
structure Campaign where
  schedule : Option Schedule
  draftOnly : Bool := false
  proxySelectionPending : Bool := false
  status : String
  desiredRunning : Bool := false
  lastStartedWindow : Option Int := none

/-- `reconcileCampaignSchedules` for one campaign, with an active run or not, and whether it queues
the campaign. When the window throws, the loop ends. -/
def reconcile (c : Campaign) (now : Clock) (active : Bool) : Campaign × Bool :=
  if c.proxySelectionPending then (c, false)
  else match c.schedule with
    | none => (c, false)
    | some schedule =>
      if c.draftOnly then (c, false)
      else match scheduleWindow schedule now with
        | none => (c, false)
        | some window =>
          if !window.active then
            ({ c with
                status := if !active && c.status ≠ "queued" && c.status ≠ "scheduled" then "scheduled"
                  else c.status
                desiredRunning := false }, false)
          else if !active && c.lastStartedWindow ≠ some window.windowKey then
            ({ c with
                lastStartedWindow := some window.windowKey
                desiredRunning := true
                status := "queued" }, true)
          else (c, false)

/-- A tick at a local time; anything else that happens to the campaign leaves its schedule and its
last window. -/
inductive Event where
  | tick (now : Int) (active : Bool)
  | other (draftOnly proxySelectionPending : Bool) (status : String) (desiredRunning : Bool)

/-- The campaign under its ticks. -/
def scheduler : EventSystem Campaign Event Bool where
  step c
    | .tick now active => reconcile c (clock now) active
    | .other draftOnly proxySelectionPending status desiredRunning =>
      ({ c with draftOnly, proxySelectionPending, status, desiredRunning }, false)

/-- The local times of the ticks. -/
def ticks (es : List Event) : List Int :=
  es.filterMap fun
    | .tick now _ => some now
    | .other .. => none

/-- The time of a tick that queues the campaign. -/
def queues (c : Campaign) : Event → List Int
  | .tick now active => if (reconcile c (clock now) active).2 then [now] else []
  | .other .. => []

/-- The times at which the campaign is queued. -/
def queuedAt (c : Campaign) (es : List Event) : List Int := scheduler.collect queues c es

/-! ## Clock times -/

/-- The minute of the day that a clock time stands for. -/
def clockMinutes (text : String) : Int :=
  match text.toList.map fun c => (c.toNat : Int) - 48 with
  | [a, b, _, c, d] => 60 * (10 * a + b) + (10 * c + d)
  | _ => 0

/-- The digit of a number below ten. -/
def digit (n : Nat) : Char := Char.ofNat (48 + n)

theorem exists_digit {c : Char} (h : c.isDigit = true) : ∃ n < 10, c = digit n := by
  simp only [Char.isDigit, ge_iff_le, Bool.and_eq_true, decide_eq_true_eq,
    UInt32.le_iff_toNat_le] at h
  have hzero : ('0'.val).toNat = 48 := rfl
  have hnine : ('9'.val).toNat = 57 := rfl
  have hval : c.val.toNat = c.toNat := rfl
  refine ⟨c.toNat - 48, by omega, ?_⟩
  rw [digit, show 48 + (c.toNat - 48) = c.toNat by omega, Char.ofNat_toNat]

theorem digit_toNat : ∀ n < 10, ((digit n).toNat : Int) - 48 = n := by decide +kernel

theorem digit_ne_colon : ∀ n < 10, digit n ≠ ':' := by decide +kernel

theorem digit_le_five : ∀ n < 10, digit n ≤ '5' → n < 6 := by decide +kernel

theorem digit_hours : ∀ i < 10, ∀ j < 10, (digit i = '0' ∨ digit i = '1') ∨
    digit i = '2' ∧ digit j ≤ '3' → 10 * i + j < 24 := by decide +kernel

/-- Two digits as a number. -/
theorem textToNumber_digits : ∀ i < 10, ∀ j < 10,
    textToNumber (String.ofList [digit i, digit j]) = .finite ((10 * i + j : Nat) : ℚ) := by
  intro i hi j hj
  have hparse : ∀ i < 10, ∀ j < 10, parseDigits [digit i, digit j] = some (10 * i + j) := by
    decide +kernel
  exact textToNumber_digitText (hparse i hi j hj)

/-- The digits of a clock time. -/
theorem clock_digits {text : String} (h : isClockTime text = true) :
    ∃ i j k l, i < 10 ∧ j < 10 ∧ k < 6 ∧ l < 10 ∧ 10 * i + j < 24 ∧
      text.toList = [digit i, digit j, ':', digit k, digit l] := by
  unfold isClockTime at h
  split at h
  case h_2 => exact absurd h nofun
  case h_1 a b colon c d htext =>
    simp only [Bool.and_eq_true, Bool.or_eq_true, decide_eq_true_eq] at h
    obtain ⟨⟨⟨⟨hhour, rfl⟩, hc⟩, hc'⟩, hd⟩ := h
    have ha : a.isDigit = true := by
      rcases hhour with ⟨rfl | rfl, -⟩ | ⟨⟨rfl, -⟩, -⟩ <;> rfl
    have hb : b.isDigit = true := by
      rcases hhour with ⟨-, hb⟩ | ⟨⟨-, hb⟩, hb'⟩
      · exact hb
      · exact Bool.and_eq_true_iff.mpr ⟨decide_eq_true hb,
          decide_eq_true (le_trans hb' (by decide))⟩
    have hcDigit : c.isDigit = true :=
      Bool.and_eq_true_iff.mpr ⟨decide_eq_true hc, decide_eq_true (le_trans hc' (by decide))⟩
    obtain ⟨i, hi, rfl⟩ := exists_digit ha
    obtain ⟨j, hj, rfl⟩ := exists_digit hb
    obtain ⟨k, hk, rfl⟩ := exists_digit hcDigit
    obtain ⟨l, hl, rfl⟩ := exists_digit hd
    refine ⟨i, j, k, l, hi, hj, digit_le_five k hk hc', hl, digit_hours i hi j hj ?_, htext⟩
    rcases hhour with ⟨hfirst, -⟩ | ⟨⟨hfirst, -⟩, hsecond⟩
    · exact Or.inl hfirst
    · exact Or.inr ⟨hfirst, hsecond⟩

theorem clockMinutes_digits {text : String} {i j k l : Nat} (hi : i < 10) (hj : j < 10)
    (hk : k < 6) (hl : l < 10) (h : text.toList = [digit i, digit j, ':', digit k, digit l]) :
    clockMinutes text = 60 * (10 * i + j) + (10 * k + l) := by
  simp only [clockMinutes, h, List.map_cons, List.map_nil, digit_toNat i hi, digit_toNat j hj,
    digit_toNat k (by omega), digit_toNat l hl]

/-- **The minutes of a clock time** are within the day, are what the code reads, and determine the
text. -/
theorem clock_time {text : String} (h : isClockTime text = true) :
    0 ≤ clockMinutes text ∧ clockMinutes text < 1440 ∧
      timeMinutes (.string text) = some (.finite (clockMinutes text)) ∧
      ∀ other, isClockTime other = true → clockMinutes other = clockMinutes text →
        other = text := by
  obtain ⟨i, j, k, l, hi, hj, hk, hl, hhour, htext⟩ := clock_digits h
  have hminutes := clockMinutes_digits hi hj hk hl htext
  refine ⟨by omega, by omega, ?_, fun other hother heq => ?_⟩
  · have hpieces : splitText ':' text =
        [String.ofList [digit i, digit j], String.ofList [digit k, digit l]] := by
      have hhours : ':' ∉ [digit i, digit j] := by
        simp [(digit_ne_colon i hi).symm, (digit_ne_colon j hj).symm]
      have hminutes : ':' ∉ [digit k, digit l] := by
        simp [(digit_ne_colon k (by omega)).symm, (digit_ne_colon l hl).symm]
      have hnext := splitOnChar_next hhours [digit k, digit l]
      have hlast := splitOnChar_piece hminutes
      rw [splitText, htext]
      show (splitOnChar ':' ([digit i, digit j] ++ ':' :: [digit k, digit l])).map _ = _
      rw [hnext, hlast]
      rfl
    simp only [timeMinutes, JsValue.text?, Option.map_some, hpieces, List.getElem?_cons_zero,
      List.getElem?_cons_succ, Option.getD_some, textToNumber_digits i hi j hj,
      textToNumber_digits k (by omega) l hl, sixtyTimes, plus, hminutes]
    push_cast
    congr 2
    ring
  · obtain ⟨i', j', k', l', hi', hj', hk', hl', hhour', htext'⟩ := clock_digits hother
    have hminutes' := clockMinutes_digits hi' hj' hk' hl' htext'
    obtain ⟨rfl, rfl, rfl, rfl⟩ : i' = i ∧ j' = j ∧ k' = k ∧ l' = l := by omega
    exact String.toList_injective (htext'.trans htext.symm)

/-! ## What the window should be -/

/-- The minute at which the window of a schedule starts. -/
def Schedule.start (s : Schedule) : Int := clockMinutes (s.startTime.orElse (.string "")).toText

/-- The minute at which it stops. -/
def Schedule.stop (s : Schedule) : Int := clockMinutes (s.stopTime.orElse (.string "")).toText

/-- A local time is in the occurrence that starts on a date. -/
def Occurs (s : Schedule) (date t : Int) : Prop := DailyWindow.Covers s.start s.stop date t

/-- The weekday of a date is selected: an entry of `days` converts to it. -/
def Selected (s : Schedule) (date : Int) : Prop :=
  ∃ day ∈ s.days.items, day.toNumber = .finite (weekday date)

/-- The windows of a schedule are exact: open in the occurrences of the selected days, with the date
of the occurrence as the key; so that keys tell occurrences apart, and a campaign is queued once at
most for each, from ticks in the order of the local time. -/
structure Exact (s : Schedule) : Prop where
  window : ∀ t, ∃ w, scheduleWindow s (clock t) = some w ∧
    (w.active = true ↔ ∃ date, Selected s date ∧ Occurs s date t) ∧
    ∀ date, Selected s date → Occurs s date t → w.windowKey = date
  keys : ∀ t t' w w', scheduleWindow s (clock t) = some w → scheduleWindow s (clock t') = some w' →
    w.active = true → w'.active = true →
    (w.windowKey = w'.windowKey ↔ ∃ date, Occurs s date t ∧ Occurs s date t')
  once : ∀ c es, c.schedule = some s → (ticks es).Pairwise (· ≤ ·) →
    (queuedAt c es).Pairwise fun t t' => ¬ ∃ date, Occurs s date t ∧ Occurs s date t'

/-- The times are texts, and the number an entry of `days` converts to is an entry itself. -/
structure Plain (s : Schedule) : Prop where
  startTime : ∃ text, s.startTime = .string text
  stopTime : ∃ text, s.stopTime = .string text
  days : ∀ day ∈ s.days.items, .number day.toNumber ∈ s.days.items

/-! ## The window of a day -/

theorem less_int (a b : Int) : less (.finite a) (.finite b) = decide (a < b) := by
  simp [less]

theorem atMost_int (a b : Int) : atMost (.finite a) (.finite b) = decide (a ≤ b) := by
  rw [atMost, less_int]
  have hequal : (JsNumber.finite (a : ℚ) = .finite b) ↔ a = b := by simp
  by_cases h : a ≤ b
  · rcases lt_or_eq_of_le h with hlt | rfl
    · simp [hlt, h]
    · simp
  · simp [hequal, h, not_lt.mpr (le_of_lt (not_le.mp h)), show a ≠ b by omega]

theorem weekday_pred (date : Int) : (weekday date + 6) % 7 = weekday (date - 1) := by
  unfold weekday
  omega

/-- The date on which the occurrence of a time starts, if the time is in one. -/
def keyOf (start stop t : Int) : Int :=
  if stop ≤ start ∧ t % 1440 < stop then t / 1440 - 1 else t / 1440

/-- The time of the day is in the window. -/
def isOpen (start stop t : Int) : Bool :=
  if stop ≤ start then start ≤ t % 1440 || t % 1440 < stop
  else start ≤ t % 1440 && t % 1440 < stop

/-- **The window, its weekday and its key speak of one date.** -/
theorem scheduleWindow_eq {s : Schedule} {start stop : Int}
    (hstart : timeMinutes s.startTime = some (.finite start))
    (hstop : timeMinutes s.stopTime = some (.finite stop)) (t : Int) :
    scheduleWindow s (clock t) = some
      { active := includesDay s.days (weekday (keyOf start stop t)) && isOpen start stop t
        windowKey := keyOf start stop t } := by
  have hminutes : (((t % 1440).toNat : Nat) : ℚ) = ((t % 1440 : Int) : ℚ) := by
    have hcast : ((t % 1440).toNat : Int) = t % 1440 := by omega
    exact_mod_cast hcast
  simp only [scheduleWindow, hstart, hstop, hminutes, less_int, atMost_int, Option.bind_eq_bind,
    Option.bind_some, Option.pure_def, keyOf, isOpen, clock, weekday_pred]
  by_cases hovernight : stop ≤ start
  · by_cases hafter : t % 1440 < stop <;> simp [hovernight, hafter]
  · simp [hovernight]

section Day

variable {start stop t date : Int} (hstart : 0 ≤ start) (hstart' : start < 1440)
  (hstop : 0 ≤ stop) (hstop' : stop < 1440)

include hstart hstart' hstop hstop'

theorem isOpen_iff (hne : start ≠ stop) :
    isOpen start stop t = true ↔ DailyWindow.Covers start stop (keyOf start stop t) t := by
  rw [DailyWindow.covers_iff hstart hstart' hstop hstop']
  unfold isOpen keyOf
  by_cases hovernight : stop ≤ start
  · have hlt : stop < start := by omega
    rw [if_pos hovernight, if_pos hlt]
    by_cases hafter : t % 1440 < stop <;> simp [hovernight, hafter]
  · have hlt : ¬ stop < start := by omega
    rw [if_neg hovernight, if_neg hlt]
    simp [hovernight]

theorem key_of_covers (h : DailyWindow.Covers start stop date t) : keyOf start stop t = date := by
  rw [DailyWindow.covers_iff hstart hstart' hstop hstop'] at h
  unfold keyOf
  split_ifs at h ⊢ <;> omega

end Day

/-! ## Accepted schedules -/

variable {validTimezone : JsValue → Bool} {s : Schedule}

/-- What the check of a schedule leaves. -/
theorem check_ok (h : checkSchedule validTimezone s = .ok ()) :
    validClockTime s.startTime = true ∧ validClockTime s.stopTime = true ∧
      strictlyEqual s.startTime s.stopTime = false ∧
      (∃ items, s.days = .array items) ∧
      ∀ day ∈ s.days.items, validDay day.toNumber = true := by
  unfold checkSchedule at h
  split at h
  case isTrue => exact absurd h nofun
  case isFalse =>
    split at h
    case isTrue => exact absurd h nofun
    case isFalse htimes =>
      simp only [Bool.not_eq_true, Bool.or_eq_false_iff, Bool.not_eq_false'] at htimes
      obtain ⟨⟨hstart, hstop⟩, hdifferent⟩ := htimes
      split at h
      case h_2 => exact absurd h nofun
      case h_1 days hdays =>
        split at h
        case isTrue => exact absurd h nofun
        case isFalse hvalid =>
          simp only [Bool.not_eq_true, Bool.or_eq_false_iff, List.any_eq_false,
            Bool.not_eq_true', Bool.not_eq_false] at hvalid
          rw [hdays]
          exact ⟨hstart, hstop, hdifferent, ⟨days, rfl⟩, hvalid.2⟩

/-- The times of a schedule that are texts and differ. -/
structure Timed (s : Schedule) : Prop where
  start : 0 ≤ s.start ∧ s.start < 1440 ∧ timeMinutes s.startTime = some (.finite s.start)
  stop : 0 ≤ s.stop ∧ s.stop < 1440 ∧ timeMinutes s.stopTime = some (.finite s.stop)
  ne : s.start ≠ s.stop

theorem timed_of_texts {startText stopText : String} (hstart : s.startTime = .string startText)
    (hstop : s.stopTime = .string stopText) (hvalid : isClockTime startText = true)
    (hvalid' : isClockTime stopText = true) (hne : startText ≠ stopText) : Timed s := by
  have hstart' : s.start = clockMinutes startText := by
    simp [Schedule.start, hstart, JsValue.orElse, JsValue.isNullish, JsValue.toText]
  have hstop' : s.stop = clockMinutes stopText := by
    simp [Schedule.stop, hstop, JsValue.orElse, JsValue.isNullish, JsValue.toText]
  obtain ⟨hlow, hhigh, hread, -⟩ := clock_time hvalid
  obtain ⟨hlow', hhigh', hread', hdetermined⟩ := clock_time hvalid'
  refine ⟨?_, ?_, ?_⟩
  · rw [hstart', hstart]
    exact ⟨hlow, hhigh, hread⟩
  · rw [hstop', hstop]
    exact ⟨hlow', hhigh', hread'⟩
  · rw [hstart', hstop']
    exact fun heq => hne (hdetermined startText hvalid heq)

theorem timed_of_plain (h : checkSchedule validTimezone s = .ok ()) (hplain : Plain s) :
    Timed s := by
  obtain ⟨hvalid, hvalid', hdifferent, -, -⟩ := check_ok h
  obtain ⟨startText, hstart⟩ := hplain.startTime
  obtain ⟨stopText, hstop⟩ := hplain.stopTime
  rw [hstart] at hvalid hdifferent
  rw [hstop] at hvalid' hdifferent
  exact timed_of_texts hstart hstop hvalid hvalid' (by simpa [strictlyEqual] using hdifferent)

theorem includesDay_iff {days : JsValue} {day : Nat} (h : ∃ items, days = .array items) :
    includesDay days day = true ↔ JsValue.number (.finite day) ∈ days.items := by
  obtain ⟨items, rfl⟩ := h
  show (items.any fun value => match value with
    | .number n => n = .finite day
    | _ => false) = true ↔ _ ∈ items
  rw [List.any_eq_true]
  constructor
  · rintro ⟨value, hvalue, hday⟩
    split at hday
    case h_1 n =>
      rwa [of_decide_eq_true hday] at hvalue
    case h_2 => exact absurd hday nofun
  · exact fun hvalue => ⟨_, hvalue, by simp⟩

/-! ## Exact windows -/

/-- The date of the occurrence a time may be in. -/
def key (s : Schedule) (t : Int) : Int := keyOf s.start s.stop t

theorem Timed.window (h : Timed s) (t : Int) : scheduleWindow s (clock t) = some
    { active := includesDay s.days (weekday (key s t)) && isOpen s.start s.stop t
      windowKey := key s t } :=
  scheduleWindow_eq h.start.2.2 h.stop.2.2 t

theorem Timed.key_of_occurs (h : Timed s) {date t : Int} (ht : Occurs s date t) :
    key s t = date :=
  key_of_covers h.start.1 h.start.2.1 h.stop.1 h.stop.2.1 ht

theorem Timed.active_iff (h : Timed s) (t : Int) :
    (includesDay s.days (weekday (key s t)) && isOpen s.start s.stop t) = true ↔
      includesDay s.days (weekday (key s t)) = true ∧ Occurs s (key s t) t := by
  rw [Bool.and_eq_true, isOpen_iff h.start.1 h.start.2.1 h.stop.1 h.stop.2.1 h.ne]
  rfl

/-! ### Ticks -/

/-- The reconciliation keeps the schedule, and queues the campaign in an open window only, whose key
is not the last one and becomes it. -/
theorem reconcile_spec {c : Campaign} (hc : c.schedule = some s) (now : Clock) (active : Bool) :
    (reconcile c now active).1.schedule = some s ∧
      ((reconcile c now active).2 = false ∧
          (reconcile c now active).1.lastStartedWindow = c.lastStartedWindow ∨
        (reconcile c now active).2 = true ∧ ∃ w, scheduleWindow s now = some w ∧
          w.active = true ∧ c.lastStartedWindow ≠ some w.windowKey ∧
          (reconcile c now active).1.lastStartedWindow = some w.windowKey) := by
  unfold reconcile
  rw [hc]
  split
  case isTrue => exact ⟨hc, Or.inl ⟨rfl, rfl⟩⟩
  case isFalse =>
    dsimp only
    split
    case isTrue => exact ⟨hc, Or.inl ⟨rfl, rfl⟩⟩
    case isFalse =>
      split
      case h_1 => exact ⟨hc, Or.inl ⟨rfl, rfl⟩⟩
      case h_2 w hw =>
        split
        case isTrue => exact ⟨rfl, Or.inl ⟨rfl, rfl⟩⟩
        case isFalse hopen =>
          split
          case isTrue hqueue =>
            simp only [Bool.and_eq_true, decide_eq_true_eq] at hqueue
            exact ⟨rfl, Or.inr ⟨rfl, w, hw, by simpa using hopen, hqueue.2, rfl⟩⟩
          case isFalse => exact ⟨hc, Or.inl ⟨rfl, rfl⟩⟩

/-- What the ticks so far have done: the campaign was queued in occurrences, each later than the one
before, and the last window is that of the last of them. -/
structure Queued (s : Schedule) (times queued : List Int) (c : Campaign) : Prop where
  schedule : c.schedule = some s
  ticked : ∀ t ∈ queued, t ∈ times
  occurs : ∀ t ∈ queued, Occurs s (key s t) t
  later : queued.Pairwise fun t t' => key s t < key s t'
  last : queued ≠ [] → ∃ t ∈ queued, c.lastStartedWindow = some (key s t) ∧
    ∀ t' ∈ queued, key s t' ≤ key s t

theorem ticks_concat (es : List Event) (e : Event) : ticks (es ++ [e]) = ticks es ++ ticks [e] :=
  List.filterMap_append

/-- **One event**: a tick queues the campaign for a later occurrence only. -/
theorem Queued.next (h : Timed s) {c : Campaign} {times queued : List Int}
    (hq : Queued s times queued c) {e : Event} (hsorted : (times ++ ticks [e]).Pairwise (· ≤ ·)) :
    Queued s (times ++ ticks [e]) (queued ++ queues c e) (scheduler.next c e) := by
  cases e with
  | other draftOnly proxySelectionPending status desiredRunning =>
    have htimes : times ++ ticks [.other draftOnly proxySelectionPending status desiredRunning]
        = times := List.append_nil times
    rw [htimes]
    show Queued s times (queued ++ []) _
    rw [List.append_nil]
    exact ⟨hq.schedule, hq.ticked, hq.occurs, hq.later, hq.last⟩
  | tick now active =>
    have htimes : times ++ ticks [.tick now active] = times ++ [now] := rfl
    rw [htimes] at hsorted ⊢
    have hkept : ∀ t ∈ queued, t ∈ times ++ [now] := fun t ht =>
      List.mem_append_left _ (hq.ticked t ht)
    obtain ⟨hschedule, ⟨hidle, hlast⟩ | ⟨hqueues, w, hw, hactive, hnew, hlast⟩⟩ :=
      reconcile_spec hq.schedule (clock now) active
    · have hnone : queues c (.tick now active) = [] := by simp [queues, hidle]
      rw [hnone, List.append_nil]
      refine ⟨hschedule, hkept, hq.occurs, hq.later, fun hne => ?_⟩
      obtain ⟨t, ht, hkey, hmost⟩ := hq.last hne
      exact ⟨t, ht, hlast.trans hkey, hmost⟩
    · have hone : queues c (.tick now active) = [now] := by simp [queues, hqueues]
      have hwindow := h.window now
      obtain rfl := Option.some.inj (hw.symm.trans hwindow)
      have hoccurs := ((h.active_iff now).mp hactive).2
      have hlater : ∀ t ∈ queued, key s t < key s now := by
        intro t ht
        obtain ⟨last, hmem, hkey, hmost⟩ := hq.last (List.ne_nil_of_mem ht)
        have hle : last ≤ now := (List.pairwise_append.mp hsorted).2.2 last (hq.ticked last hmem) now
          (List.mem_singleton_self now)
        have hmono : key s last ≤ key s now :=
          DailyWindow.covers_mono h.start.1 h.start.2.1 h.stop.1 h.stop.2.1 (hq.occurs last hmem)
            hoccurs hle
        have hne : key s last ≠ key s now := fun heq => hnew (by rw [hkey, heq])
        exact lt_of_le_of_lt (hmost t ht) (lt_of_le_of_ne hmono hne)
      rw [hone]
      refine ⟨hschedule, fun t ht => ?_, fun t ht => ?_, ?_, fun _ => ?_⟩
      · rcases List.mem_append.mp ht with ht | ht
        · exact hkept t ht
        · exact List.mem_append_right _ ht
      · rcases List.mem_append.mp ht with ht | ht
        · exact hq.occurs t ht
        · rw [List.mem_singleton.mp ht]
          exact hoccurs
      · refine List.pairwise_append.mpr ⟨hq.later, List.pairwise_singleton _ _, fun t ht t' ht' => ?_⟩
        rw [List.mem_singleton.mp ht']
        exact hlater t ht
      · refine ⟨now, List.mem_append_right _ (List.mem_singleton_self now), hlast, fun t ht => ?_⟩
        rcases List.mem_append.mp ht with ht | ht
        · exact (hlater t ht).le
        · rw [List.mem_singleton.mp ht]

theorem run_queued (h : Timed s) {c : Campaign} (hc : c.schedule = some s) {es : List Event}
    (hsorted : (ticks es).Pairwise (· ≤ ·)) :
    Queued s (ticks es) (queuedAt c es) (scheduler.run c es) := by
  induction es using List.reverseRecOn with
  | nil => exact ⟨hc, nofun, nofun, .nil, fun hne => absurd rfl hne⟩
  | append_singleton es e ih =>
    rw [ticks_concat] at hsorted ⊢
    rw [queuedAt, EventSystem.collect_concat, EventSystem.run_concat]
    exact (ih (List.pairwise_append.mp hsorted).1).next h hsorted

/-- **The windows are exact** when the times are texts and `includes` finds the selected days. -/
theorem Timed.exact (h : Timed s)
    (hdays : ∀ date, includesDay s.days (weekday date) = true ↔ Selected s date) : Exact s where
  window t := by
    refine ⟨_, h.window t, ?_, fun date _ hoccurs => h.key_of_occurs hoccurs⟩
    rw [h.active_iff, hdays]
    constructor
    · exact fun hopen => ⟨_, hopen⟩
    · rintro ⟨date, hselected, hoccurs⟩
      rw [h.key_of_occurs hoccurs]
      exact ⟨hselected, hoccurs⟩
  keys t t' w w' hw hw' hactive hactive' := by
    obtain rfl := Option.some.inj (hw.symm.trans (h.window t))
    obtain rfl := Option.some.inj (hw'.symm.trans (h.window t'))
    have hoccurs := ((h.active_iff t).mp hactive).2
    have hoccurs' := ((h.active_iff t').mp hactive').2
    constructor
    · intro hkey
      have hsame : key s t = key s t' := hkey
      exact ⟨key s t, hoccurs, hsame ▸ hoccurs'⟩
    · rintro ⟨date, hdate, hdate'⟩
      exact (h.key_of_occurs hdate).trans (h.key_of_occurs hdate').symm
  once c es hc hsorted := by
    refine (run_queued h hc hsorted).later.imp fun {t t'} hlt => ?_
    rintro ⟨date, hdate, hdate'⟩
    rw [h.key_of_occurs hdate, h.key_of_occurs hdate'] at hlt
    exact absurd hlt (lt_irrefl _)

/-! ## When they are -/

theorem exact_of_plain (h : checkSchedule validTimezone s = .ok ()) (hplain : Plain s) : Exact s := by
  refine (timed_of_plain h hplain).exact fun date => ?_
  rw [includesDay_iff (check_ok h).2.2.2.1]
  constructor
  · exact fun hday => ⟨_, hday, rfl⟩
  · rintro ⟨day, hday, hconverts⟩
    rw [← hconverts]
    exact hplain.days day hday

/-- A valid day is a number from 0 to 6. -/
theorem exists_of_validDay {n : JsNumber} (h : validDay n = true) :
    ∃ date, n = .finite (weekday date) := by
  unfold validDay at h
  cases n with
  | nan => exact absurd h nofun
  | infinity negative => exact absurd h nofun
  | finite q =>
    simp only [JsNumber.integer] at h
    split at h
    case isFalse => exact absurd h nofun
    case isTrue hwhole =>
      simp only [Option.any_some, Bool.and_eq_true, decide_eq_true_eq] at h
      refine ⟨q.num - 4, ?_⟩
      have hday : ((weekday (q.num - 4) : Nat) : Int) = q.num := by
        unfold weekday
        omega
      have hq : q = (q.num : ℚ) := ((Rat.den_eq_one_iff q).mp hwhole).symm
      rw [hq]
      have hcast : ((weekday (q.num - 4) : Nat) : ℚ) = (q.num : ℚ) := by exact_mod_cast hday
      rw [Rat.num_intCast, hcast]

theorem text_of_timeMinutes {value : JsValue} {n : JsNumber} (h : timeMinutes value = some n) :
    ∃ text, value = .string text := by
  cases value with
  | string text => exact ⟨text, rfl⟩
  | undefined => exact absurd h nofun
  | null => exact absurd h nofun
  | bool flag => exact absurd h nofun
  | number n => exact absurd h nofun
  | array items => exact absurd h nofun
  | object fields => exact absurd h nofun

theorem plain_of_exact (h : checkSchedule validTimezone s = .ok ()) (hexact : Exact s) :
    Plain s := by
  obtain ⟨hvalid, hvalid', hdifferent, harray, hdays⟩ := check_ok h
  obtain ⟨w, hw, -⟩ := hexact.window 0
  -- The window does not throw, so the times are texts.
  have htexts : (∃ text, s.startTime = .string text) ∧ ∃ text, s.stopTime = .string text := by
    cases hstart : timeMinutes s.startTime with
    | none => simp [scheduleWindow, hstart] at hw
    | some start =>
      cases hstop : timeMinutes s.stopTime with
      | none => simp [scheduleWindow, hstart, hstop] at hw
      | some stop => exact ⟨text_of_timeMinutes hstart, text_of_timeMinutes hstop⟩
  obtain ⟨⟨startText, hstart⟩, stopText, hstop⟩ := htexts
  have htimed : Timed s := by
    rw [hstart] at hvalid hdifferent
    rw [hstop] at hvalid' hdifferent
    exact timed_of_texts hstart hstop hvalid hvalid' (by simpa [strictlyEqual] using hdifferent)
  refine ⟨⟨startText, hstart⟩, ⟨stopText, hstop⟩, fun day hday => ?_⟩
  -- The window of a selected day is open when it starts, so `includes` finds the day.
  obtain ⟨date, hdate⟩ := exists_of_validDay (hdays day hday)
  have hoccurs : Occurs s date (1440 * date + s.start) :=
    DailyWindow.covers_start htimed.ne htimed.start.1 htimed.stop.1 htimed.start.2.1
  obtain ⟨w, hw, hactive, -⟩ := hexact.window (1440 * date + s.start)
  obtain rfl := Option.some.inj (hw.symm.trans (htimed.window _))
  have hopen := (htimed.active_iff _).mp (hactive.mpr ⟨date, ⟨day, hday, hdate⟩, hoccurs⟩)
  rw [htimed.key_of_occurs hoccurs, includesDay_iff harray, ← hdate] at hopen
  exact hopen.1

theorem saveSchedule_exact {payload : Schedule} (h : saveSchedule validTimezone payload = .ok s) :
    Exact s := by
  simp only [saveSchedule] at h
  split at h
  case isTrue => exact absurd h nofun
  case isFalse =>
    split at h
    case isTrue => exact absurd h nofun
    case isFalse htimes =>
      split at h
      case isTrue => exact absurd h nofun
      case isFalse hdays =>
        obtain rfl := Except.ok.inj h
        simp only [Bool.not_eq_true, Bool.or_eq_false_iff, Bool.not_eq_false',
          decide_eq_false_iff_not] at htimes
        obtain ⟨⟨hstart, hstop⟩, hne⟩ := htimes
        refine (timed_of_texts rfl rfl hstart hstop hne).exact fun date => ?_
        rw [includesDay_iff ⟨_, rfl⟩]
        constructor
        · exact fun hday => ⟨_, hday, rfl⟩
        · rintro ⟨day, hday, hconverts⟩
          obtain ⟨n, hn, rfl⟩ := List.mem_map.mp hday
          have hsame : n = .finite (weekday date) := hconverts
          rwa [← hsame]

/-- **When the windows are exact**: those of a schedule that a saved campaign is accepted with, if
and only if its times are texts and its weekdays are there as numbers; those of a schedule that
`saveSchedule` keeps, always. -/
theorem windows_exact_iff (validTimezone : JsValue → Bool) :
    (∀ s, checkSchedule validTimezone s = .ok () → (Exact s ↔ Plain s)) ∧
      ∀ payload s, saveSchedule validTimezone payload = .ok s → Exact s :=
  ⟨fun _ h => ⟨plain_of_exact h, exact_of_plain h⟩, fun _ _ h => saveSchedule_exact h⟩

/-- Monday, as a text. -/
def textWeekday : Schedule where
  timezone := .string "UTC"
  startTime := .string "08:00"
  stopTime := .string "17:00"
  days := .array [.string "1"]

/-- **A weekday given as a text is accepted, and its window never opens.** -/
theorem text_weekday_never_opens : checkSchedule (fun _ => true) textWeekday = .ok () ∧
    ¬ Exact textWeekday := by
  have haccepted : checkSchedule (fun _ => true) textWeekday = .ok () := by decide +kernel
  refine ⟨haccepted, fun hexact => ?_⟩
  have hday := (plain_of_exact haccepted hexact).days (.string "1") List.mem_cons_self
  exact absurd (List.mem_singleton.mp hday) nofun

end LinkSuffix.ScheduleWindow
