import LinkSuffix.Lib.Run

/-!
# Fixed windows

A counter counts in windows: the first event after a window has ended opens the next, and an event
is accepted while its window has not counted more than a limit.

* `Hit`, `counter`: the events, and the counter.
* `accepted_within`: under a clock that does not go back, no interval as long as a window has more
  than twice the limit of accepted events.
-/

namespace LinkSuffix.Lib

/-- A window: what it has counted, and when it ends. -/
structure Window where
  count : Nat
  resetAt : Nat

namespace FixedWindow

/-- An event: its time, the length of a window it opens, and the limit it is held to. -/
structure Hit where
  now : Nat
  span : Nat
  limit : Nat

/-- The window an event is counted in. -/
def Hit.current (h : Hit) (w : Option Window) : Window :=
  (w.filter (h.now < ·.resetAt)).getD ⟨0, h.now + h.span⟩

/-- The window with the event counted. -/
def Hit.counted (h : Hit) (w : Option Window) : Window :=
  { h.current w with count := (h.current w).count + 1 }

theorem Hit.counted_congr {h : Hit} {w w' : Option Window}
    (hw : w.filter (h.now < ·.resetAt) = w'.filter (h.now < ·.resetAt)) :
    h.counted w = h.counted w' := by
  unfold Hit.counted Hit.current
  rw [hw]

/-- An event is accepted while its window has not counted more than its limit. -/
def Hit.accepted (h : Hit) (w : Option Window) : Bool := (h.counted w).count ≤ h.limit

/-- The counter. -/
def counter : EventSystem (Option Window) Hit Bool where
  step w h := (some (h.counted w), h.accepted w)

/-- The times of the accepted events. -/
def times (w : Option Window) (hs : List Hit) : List Nat :=
  counter.collect (fun w h => if h.accepted w then [h.now] else []) w hs

variable {h : Hit} {w : Option Window} {hs : List Hit} {limit span t a : Nat}

@[simp] theorem counter_next : counter.next w h = some (h.counted w) := rfl

theorem times_concat : times w (hs ++ [h]) =
    times w hs ++ if h.accepted (counter.run w hs) then [h.now] else [] :=
  EventSystem.collect_concat _

/-- The last window; before the first event one that has counted nothing and has ended. -/
def last (w : Option Window) : Window := w.getD ⟨0, 0⟩

/-- An event finds the last window open, or opens one. -/
theorem Hit.counted_cases (h : Hit) (w : Option Window) :
    (h.now < (last w).resetAt ∧ h.counted w = ⟨(last w).count + 1, (last w).resetAt⟩) ∨
      ((last w).resetAt ≤ h.now ∧ h.counted w = ⟨1, h.now + h.span⟩) := by
  unfold Hit.counted Hit.current last
  cases w with
  | none => exact Or.inr ⟨Nat.zero_le _, rfl⟩
  | some v =>
    by_cases hv : h.now < v.resetAt
    · exact Or.inl ⟨hv, by simp [Option.filter_some, hv]⟩
    · exact Or.inr ⟨Nat.le_of_not_lt hv, by simp [Option.filter_some, hv]⟩

/-! ## Any interval -/

/-- How many events an interval from `a` can have had accepted by the last window: none before it,
those of one window, or those of two. -/
def most (limit span a : Nat) (v : Window) : Nat :=
  if v.resetAt ≤ a then 0
  else if v.resetAt ≤ a + span then min v.count limit
  else if v.resetAt < a + 2 * span then limit + min v.count limit
  else 2 * limit

/-- An event counted in the open window. -/
theorem most_same (limit a : Nat) {v : Window} (hopen : t < v.resetAt) (hstart : v.resetAt ≤ t + span) :
    most limit span a v +
        (if v.count + 1 ≤ limit ∧ a ≤ t ∧ t < a + span then 1 else 0) ≤
      most limit span a ⟨v.count + 1, v.resetAt⟩ := by
  unfold most
  grind

/-- An event that opens a window. -/
theorem most_opened (span a : Nat) {v : Window} (hlimit : 1 ≤ limit) (hclosed : v.resetAt ≤ t) :
    most limit span a v + (if a ≤ t ∧ t < a + span then 1 else 0) ≤
      most limit span a ⟨1, t + span⟩ := by
  unfold most
  grind

/-- The accepted events of an interval, and how far the last window reaches. -/
theorem run_most (hlimit : 1 ≤ limit) (hconf : ∀ h ∈ hs, h.span = span ∧ h.limit = limit)
    (hclock : hs.Pairwise (·.now ≤ ·.now)) (a : Nat) :
    (times none hs).countP (fun t => a ≤ t ∧ t < a + span) ≤
        most limit span a (last (counter.run none hs)) ∧
      ∀ t, (∀ h ∈ hs, h.now ≤ t) → (last (counter.run none hs)).resetAt ≤ t + span := by
  induction hs using List.reverseRecOn with
  | nil => exact ⟨Nat.zero_le _, fun t _ => Nat.zero_le _⟩
  | append_singleton hs h ih =>
    obtain ⟨rfl, rfl⟩ := hconf h (by simp)
    rw [List.pairwise_append] at hclock
    obtain ⟨hcount, hstart⟩ := ih (fun g hg => hconf g (by simp [hg])) hclock.1
    have hstart := hstart h.now fun g hg => hclock.2.2 g hg h (by simp)
    rw [times_concat, EventSystem.run_concat, counter_next, List.countP_append]
    unfold Hit.accepted
    rcases h.counted_cases (counter.run none hs) with ⟨hopen, hc⟩ | ⟨hclosed, hc⟩
    · have hmost := most_same h.limit a hopen hstart
      rw [hc]
      refine ⟨?_, fun t ht => Nat.le_trans hstart (Nat.add_le_add_right (ht h (by simp)) _)⟩
      grind [last]
    · have hmost := most_opened h.span a hlimit hclosed
      rw [hc]
      refine ⟨?_, fun t ht => Nat.add_le_add_right (ht h (by simp)) _⟩
      grind [last]

/-- **Under a clock that does not go back, no interval as long as a window has more than twice the
limit of accepted events.** -/
theorem accepted_within (hlimit : 1 ≤ limit) (hconf : ∀ h ∈ hs, h.span = span ∧ h.limit = limit)
    (hclock : hs.Pairwise (·.now ≤ ·.now)) (a : Nat) :
    (times none hs).countP (fun t => a ≤ t ∧ t < a + span) ≤ 2 * limit :=
  Nat.le_trans (run_most hlimit hconf hclock a).1 (by grind [most])

end FixedWindow

end LinkSuffix.Lib
