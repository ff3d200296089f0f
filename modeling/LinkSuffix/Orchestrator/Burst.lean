import Mathlib.Analysis.SpecialFunctions.Integrals.Basic

/-!
# The schedule of a burst

`burst.ts`: a burst ramps up to a rate and then keeps it. Request `index` is due when the ramped
rate has asked for `index` requests, which is a square root on the ramp and a line after it. The
arithmetic is exact.

* `BurstProfile`, `burstRequestCount`, `burstOffsetMs`: the code.
* `rate`, `asked`: the ramped rate, and the requests it has asked for. `integral_rate`.
* `lt_asked`: a request is due only when the rate has asked for more than its index.
* **`burst_schedule`**: the offsets do not decrease, they are within the duration, and at every time
  at most one request more is due than the rate has asked for.
-/

namespace LinkSuffix.Burst

/-! ## The code -/

/-- `BurstProfile`, as `validate` accepts it. -/
structure BurstProfile where
  target_rps : ℝ
  duration_seconds : ℝ
  ramp_seconds : ℝ
  max_requests : ℕ
  rps_pos : 0 < target_rps
  duration_pos : 0 < duration_seconds
  ramp_nonneg : 0 ≤ ramp_seconds
  ramp_le : ramp_seconds ≤ duration_seconds
  max_pos : 0 < max_requests

variable (p : BurstProfile)

/-- `burstRequestCount`. -/
noncomputable def burstRequestCount : ℕ :=
  let capacity := ⌊p.target_rps * (p.duration_seconds - p.ramp_seconds / 2)⌋₊
  min p.max_requests (max 1 capacity)

/-- `rampCapacity`. -/
noncomputable def rampCapacity : ℝ := p.target_rps * p.ramp_seconds / 2

open Classical in
/-- `burstOffsetMs`, before the seconds are made milliseconds. -/
noncomputable def offsetSeconds (index : ℕ) : ℝ :=
  if 0 < p.ramp_seconds ∧ index < rampCapacity p then
    √(2 * index * p.ramp_seconds / p.target_rps)
  else p.ramp_seconds + max 0 (index - rampCapacity p) / p.target_rps

/-- `burstOffsetMs`. -/
noncomputable def burstOffsetMs (index : ℕ) : ℝ := offsetSeconds p index * 1000

/-! ## The ramped rate -/

open Classical in
/-- The rate at a time: it rises to `target_rps` on the ramp, and stays there. -/
noncomputable def rate (t : ℝ) : ℝ :=
  if t < 0 then 0
  else if t < p.ramp_seconds then p.target_rps * (t / p.ramp_seconds)
  else p.target_rps

/-- How many requests the rate has asked for. -/
noncomputable def asked (t : ℝ) : ℝ :=
  if t ≤ 0 then 0
  else if t ≤ p.ramp_seconds then p.target_rps / p.ramp_seconds * (t ^ 2 / 2)
  else p.target_rps * (t - p.ramp_seconds / 2)

theorem asked_nonneg (t : ℝ) : 0 ≤ asked p t := by
  have hrps := p.rps_pos
  have hramp := p.ramp_nonneg
  unfold asked
  split
  · exact le_rfl
  · split
    · positivity
    · exact mul_nonneg hrps.le (by linarith)

variable {p}

theorem rate_ramp (h : 0 < p.ramp_seconds) {t : ℝ} (h0 : 0 ≤ t) (ht : t ≤ p.ramp_seconds) :
    rate p t = p.target_rps / p.ramp_seconds * t := by
  unfold rate
  rw [if_neg h0.not_gt]
  split
  · ring
  · rename_i hge
    obtain rfl : t = p.ramp_seconds := le_antisymm ht (not_lt.mp hge)
    rw [div_mul_cancel₀ _ h.ne']

theorem rate_after {t : ℝ} (ht : p.ramp_seconds ≤ t) : rate p t = p.target_rps := by
  unfold rate
  rw [if_neg (p.ramp_nonneg.trans ht).not_gt, if_neg ht.not_gt]

theorem rate_before {t : ℝ} (ht : t < 0) : rate p t = 0 := if_pos ht

theorem rate_eqOn_ramp {t : ℝ} (h0 : 0 < t) (ht : t ≤ p.ramp_seconds) :
    Set.EqOn (rate p) (fun u => p.target_rps / p.ramp_seconds * u) (Set.uIcc 0 t) := by
  intro u hu
  rw [Set.uIcc_of_le h0.le] at hu
  exact rate_ramp (h0.trans_le ht) hu.1 (hu.2.trans ht)

theorem rate_eqOn_after {t : ℝ} (ht : p.ramp_seconds ≤ t) :
    Set.EqOn (rate p) (fun _ => p.target_rps) (Set.uIcc p.ramp_seconds t) := by
  intro u hu
  rw [Set.uIcc_of_le ht] at hu
  exact rate_after hu.1

/-- On the ramp the rate adds up to a square. -/
theorem integral_ramp {t : ℝ} (h0 : 0 < t) (ht : t ≤ p.ramp_seconds) :
    ∫ u in (0 : ℝ)..t, rate p u = p.target_rps / p.ramp_seconds * (t ^ 2 / 2) := by
  rw [intervalIntegral.integral_congr (rate_eqOn_ramp h0 ht), intervalIntegral.integral_const_mul,
    integral_id]
  ring

/-- After the ramp it adds up along a line. -/
theorem integral_after {t : ℝ} (ht : p.ramp_seconds ≤ t) :
    ∫ u in p.ramp_seconds..t, rate p u = p.target_rps * (t - p.ramp_seconds) := by
  rw [intervalIntegral.integral_congr (rate_eqOn_after ht), intervalIntegral.integral_const,
    smul_eq_mul]
  ring

/-- **The rate asks for `asked` requests.** -/
theorem integral_rate (t : ℝ) : ∫ u in (0 : ℝ)..t, rate p u = asked p t := by
  unfold asked
  split
  · rename_i ht
    have heq : Set.EqOn (rate p) (fun _ => (0 : ℝ)) (Set.uIoo 0 t) := by
      intro u hu
      rw [Set.uIoo_of_ge ht] at hu
      exact rate_before hu.2
    rw [intervalIntegral.integral_congr_uIoo heq, intervalIntegral.integral_zero]
  · rename_i ht
    have ht := not_le.mp ht
    split
    · rename_i hramp
      exact integral_ramp ht hramp
    · rename_i hramp
      have hramp := not_le.mp hramp
      have hlast := integral_after hramp.le
      rcases p.ramp_nonneg.eq_or_lt with hzero | hpos
      · rw [← hzero] at hlast ⊢
        rw [hlast]
        ring
      · have hfirst : IntervalIntegrable (rate p) MeasureTheory.volume 0 p.ramp_seconds := by
          refine (intervalIntegrable_congr fun u hu => ?_).mpr
            ((continuous_const_mul (p.target_rps / p.ramp_seconds)).intervalIntegrable 0 _)
          exact rate_eqOn_ramp hpos le_rfl (Set.uIoc_subset_uIcc hu)
        have hsecond : IntervalIntegrable (rate p) MeasureTheory.volume p.ramp_seconds t := by
          refine (intervalIntegrable_congr fun u hu => ?_).mpr
            (intervalIntegrable_const (c := p.target_rps))
          exact rate_eqOn_after hramp.le (Set.uIoc_subset_uIcc hu)
        rw [← intervalIntegral.integral_add_adjacent_intervals hfirst hsecond, hlast,
          integral_ramp hpos le_rfl]
        field_simp
        ring

/-! ## The offsets -/

theorem rampCapacity_nonneg : 0 ≤ rampCapacity p := by
  have hrps := p.rps_pos
  have hramp := p.ramp_nonneg
  unfold rampCapacity
  positivity

/-- On the ramp a request is due before the ramp ends. -/
theorem ramp_offset_lt {index : ℕ} (hramp : 0 < p.ramp_seconds) (h : index < rampCapacity p) :
    √(2 * index * p.ramp_seconds / p.target_rps) < p.ramp_seconds := by
  have hrps := p.rps_pos
  rw [Real.sqrt_lt' hramp, div_lt_iff₀ hrps]
  unfold rampCapacity at h
  nlinarith

theorem offsetSeconds_nonneg (index : ℕ) : 0 ≤ offsetSeconds p index := by
  unfold offsetSeconds
  split
  · exact Real.sqrt_nonneg _
  · exact add_nonneg p.ramp_nonneg (div_nonneg (le_max_left _ _) p.rps_pos.le)

/-- **The offsets do not decrease.** -/
theorem offsetSeconds_mono {i j : ℕ} (h : i ≤ j) : offsetSeconds p i ≤ offsetSeconds p j := by
  have hij : (i : ℝ) ≤ j := Nat.cast_le.mpr h
  have hrps := p.rps_pos
  have hramp := p.ramp_nonneg
  unfold offsetSeconds
  split
  · rename_i hi
    split
    · refine Real.sqrt_le_sqrt (div_le_div_of_nonneg_right ?_ hrps.le)
      exact mul_le_mul_of_nonneg_right (by linarith) hramp
    · have hrest : 0 ≤ max 0 (j - rampCapacity p) / p.target_rps :=
        div_nonneg (le_max_left _ _) hrps.le
      have hlt := ramp_offset_lt hi.1 hi.2
      linarith
  · rename_i hi
    rw [if_neg fun hj => hi ⟨hj.1, hij.trans_lt hj.2⟩]
    have hmax : max 0 ((i : ℝ) - rampCapacity p) ≤ max 0 (j - rampCapacity p) :=
      max_le_max le_rfl (by linarith)
    have hdiv := div_le_div_of_nonneg_right hmax hrps.le
    linarith

/-- A request is due only when the rate has asked for more than its index. -/
theorem lt_asked {index : ℕ} {t : ℝ} (h : offsetSeconds p index < t) : index < asked p t := by
  have hrps := p.rps_pos
  have ht : 0 < t := (offsetSeconds_nonneg index).trans_lt h
  unfold asked
  rw [if_neg ht.not_ge]
  unfold offsetSeconds at h
  split at h
  · rename_i hi
    obtain ⟨hramp, hindex⟩ := hi
    rw [Real.sqrt_lt' ht, div_lt_iff₀ hrps] at h
    unfold rampCapacity at hindex
    split
    · rw [div_mul_eq_mul_div, lt_div_iff₀ hramp]
      linarith
    · rename_i hafter
      nlinarith [not_le.mp hafter]
  · rename_i hi
    have hrest : 0 ≤ max 0 (index - rampCapacity p) / p.target_rps :=
      div_nonneg (le_max_left _ _) hrps.le
    have hafter : ¬t ≤ p.ramp_seconds := by linarith
    rw [if_neg hafter]
    have hlast : max 0 (index - rampCapacity p) / p.target_rps < t - p.ramp_seconds := by linarith
    rw [div_lt_iff₀ hrps] at hlast
    have hle := le_max_right 0 (index - rampCapacity p)
    unfold rampCapacity at hle hlast
    linarith

/-- **Every request is due within the duration.** -/
theorem offsetSeconds_lt {index : ℕ} (h : index < burstRequestCount p) :
    offsetSeconds p index < p.duration_seconds := by
  have hrps := p.rps_pos
  have hduration := p.duration_pos
  unfold offsetSeconds
  split
  · rename_i hi
    exact (ramp_offset_lt hi.1 hi.2).trans_le p.ramp_le
  · rename_i hi
    have hcount : index < max 1 ⌊p.target_rps * (p.duration_seconds - p.ramp_seconds / 2)⌋₊ :=
      h.trans_le (min_le_right _ _)
    rcases Nat.eq_zero_or_pos index with rfl | hpos
    · -- the first request is on the ramp, if there is one
      have hzero : p.ramp_seconds = 0 := by
        by_contra hne
        have hramp : 0 < p.ramp_seconds := lt_of_le_of_ne p.ramp_nonneg (Ne.symm hne)
        refine hi ⟨hramp, ?_⟩
        unfold rampCapacity
        rw [Nat.cast_zero]
        positivity
      have hmax : max 0 ((0 : ℕ) - rampCapacity p) = 0 := by
        rw [max_eq_left]
        simpa using rampCapacity_nonneg
      rw [hmax, hzero, zero_div, add_zero]
      exact hduration
    · have hfloor : index < ⌊p.target_rps * (p.duration_seconds - p.ramp_seconds / 2)⌋₊ :=
        (lt_max_iff.mp hcount).resolve_left (by omega)
      have hlt := Nat.lt_of_lt_floor hfloor
      have hgap : max 0 (index - rampCapacity p) / p.target_rps <
          p.duration_seconds - p.ramp_seconds := by
        have hpast : rampCapacity p ≤ index := by
          by_contra hlt
          have hramp : ¬0 < p.ramp_seconds := fun hramp => hi ⟨hramp, not_le.mp hlt⟩
          have hzero : p.ramp_seconds = 0 := le_antisymm (not_lt.mp hramp) p.ramp_nonneg
          unfold rampCapacity at hlt
          rw [hzero] at hlt
          exact hlt (by simp)
        rw [max_eq_right (by linarith), div_lt_iff₀ hrps]
        unfold rampCapacity
        linarith
      linarith

/-! ## The result -/

open Classical in
/-- **The schedule of a burst.** The offsets do not decrease, they are within the duration, and at
every time at most one request more is due than the ramped rate has asked for. -/
theorem burst_schedule (p : BurstProfile) :
    (∀ i j, i ≤ j → burstOffsetMs p i ≤ burstOffsetMs p j) ∧
      (∀ index < burstRequestCount p,
        0 ≤ burstOffsetMs p index ∧ burstOffsetMs p index < p.duration_seconds * 1000) ∧
      ∀ t ≤ p.duration_seconds,
        (((Finset.range (burstRequestCount p)).filter
          fun index => burstOffsetMs p index < t * 1000).card : ℝ) ≤
            (∫ u in (0 : ℝ)..t, rate p u) + 1 := by
  have hms : (0 : ℝ) < 1000 := by norm_num
  refine ⟨fun i j hij => ?_, fun index hindex => ⟨?_, ?_⟩, fun t _ => ?_⟩
  · exact mul_le_mul_of_nonneg_right (offsetSeconds_mono hij) hms.le
  · exact mul_nonneg (offsetSeconds_nonneg index) hms.le
  · exact mul_lt_mul_of_pos_right (offsetSeconds_lt hindex) hms
  · rw [integral_rate]
    have hsub : (Finset.range (burstRequestCount p)).filter
        (fun index => burstOffsetMs p index < t * 1000) ⊆ Finset.range ⌈asked p t⌉₊ := by
      intro index hindex
      obtain ⟨-, hdue⟩ := Finset.mem_filter.mp hindex
      have hlt := lt_asked (lt_of_mul_lt_mul_right hdue hms.le)
      exact Finset.mem_range.mpr (Nat.lt_ceil.mpr hlt)
    have hcard := Finset.card_le_card hsub
    rw [Finset.card_range] at hcard
    have hceil := Nat.ceil_lt_add_one (asked_nonneg p t)
    have hcast : (((Finset.range (burstRequestCount p)).filter
        fun index => burstOffsetMs p index < t * 1000).card : ℝ) ≤ ⌈asked p t⌉₊ :=
      Nat.cast_le.mpr hcard
    linarith

end LinkSuffix.Burst
