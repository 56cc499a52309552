/-
  LatencyPlot.Proofs.Axis.Inside

  Which ticks are between the ends of an axis, in exact arithmetic. A step may
  be so wide that none of its multiples is between the ends. There is one tick
  all the same, and it is above the upper end. This takes an axis that wants
  two or three ticks: from four on a step fits between the ends.
-/
import LatencyPlot.Proofs.Axis.Nice

namespace LatencyPlot

namespace Ticks

variable {low high : ℚ} {wanted : ℕ}

/-- Whether all ticks are between two ends. -/
def IsInside (t : Ticks ℚ) (low high : ℚ) : Prop :=
  ∀ i < t.count, low ≤ t.start + i * t.step ∧ t.start + i * t.step ≤ high

/-- Whether some multiple of the step is between two ends. -/
def HasMultiple (t : Ticks ℚ) (low high : ℚ) : Prop :=
  ∃ n : ℤ, low ≤ n * t.step ∧ n * t.step ≤ high

/-- A tick alone, above the upper end, and less than a step above the lower one. -/
structure IsBeyond (t : Ticks ℚ) (low high : ℚ) : Prop where
  count_eq_one : t.count = 1
  lt_start : high < t.start
  start_sub_step_lt : t.start - t.step < low

theorem isInside_iff_values {t : Ticks ℚ} :
    t.IsInside low high ↔ ∀ v ∈ t.values, low ≤ v ∧ v ≤ high := by
  have hvalue : ∀ i, t.value i = t.start + i * t.step := fun i =>
    congrArg (t.start + ·) (mul_comm t.step (i : ℚ))
  rw [values, List.forall_mem_map]
  simp only [List.mem_range, hvalue, IsInside]

/-! ## Multiples between the ends -/

/-- The first multiple of a step from the lower end on and the last one up to the upper end cross
    where no multiple is between the ends. -/
theorem first_le_last_iff {step : ℚ} (hpos : 0 < step) :
    first low step ≤ last high step ↔ ∃ n : ℤ, low ≤ n * step ∧ n * step ≤ high := by
  have hfirst : ∀ n : ℤ, first low step ≤ n ↔ low ≤ n * step := fun n => by
    rw [first, Int.ceil_le, div_le_iff₀ hpos]
  have hlast : ∀ n : ℤ, n ≤ last high step ↔ n * step ≤ high := fun n => by
    rw [last, Int.le_floor, le_div_iff₀ hpos]
  constructor
  · intro h
    exact ⟨first low step, (hfirst _).mp le_rfl, (hlast _).mp h⟩
  · rintro ⟨n, hlow, hhigh⟩
    exact ((hfirst n).mpr hlow).trans ((hlast n).mpr hhigh)

/-- Where they cross, the ends are between two multiples that follow each other. -/
theorem lt_first_of_last_lt {step : ℚ} (hpos : 0 < step) (h : last high step < first low step) :
    high < first low step * step ∧ (first low step : ℚ) * step - step < low := by
  constructor
  · rwa [last, Int.floor_lt, div_lt_iff₀ hpos] at h
  · rw [← sub_one_mul, ← lt_div_iff₀ hpos]
    exact sub_lt_iff_lt_add.mpr (Int.ceil_lt_add_one _)

/-! ## Ticks between the ends -/

theorem isInside_nice_iff (hpos : 0 < niceStep low high wanted) :
    (nice low high wanted).IsInside low high ↔
      first low (niceStep low high wanted) ≤ last high (niceStep low high wanted) := by
  constructor
  · intro hinside
    -- the first tick is not below the lower end, so it is a multiple between the ends
    obtain ⟨hlow, hhigh⟩ := hinside 0 (count_nice_pos low high wanted)
    rw [nice_eq hpos, Nat.cast_zero, zero_mul, add_zero] at hlow hhigh
    exact (first_le_last_iff hpos).mpr ⟨_, hlow, hhigh⟩
  · intro horder
    exact isInside_iff_values.mpr fun v hv => mem_Icc_of_mem_values_nice hpos horder hv

/-- The step for four wanted ticks or more is shorter than the axis. -/
theorem niceStep_lt_of_four_le (h : 1 / 10 ^ 9 ≤ high - low) (hwanted : 4 ≤ wanted) :
    niceStep low high wanted < high - low := by
  have hlength : (0 : ℚ) < high - low := lt_of_lt_of_le (by norm_num) h
  have hgaps : (3 : ℚ) ≤ wanted - 1 := by
    have : (4 : ℚ) ≤ wanted := by exact_mod_cast hwanted
    linarith
  calc niceStep low high wanted < 5 / 2 * ((high - low) / (wanted - 1)) :=
        (isNice_niceStep h (by omega)).lt
    _ ≤ 5 / 2 * ((high - low) / 3) := by gcongr
    _ ≤ high - low := by linarith

/-- **Ticks between the ends.** Between ends that are apart, the ticks are all between the ends
    exactly if some multiple of the step is. Otherwise there is a single tick: it is above the upper
    end, and less than a step above the lower one. With four wanted ticks or more the step is
    shorter than the axis and the ticks are between the ends. -/
theorem isInside_nice (h : 1 / 10 ^ 9 ≤ high - low) (hwanted : 2 ≤ wanted) :
    ((nice low high wanted).IsInside low high ↔ (nice low high wanted).HasMultiple low high) ∧
    (¬ (nice low high wanted).IsInside low high → (nice low high wanted).IsBeyond low high) ∧
    ((nice low high wanted).step ≤ high - low → (nice low high wanted).IsInside low high) ∧
    (4 ≤ wanted →
      (nice low high wanted).step < high - low ∧ (nice low high wanted).IsInside low high) := by
  have hpos := (isNice_niceStep h hwanted).pos (gap_pos h hwanted)
  have hinside := isInside_nice_iff hpos
  have hfits : niceStep low high wanted ≤ high - low → (nice low high wanted).IsInside low high :=
    fun hle => hinside.mpr (first_le_last hpos hle)
  refine ⟨hinside.trans (first_le_last_iff hpos), fun hout => ?_, hfits, fun hfour => ?_⟩
  · have hcross := not_le.mp (mt hinside.mpr hout)
    obtain ⟨habove, hnear⟩ := lt_first_of_last_lt hpos hcross
    rw [nice_eq hpos]
    exact ⟨by dsimp only; omega, habove, hnear⟩
  · have hlt := niceStep_lt_of_four_le h hfour
    exact ⟨hlt, hfits hlt.le⟩

/-- Three ticks are wanted from 5.1 to 9.6. Their step is five, and the one tick is at ten. -/
theorem isInside_nice_narrow :
    (1 : ℚ) / 10 ^ 9 ≤ 48 / 5 - 51 / 10 ∧ 2 ≤ 3 ∧ (nice (51 / 10 : ℚ) (48 / 5) 3).step = 5 ∧
      ¬ (nice (51 / 10 : ℚ) (48 / 5) 3).IsInside (51 / 10) (48 / 5) ∧
      (nice (51 / 10 : ℚ) (48 / 5) 3).IsBeyond (51 / 10) (48 / 5) := by
  have hlength : (1 : ℚ) / 10 ^ 9 ≤ 48 / 5 - 51 / 10 := by norm_num
  obtain ⟨hiff, hout, -, -⟩ := isInside_nice hlength (show 2 ≤ 3 by decide)
  have hstep : (nice (51 / 10 : ℚ) (48 / 5) 3).step = 5 := by decide +kernel
  have hnone : ¬ (nice (51 / 10 : ℚ) (48 / 5) 3).IsInside (51 / 10) (48 / 5) := by
    rw [hiff, HasMultiple, hstep]
    rintro ⟨n, hlow, hhigh⟩
    have hone : 1 < n := by exact_mod_cast (by linarith : (1 : ℚ) < n)
    have htwo : n < 2 := by exact_mod_cast (by linarith : (n : ℚ) < 2)
    omega
  exact ⟨hlength, by decide, hstep, hnone, hout hnone⟩

/-- Two ticks are wanted from one to eight, and the only one is at ten. -/
theorem not_isInside_nice_one_eight :
    (1 : ℚ) / 10 ^ 9 ≤ 8 - 1 ∧ 2 ≤ 2 ∧ ((nice (1 : ℚ) 8 2).start, (nice (1 : ℚ) 8 2).step,
      (nice (1 : ℚ) 8 2).count) = (10, 10, 1) ∧ ¬ (nice (1 : ℚ) 8 2).IsInside 1 8 := by
  have hticks : ((nice (1 : ℚ) 8 2).start, (nice (1 : ℚ) 8 2).step, (nice (1 : ℚ) 8 2).count) =
      (10, 10, 1) := by decide +kernel
  refine ⟨by norm_num, le_rfl, hticks, fun hinside => ?_⟩
  simp only [Prod.mk.injEq] at hticks
  obtain ⟨hstart, -, hcount⟩ := hticks
  have hfirst := (hinside 0 (by omega)).2
  rw [hstart] at hfirst
  norm_num at hfirst

end Ticks

end LatencyPlot
