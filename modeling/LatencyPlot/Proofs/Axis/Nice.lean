/-
  LatencyPlot.Proofs.Axis.Nice

  Ticks in exact arithmetic. The step is 1, 2 or 5 times a power of ten and at
  least the wanted gap, but less than two and a half times as great. The ticks
  are consecutive multiples of it, no more than wanted, and every multiple
  between the ends is one of them; where the step fits between the ends, they
  are those between the ends.
-/
import LatencyPlot.Axis.Ticks
import LatencyPlot.Plot.Frame
import LatencyPlot.Proofs.Number.Fraction

namespace LatencyPlot

open Number

namespace Ticks

/-! ## The step -/

theorem niceFactor_rat (x : ℚ) :
    niceFactor x = if x ≤ 1 then 1 else if x ≤ 2 then 2 else if x ≤ 5 then 5 else 10 := by
  unfold niceFactor
  norm_num

theorem niceStep_rat (low high : ℚ) (wanted : ℕ) :
    let rough := max |high - low| (1 / 10 ^ 9) / ((max wanted 2 : ℕ) - 1)
    niceStep low high wanted = niceFactor (rough / ratDecade |rough|) * ratDecade |rough| := by
  have hleast : (1e-9 : ℚ) = 1 / 10 ^ 9 := by norm_num
  have hone : (1.0 : ℚ) = 1 := by norm_num
  rw [← hleast, ← hone]
  simp only [← ratGreater_eq, ← ratAbs_eq]
  rfl

/-- What a step is for gaps of a wanted size: 1, 2 or 5 times a power of ten, and the least such
    number that is not below the gap, or nearly so. -/
structure IsNice (gap step : ℚ) : Prop where
  form : ∃ (f : ℕ) (k : ℤ), f ∈ [1, 2, 5] ∧ step = f * 10 ^ k
  le : gap ≤ step
  lt : step < 5 / 2 * gap

theorem isNice_decade {gap : ℚ} (hgap : 0 < gap) :
    IsNice gap (niceFactor (gap / ratDecade gap) * ratDecade gap) := by
  obtain ⟨hlow, hhigh⟩ := decadeExponent_bounds hgap
  rw [ratDecade_eq, niceFactor_rat]
  generalize decadeExponent gap = k at hlow hhigh
  have hpos : (0 : ℚ) < 10 ^ k := zpow_pos (by norm_num) k
  rw [zpow_add_one₀ (by norm_num)] at hhigh
  split_ifs with h1 h2 h5
  · rw [div_le_iff₀ hpos] at h1
    exact ⟨⟨1, k, by simp, by push_cast; rfl⟩, by linarith, by linarith⟩
  · rw [div_le_iff₀ hpos] at h1 h2
    exact ⟨⟨2, k, by simp, by push_cast; rfl⟩, by linarith, by linarith⟩
  · rw [div_le_iff₀ hpos] at h2 h5
    exact ⟨⟨5, k, by simp, by push_cast; rfl⟩, by linarith, by linarith⟩
  · rw [div_le_iff₀ hpos] at h5
    refine ⟨⟨1, k + 1, by simp, ?_⟩, by linarith, by linarith⟩
    rw [zpow_add_one₀ (by norm_num)]
    push_cast
    ring

variable {low high : ℚ} {wanted : ℕ}

theorem gap_pos (h : 1 / 10 ^ 9 ≤ high - low) (hwanted : 2 ≤ wanted) :
    0 < (high - low) / (wanted - 1) := by
  have hcount : (1 : ℚ) < wanted := by exact_mod_cast hwanted
  exact div_pos (by linarith) (by linarith)

theorem isNice_niceStep (h : 1 / 10 ^ 9 ≤ high - low) (hwanted : 2 ≤ wanted) :
    IsNice ((high - low) / (wanted - 1)) (niceStep low high wanted) := by
  have hlength : max |high - low| (1 / 10 ^ 9) = high - low := by
    rw [abs_of_nonneg (by linarith), max_eq_left h]
  have hgap := gap_pos h hwanted
  have hstep := niceStep_rat low high wanted
  dsimp only at hstep
  rw [hlength, max_eq_left hwanted, abs_of_pos hgap] at hstep
  rw [hstep]
  exact isNice_decade hgap

theorem IsNice.pos {gap step : ℚ} (h : IsNice gap step) (hgap : 0 < gap) : 0 < step :=
  hgap.trans_le h.le

/-! ## Multiples of the step -/

/-- The number of the first multiple of a step that is not below the lower end. -/
def first (low step : ℚ) : ℤ := ⌈low / step⌉

/-- The number of the last multiple of a step that is not above the upper end. -/
def last (high step : ℚ) : ℤ := ⌊high / step⌋

theorem nice_eq (h : 0 < niceStep low high wanted) :
    let step := niceStep low high wanted
    nice low high wanted =
      ⟨first low step * step, step, (last high step - first low step).toNat + 1⟩ := by
  intro step
  have hgaps : (last high step * step - first low step * step) / step =
      ((last high step - first low step : ℤ) : ℚ) := by
    rw [← sub_mul, mul_div_cancel_right₀ _ h.ne', Int.cast_sub]
  have hcount : Scalar.toCount (Scalar.greater
      (Scalar.round ((last high step * step - first low step * step) / step)) 0.0) =
        (last high step - first low step).toNat := by
    show (ratGreater (ratRound _) _).floor.toNat = _
    rw [hgaps, ratRound_intCast, ratGreater_eq, show (0.0 : ℚ) = ((0 : ℤ) : ℚ) by norm_num,
      ← Int.cast_max]
    show ⌊((max (last high step - first low step) 0 : ℤ) : ℚ)⌋.toNat = _
    rw [Int.floor_intCast]
    omega
  have hceil : (((low / step).ceil : ℤ) : ℚ) = first low step := by rw [rat_ceil_eq, first]
  show (⟨((low / step).ceil : ℤ) * step, step, Scalar.toCount (Scalar.greater (Scalar.round
    ((((high / step).floor : ℤ) * step - ((low / step).ceil : ℤ) * step) / step)) 0.0) + 1⟩ :
      Ticks ℚ) = _
  rw [hceil, ← hcount]
  rfl

/-- The ticks are consecutive multiples of the step. -/
theorem mem_values_nice (h : 0 < niceStep low high wanted) {v : ℚ} :
    let step := niceStep low high wanted
    v ∈ (nice low high wanted).values ↔
      ∃ i ≤ (last high step - first low step).toNat, v = (first low step + i : ℤ) * step := by
  intro step
  rw [nice_eq h, values, List.mem_map]
  refine exists_congr fun i => ?_
  rw [List.mem_range, Nat.lt_succ_iff]
  refine and_congr_right fun _ => ?_
  have hvalue : value (⟨first low step * step, step,
      (last high step - first low step).toNat + 1⟩ : Ticks ℚ) i = (first low step + i : ℤ) * step := by
    show (first low step * step + step * (i : ℚ) : ℚ) = _
    push_cast
    ring
  rw [hvalue, eq_comm]

/-- Different numbers stand for different ticks. -/
theorem nodup_values_nice (h : 0 < niceStep low high wanted) :
    (nice low high wanted).values.Nodup := by
  refine List.nodup_range.map fun i j hij => ?_
  have hsum : (nice low high wanted).start + (nice low high wanted).step * (i : ℚ) =
      (nice low high wanted).start + (nice low high wanted).step * (j : ℚ) := hij
  rw [nice_eq h] at hsum
  exact_mod_cast mul_left_cancel₀ h.ne' (add_left_cancel hsum)

/-- Where a step fits between the ends, so does one of its multiples. -/
theorem first_le_last {step : ℚ} (hpos : 0 < step) (hle : step ≤ high - low) :
    first low step ≤ last high step := by
  have hfit : low / step + 1 ≤ high / step := by
    rw [le_div_iff₀ hpos, add_mul, div_mul_cancel₀ _ hpos.ne', one_mul]
    linarith
  rw [first, last, Int.le_floor]
  exact (Int.ceil_lt_add_one (low / step)).le.trans hfit

/-- Where a multiple of the step is between the ends, all ticks are. -/
theorem mem_Icc_of_mem_values_nice (hpos : 0 < niceStep low high wanted)
    (horder : first low (niceStep low high wanted) ≤ last high (niceStep low high wanted)) {v : ℚ}
    (hv : v ∈ (nice low high wanted).values) : low ≤ v ∧ v ≤ high := by
  obtain ⟨i, hi, rfl⟩ := (mem_values_nice hpos).mp hv
  constructor
  · rw [← div_le_iff₀ hpos]
    have hfirst : low / niceStep low high wanted ≤ first low (niceStep low high wanted) :=
      Int.le_ceil _
    refine hfirst.trans ?_
    exact_mod_cast (by omega :
      first low (niceStep low high wanted) ≤ first low (niceStep low high wanted) + i)
  · rw [← le_div_iff₀ hpos]
    have hlast : (last high (niceStep low high wanted) : ℚ) ≤ high / niceStep low high wanted :=
      Int.floor_le _
    refine le_trans ?_ hlast
    exact_mod_cast (by omega : first low (niceStep low high wanted) + (i : ℤ) ≤
      last high (niceStep low high wanted))

/-- No multiple of the step that is between the ends is left out. -/
theorem mul_mem_values_nice (hpos : 0 < niceStep low high wanted) {n : ℤ}
    (hlow : low ≤ n * niceStep low high wanted) (hhigh : n * niceStep low high wanted ≤ high) :
    n * niceStep low high wanted ∈ (nice low high wanted).values := by
  have hfirst : first low (niceStep low high wanted) ≤ n :=
    Int.ceil_le.mpr ((div_le_iff₀ hpos).mpr hlow)
  have hlast : n ≤ last high (niceStep low high wanted) :=
    Int.le_floor.mpr ((le_div_iff₀ hpos).mpr hhigh)
  refine (mem_values_nice hpos).mpr
    ⟨(n - first low (niceStep low high wanted)).toNat, by omega, ?_⟩
  rw [show first low (niceStep low high wanted) +
    ((n - first low (niceStep low high wanted)).toNat : ℤ) = n by omega]

/-- There are at most as many multiples of a step between two ends as gaps of its size fit in, and
    one more. -/
theorem last_sub_first_le {step : ℚ} (hpos : 0 < step) {n : ℤ} (h : high - low ≤ n * step) :
    last high step - first low step ≤ n := by
  have hlast : (last high step : ℚ) ≤ high / step := Int.floor_le _
  have hfirst : low / step ≤ (first low step : ℚ) := Int.le_ceil _
  have hgaps : high / step - low / step ≤ n := by rwa [← sub_div, div_le_iff₀ hpos]
  exact_mod_cast (by linarith : (last high step : ℚ) - first low step ≤ n)

theorem count_nice_le (h : 1 / 10 ^ 9 ≤ high - low) (hwanted : 2 ≤ wanted) :
    (nice low high wanted).count ≤ wanted := by
  have hnice := isNice_niceStep h hwanted
  have hpos := hnice.pos (gap_pos h hwanted)
  have hcount : (0 : ℚ) < wanted - 1 := by
    have : (1 : ℚ) < wanted := by exact_mod_cast hwanted
    linarith
  -- a step is no shorter than a gap, and the gaps make up the whole length
  have hlength : high - low ≤ ((wanted : ℤ) - 1 : ℤ) * niceStep low high wanted := by
    push_cast
    exact (div_le_iff₀' hcount).mp hnice.le
  have hgaps := last_sub_first_le hpos hlength
  rw [nice_eq hpos]
  dsimp only
  omega

/-- Ticks as they ought to be laid out between two ends: a nice step for the gap that puts the
    wanted number of ticks there, a multiple of it to begin with, at least one tick and no more than
    wanted, and a tick at every multiple between the ends. -/
structure IsLaidOut (t : Ticks ℚ) (low high : ℚ) (wanted : ℕ) : Prop where
  step : IsNice ((high - low) / (wanted - 1)) t.step
  start : ∃ k : ℤ, t.start = k * t.step
  pos : 1 ≤ t.count
  le_wanted : t.count ≤ wanted
  complete : ∀ n : ℤ, low ≤ n * t.step → n * t.step ≤ high →
    ∃ i < t.count, t.start + i * t.step = n * t.step

/-- Between ends that are apart the ticks are laid out as they ought to be. -/
theorem isLaidOut_nice (h : 1 / 10 ^ 9 ≤ high - low) (hwanted : 2 ≤ wanted) :
    (nice low high wanted).IsLaidOut low high wanted := by
  have hnice := isNice_niceStep h hwanted
  have hpos := hnice.pos (gap_pos h hwanted)
  refine ⟨hnice, ⟨first low (niceStep low high wanted), ?_⟩, count_nice_pos low high wanted,
    count_nice_le h hwanted, fun n hlow hhigh => ?_⟩
  · rw [nice_eq hpos]
  · obtain ⟨i, hi, hvalue⟩ := List.mem_map.mp (mul_mem_values_nice hpos hlow hhigh)
    refine ⟨i, List.mem_range.mp hi, ?_⟩
    rw [mul_comm (i : ℚ)]
    exact hvalue

/-- Six ticks are wanted from one to eight. They are two apart, and one of them is at eight. -/
theorem isLaidOut_nice_one_eight :
    (1 : ℚ) / 10 ^ 9 ≤ 8 - 1 ∧ 2 ≤ 6 ∧ (nice (1 : ℚ) 8 6).IsLaidOut 1 8 6 ∧
      (nice (1 : ℚ) 8 6).step = 2 ∧
      ∃ i < (nice (1 : ℚ) 8 6).count, (nice (1 : ℚ) 8 6).start + i * 2 = 8 := by
  have hlength : (1 : ℚ) / 10 ^ 9 ≤ 8 - 1 := by norm_num
  have hlaid := isLaidOut_nice hlength (show 2 ≤ 6 by decide)
  have hstep : (nice (1 : ℚ) 8 6).step = 2 := by decide +kernel
  have hcomplete := hlaid.complete
  rw [hstep] at hcomplete
  obtain ⟨i, hi, hvalue⟩ := hcomplete 4 (by norm_num) (by norm_num)
  exact ⟨hlength, by decide, hlaid, hstep, i, hi, hvalue.trans (by norm_num)⟩

end Ticks

namespace Frame

open Ticks

/-- Below this length an axis has no ticks. -/
theorem ticks_eq (f : Frame ℚ) :
    f.ticks = if max f.bounds.min f.bounds.max - min f.bounds.min f.bounds.max < 1 / 10 ^ 9 then []
      else (nice (min f.bounds.min f.bounds.max) (max f.bounds.min f.bounds.max)
        wantedTicks).values := by
  have hleast : (1e-9 : ℚ) = 1 / 10 ^ 9 := by norm_num
  rw [← hleast, ← ratLesser_eq, ← ratGreater_eq]
  rfl

/-- The step of an axis is at most half as long as the axis. -/
theorem isNice_step {f : Frame ℚ}
    (h : 1 / 10 ^ 9 ≤ max f.bounds.min f.bounds.max - min f.bounds.min f.bounds.max) :
    let low := min f.bounds.min f.bounds.max
    let high := max f.bounds.min f.bounds.max
    IsNice ((high - low) / 5) (niceStep low high wantedTicks) ∧
      0 < niceStep low high wantedTicks ∧ niceStep low high wantedTicks ≤ (high - low) / 2 := by
  intro low high
  have hnice := isNice_niceStep h (show 2 ≤ wantedTicks by decide)
  rw [show (wantedTicks : ℚ) - 1 = 5 by norm_num [wantedTicks]] at hnice
  have hlt := hnice.lt
  have hgap : 0 < (high - low) / 5 := by
    have : (0 : ℚ) < high - low := lt_of_lt_of_le (by norm_num) h
    positivity
  exact ⟨hnice, hnice.pos hgap, by linarith⟩

theorem nodup_ticks (f : Frame ℚ) : f.ticks.Nodup := by
  rw [ticks_eq]
  split
  · exact List.nodup_nil
  · next h => exact nodup_values_nice (isNice_step (not_lt.mp h)).2.1

/-- The ticks of an axis are between its ends. -/
theorem mem_Icc_of_mem_ticks {f : Frame ℚ} {v : ℚ} (hv : v ∈ f.ticks) :
    min f.bounds.min f.bounds.max ≤ v ∧ v ≤ max f.bounds.min f.bounds.max := by
  rw [ticks_eq] at hv
  split at hv
  · cases hv
  · next h =>
    obtain ⟨-, hpos, hhalf⟩ := isNice_step (not_lt.mp h)
    have hlength : (0 : ℚ) ≤ max f.bounds.min f.bounds.max - min f.bounds.min f.bounds.max :=
      sub_nonneg.mpr min_le_max
    exact mem_Icc_of_mem_values_nice hpos (first_le_last hpos (by linarith)) hv

/-- Ends that are whole numbers have tenths for ticks. -/
theorem exists_tenths_of_mem_ticks {f : Frame ℚ} {lo hi : ℤ} (hmin : f.bounds.min = lo)
    (hmax : f.bounds.max = hi) {v : ℚ} (hv : v ∈ f.ticks) : ∃ n : ℤ, v * 10 = n := by
  rw [ticks_eq] at hv
  split at hv
  · cases hv
  · next h =>
    obtain ⟨hnice, hpos, -⟩ := isNice_step (not_lt.mp h)
    obtain ⟨i, -, rfl⟩ := (mem_values_nice hpos).mp hv
    rw [hmin, hmax, ← Int.cast_min, ← Int.cast_max, ← Int.cast_sub] at hnice h
    -- whole numbers that are apart are at least one apart
    have hlength : (1 : ℚ) ≤ (max lo hi - min lo hi : ℤ) := by
      have : (0 : ℚ) < (max lo hi - min lo hi : ℤ) :=
        lt_of_lt_of_le (by norm_num) (not_lt.mp h)
      exact_mod_cast (by exact_mod_cast this : 0 < max lo hi - min lo hi)
    obtain ⟨⟨c, k, hc, hstep⟩, hle, -⟩ := hnice
    have hk : -1 ≤ k := by
      by_contra hlt
      have hsmall : (10 : ℚ) ^ k ≤ 10 ^ (-2 : ℤ) := zpow_le_zpow_right₀ (by norm_num) (by omega)
      have hc5 : (c : ℚ) ≤ 5 := by
        simp only [List.mem_cons, List.not_mem_nil, or_false] at hc
        rcases hc with rfl | rfl | rfl <;> norm_num
      rw [hstep] at hle
      have hprod : (c : ℚ) * 10 ^ k ≤ 5 * 10 ^ (-2 : ℤ) := by gcongr
      norm_num at hprod
      linarith
    obtain ⟨d, hd⟩ := Int.eq_ofNat_of_zero_le (show 0 ≤ k + 1 by omega)
    have hten : (10 : ℚ) ^ k * 10 = 10 ^ d := by
      rw [← zpow_add_one₀ (by norm_num), hd, zpow_natCast]
    rw [hmin, hmax, ← Int.cast_min, ← Int.cast_max, hstep]
    refine ⟨(first ((min lo hi : ℤ) : ℚ) (c * 10 ^ k) + i) * (c * 10 ^ d), ?_⟩
    rw [mul_assoc, mul_assoc, hten]
    push_cast
    ring

end Frame

end LatencyPlot
