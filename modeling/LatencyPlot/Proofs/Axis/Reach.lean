/-
  LatencyPlot.Proofs.Axis.Reach

  How far the ticks of an axis reach. Computed with doubles they may lie beyond
  the ends of the axis, but not by much: between ends that are at least one
  unit apart no step of their computation leaves the range of doubles.
-/
import LatencyPlot.Plot.Frame
import LatencyPlot.Proofs.Axis.Finite
import LatencyPlot.Proofs.Number.Decade

namespace LatencyPlot

open Number (Denotes Within AtLeast InRange)

namespace Ticks

variable {low high : Float} {k : ℤ}

/-- A nice factor is one of four numbers. -/
theorem niceFactor_between (x : Float) : AtLeast 0 (niceFactor x) ∧ Within 4 (niceFactor x) := by
  have hone : Denotes 1.0 1 := Number.denotes_one
  have htwo : Denotes 2.0 2 := by unfold Denotes; decide +kernel
  have hfive : Denotes 5.0 5 := by unfold Denotes; decide +kernel
  have hten : Denotes 10.0 10 := by unfold Denotes; decide +kernel
  unfold niceFactor
  split_ifs
  · exact ⟨⟨1, hone, by norm_num⟩, ⟨1, hone, by norm_num⟩⟩
  · exact ⟨⟨2, htwo, by norm_num⟩, ⟨2, htwo, by norm_num⟩⟩
  · exact ⟨⟨5, hfive, by norm_num⟩, ⟨5, hfive, by norm_num⟩⟩
  · exact ⟨⟨10, hten, by norm_num⟩, ⟨10, hten, by norm_num⟩⟩

/-- The least length of an axis. -/
theorem within_leastLength : Within 0 1e-9 :=
  Number.within_literal (by norm_num) ⟨by norm_num, by norm_num⟩ (by norm_num)

/-- A length of at least one is not replaced by the least length of an axis. -/
theorem length_between {d : Float} (hlow : AtLeast 0 d) (hhigh : Within k d) :
    AtLeast 0 (Number.greater d.abs 1e-9) ∧ Within k (Number.greater d.abs 1e-9) := by
  obtain ⟨p, hp, hle⟩ := hlow
  obtain ⟨p', hp', hle'⟩ := hhigh
  obtain rfl := hp.unique hp'
  obtain ⟨c, hc, hcle⟩ := within_leastLength
  have hlength := hp.abs.greater hc
  rw [max_eq_left ((le_abs_self c).trans (hcle.trans hle))] at hlength
  exact ⟨⟨|p|, hlength, by rwa [abs_abs]⟩, ⟨|p|, hlength, by rwa [abs_abs]⟩⟩

/-- The step of an axis, from below and from above by powers of two that are not far apart. -/
theorem exists_niceStep_between (hlow : AtLeast 0 (high - low)) (hhigh : Within k (high - low))
    (hk : 0 ≤ k) (hk' : k ≤ 1000) : ∃ j, -3 ≤ j ∧ j ≤ k ∧
      AtLeast (j - 4) (niceStep low high Frame.wantedTicks) ∧
      Within (j + 6) (niceStep low high Frame.wantedTicks) := by
  obtain ⟨hlength, hlength'⟩ := length_between hlow hhigh
  have hgaps : Denotes (Float.ofNat (max Frame.wantedTicks 2) - 1.0) 5 := by
    unfold Denotes
    decide +kernel
  obtain ⟨rough, hrough⟩ : ∃ rough, rough = Number.greater (high - low).abs 1e-9 /
      (Float.ofNat (max Frame.wantedTicks 2) - 1.0) := ⟨_, rfl⟩
  have hstep : niceStep low high Frame.wantedTicks =
      niceFactor (rough / Number.decade rough.abs) * Number.decade rough.abs := by
    rw [hrough]
    rfl
  have hfour : AtLeast 2 (Float.ofNat (max Frame.wantedTicks 2) - 1.0) := ⟨5, hgaps, by norm_num⟩
  have height : Within 3 (Float.ofNat (max Frame.wantedTicks 2) - 1.0) := ⟨5, hgaps, by norm_num⟩
  obtain ⟨q, hq, hle⟩ := hlength.div hlength' height hfour (by norm_num) (by omega)
  obtain ⟨q', hq', hle'⟩ := hlength'.div hfour ⟨by omega, by omega⟩
  rw [← hrough] at hq hq'
  obtain rfl := hq.unique hq'
  -- the power of two at or below the gap
  have hpos : 0 < |q| := (Number.two_zpow_pos _).trans_le hle
  obtain ⟨j, hjlow, hjhigh⟩ := exists_mem_Ico_zpow hpos (by norm_num : (1 : ℚ) < 2)
  have hj : -3 ≤ j := by
    have := (zpow_lt_zpow_iff_right₀ (by norm_num : (1 : ℚ) < 2)).mp (hle.trans_lt hjhigh)
    omega
  have hj' : j ≤ k - 2 :=
    (zpow_le_zpow_iff_right₀ (by norm_num : (1 : ℚ) < 2)).mp (hjlow.trans hle')
  obtain ⟨hdecade, hdecade'⟩ := Number.decade_between hq.abs hjlow hjhigh (by omega) (by omega)
  obtain ⟨hfactor, hfactor'⟩ := niceFactor_between (rough / Number.decade rough.abs)
  refine ⟨j, hj, by omega, ?_, ?_⟩
  · rw [hstep]
    exact (hfactor.mul hfactor' hdecade hdecade' (by omega) (by omega)).mono (by omega)
  · rw [hstep]
    exact (hfactor'.mul hdecade' ⟨by omega, by omega⟩).mono (by omega)

/-- The ticks of an axis reach at most `2 ^ 23` times as far as its ends. -/
theorem within_values_nice (hlow : Within k low) (hhigh : Within k high)
    (hapart : AtLeast 0 (high - low)) (hk : 0 ≤ k) (hk' : k ≤ 990) :
    ∀ v ∈ (nice low high Frame.wantedTicks).values, Within (k + 23) v := by
  obtain ⟨j, hj, hj', hstep, hstep'⟩ := exists_niceStep_between hapart
    (hhigh.sub hlow ⟨by omega, by omega⟩) (by omega) (by omega)
  have hnice : nice low high Frame.wantedTicks =
      let step := niceStep low high Frame.wantedTicks
      let start := Number.ceil (low / step) * step
      let last := Number.floor (high / step) * step
      ⟨start, step, Number.toCount (Number.greater (Number.round ((last - start) / step)) 0.0) + 1⟩ :=
    rfl
  rw [hnice]
  generalize niceStep low high Frame.wantedTicks = step at *
  -- the first and the last multiple of the step
  have hstart : Within (k + 10) (Number.ceil (low / step) * step) :=
    ((Number.whole_ceil (hlow.div hstep ⟨by omega, by omega⟩) (by omega)).within.mul hstep'
      ⟨by omega, by omega⟩).mono (by omega)
  have hlast : Within (k + 10) (Number.floor (high / step) * step) :=
    ((Number.whole_floor (hhigh.div hstep ⟨by omega, by omega⟩) (by omega)).within.mul hstep'
      ⟨by omega, by omega⟩).mono (by omega)
  dsimp only
  generalize Number.ceil (low / step) * step = start at *
  generalize Number.floor (high / step) * step = last at *
  -- the number of ticks
  have hgaps : Within (k - j + 16) (Number.round ((last - start) / step)) :=
    (((hlast.sub hstart ⟨by omega, by omega⟩).div hstep ⟨by omega, by omega⟩).round
      (by omega)).mono (by omega)
  have hzero : Within (k - j + 16) 0.0 := ⟨0, Number.denotes_zero, by
    rw [abs_zero]
    exact (Number.two_zpow_pos _).le⟩
  obtain ⟨p, hp, hple⟩ := hgaps.greater hzero
  have hcount := Number.toCount_le hp ((le_abs_self p).trans hple)
  intro v hv
  obtain ⟨i, hi, rfl⟩ := List.mem_map.mp hv
  rw [List.mem_range, Nat.lt_succ_iff] at hi
  have hi' : Within (k - j + 16) (Float.ofNat i) :=
    Number.within_ofNat ⟨by omega, by omega⟩ (le_trans (by exact_mod_cast hi) hcount)
  have hoffset : Within (k + 22) (step * Float.ofNat i) :=
    (hstep'.mul hi' ⟨by omega, by omega⟩).mono (by omega)
  show Within (k + 23) (start + step * Float.ofNat i)
  exact ((hstart.mono (by omega)).add hoffset ⟨by omega, by omega⟩).mono (by omega)

end Ticks

end LatencyPlot
