/-
  LatencyPlot.Proofs.Number.Decade

  The decade of a double is near the double: although the logarithm and the
  power of ten are rounded, it is more than a sixteenth and at most four times
  the power of two at or below the double.
-/
import LatencyPlot.Proofs.Number.Magnitude

namespace LatencyPlot.Number

variable {x : Float} {q : ℚ} {j k m n : ℤ}

/-! ## The logarithm -/

theorem logSlack_le (n : ℤ) : logSlack n ≤ n.natAbs / 2 ^ 53 := by
  rw [logSlack]
  split
  · positivity
  · next hne =>
    have htop : Nat.pow 2 n.natAbs.log2 ≤ n.natAbs := Nat.log2_self_le (by omega)
    generalize Nat.pow 2 n.natAbs.log2 = top at htop
    have hle : (if n = top then top else 2 * top) ≤ 2 * n.natAbs := by
      split <;> omega
    have hcast : ((if n = top then top else 2 * top : ℕ) : ℚ) ≤ 2 * n.natAbs := by exact_mod_cast hle
    rw [show ((Nat.pow 2 54 : ℕ) : ℚ) = 2 * 2 ^ 53 by norm_num, div_le_div_iff₀ (by norm_num)
      (by norm_num)]
    linarith

/-- Rounding the logarithm up to a whole number at most doubles what it is the logarithm of. -/
theorem logFloor_bounds (hq : 0 < q) (hsize : (decadeExponent q + 1).natAbs ≤ 2 ^ 16) :
    10 ^ logFloor q ≤ 2 * q ∧ q < 10 ^ (logFloor q + 1) := by
  obtain ⟨hlow, hhigh⟩ := decadeExponent_bounds hq
  rw [logFloor, tenTo_eq]
  have hslack := logSlack_le (decadeExponent q + 1)
  generalize decadeExponent q = k at *
  have hpos : (0 : ℚ) < 10 ^ (k + 1) := zpow_pos (by norm_num) _
  split
  · next hnear =>
    have hsmall : logSlack (k + 1) * logOfTen ≤ 1 / 2 := by
      have hbits : ((k + 1).natAbs : ℚ) ≤ 2 ^ 16 := by exact_mod_cast hsize
      have hle : logSlack (k + 1) ≤ 2 ^ 16 / 2 ^ 53 :=
        hslack.trans (div_le_div_of_nonneg_right hbits (by norm_num))
      calc logSlack (k + 1) * logOfTen ≤ 2 ^ 16 / 2 ^ 53 * logOfTen :=
            mul_le_mul_of_nonneg_right hle (by norm_num [logOfTen])
        _ ≤ 1 / 2 := by norm_num [logOfTen]
    have hhalf : 1 / 2 ≤ q / 10 ^ (k + 1) := by linarith
    rw [le_div_iff₀ hpos] at hhalf
    refine ⟨by linarith, hhigh.trans ?_⟩
    exact zpow_lt_zpow_right₀ (by norm_num) (by omega)
  · rw [add_sub_cancel_right]
    exact ⟨by linarith, hhigh⟩

/-! ## The power function -/

theorem computes_scaled (hk : k.natAbs ≤ 2048) : Computes (scaled 1 k) (10 ^ k) := by
  rw [scaled]
  split
  · next hnonneg =>
    have hpower := (computes_ofScientific 1 (show k.toNat ≤ 2048 by omega)).1
    obtain ⟨n, rfl⟩ := Int.eq_ofNat_of_zero_le hnonneg
    rwa [Nat.cast_one, one_mul, ← zpow_natCast, Int.toNat_natCast] at hpower
  · next hneg =>
    have hpower := (computes_ofScientific 1 (show (-k).toNat ≤ 2048 by omega)).2
    obtain ⟨n, rfl⟩ : ∃ n : ℕ, k = -(n : ℤ) := ⟨(-k).toNat, by omega⟩
    rw [neg_neg, Int.toNat_natCast] at hpower ⊢
    rwa [Nat.cast_one, one_div, ← zpow_natCast, ← zpow_neg] at hpower

/-- A raised power and the power of ten are between the same powers of two. -/
theorem exists_of_raised (hk : k ∈ raisedPowers) : ∃ (r : ℕ) (t : ℕ), Denotes (powerOfTen k) r ∧
    2 ^ t ≤ r ∧ r < 2 ^ (t + 1) ∧ 2 ^ t < 10 ^ k.toNat ∧ 10 ^ k.toNat < 2 ^ (t + 1) ∧ 0 ≤ k := by
  have hcases : k = 23 ∨ k = 210 := by simpa [raisedPowers] using hk
  rcases hcases with rfl | rfl
  · refine ⟨100000000000000008388608, 76, ?_, by decide +kernel⟩
    unfold Denotes
    decide +kernel
  · refine ⟨6849404215651260 * 2 ^ 645, 697, ?_, by decide +kernel⟩
    unfold Denotes
    decide +kernel

/-- Powers of two around a power of ten are around what the power function gives for it. -/
theorem powerOfTen_between (hk : k.natAbs ≤ 2048) (hm : -1074 ≤ m) (hn : n ≤ 1023)
    (hlow : (2 : ℚ) ^ m ≤ 10 ^ k) (hhigh : (10 : ℚ) ^ k ≤ 2 ^ n) :
    AtLeast m (powerOfTen k) ∧ Within n (powerOfTen k) := by
  by_cases hraised : k ∈ raisedPowers
  · obtain ⟨r, t, hr, hlow', hhigh', hten, hten', hnonneg⟩ := exists_of_raised hraised
    obtain ⟨d, rfl⟩ := Int.eq_ofNat_of_zero_le hnonneg
    rw [Int.toNat_natCast] at hten hten'
    rw [zpow_natCast] at hlow hhigh
    have hmt : m < (t + 1 : ℕ) := by
      rw [← zpow_lt_zpow_iff_right₀ (show (1 : ℚ) < 2 by norm_num), zpow_natCast]
      exact hlow.trans_lt (by exact_mod_cast hten')
    have htn : (t : ℤ) < n := by
      rw [← zpow_lt_zpow_iff_right₀ (show (1 : ℚ) < 2 by norm_num), zpow_natCast]
      exact lt_of_lt_of_le (by exact_mod_cast hten) hhigh
    refine ⟨⟨r, hr, ?_⟩, ⟨r, hr, ?_⟩⟩
    · rw [Nat.abs_cast]
      calc (2 : ℚ) ^ m ≤ 2 ^ (t : ℤ) := zpow_le_zpow_right₀ (by norm_num) (by push_cast at hmt; omega)
        _ ≤ r := by
          rw [zpow_natCast]
          exact_mod_cast hlow'
    · rw [Nat.abs_cast]
      calc (r : ℚ) ≤ 2 ^ ((t + 1 : ℕ) : ℤ) := by
            rw [zpow_natCast]
            exact_mod_cast hhigh'.le
        _ ≤ 2 ^ n := zpow_le_zpow_right₀ (by norm_num) (by push_cast; omega)
  · have hnearest : powerOfTen k = scaled 1 k := by simp [powerOfTen, hraised]
    have hpos : (0 : ℚ) < 10 ^ k := zpow_pos (by norm_num) _
    have hcomputes := computes_scaled hk
    have hmn : m ≤ n := (zpow_le_zpow_iff_right₀ (by norm_num)).mp (hlow.trans hhigh)
    rw [hnearest]
    exact ⟨hcomputes.atLeast hm hn (by rwa [abs_of_pos hpos]) (by rwa [abs_of_pos hpos]),
      hcomputes.within ⟨hm.trans hmn, hn⟩ (by rwa [abs_of_pos hpos])⟩

/-! ## The decade -/

/-- The exponent of the decade is in the range of the exponent of the double. -/
theorem decadeExponent_range (hq : 0 < q) (hlow : 2 ^ j ≤ q) (hhigh : q < 2 ^ (j + 1))
    (hj : j.natAbs ≤ 2000) : (decadeExponent q + 1).natAbs ≤ 2010 := by
  obtain ⟨hlow', hhigh'⟩ := decadeExponent_bounds hq
  generalize decadeExponent q = k at *
  have htwo (n : ℕ) : (2 : ℚ) ^ n ≤ 10 ^ n := pow_le_pow_left₀ (by norm_num) (by norm_num) n
  have hupper : k ≤ 2002 := by
    by_contra hlt
    obtain ⟨d, rfl⟩ := Int.eq_ofNat_of_zero_le (show 0 ≤ k by omega)
    have hlt' : (2 : ℚ) ^ (d : ℤ) < 2 ^ (j + 1) := by
      rw [zpow_natCast] at hlow' ⊢
      exact ((htwo d).trans hlow').trans_lt hhigh
    have := (zpow_lt_zpow_iff_right₀ (by norm_num)).mp hlt'
    omega
  have hlower : -2002 ≤ k + 1 := by
    by_contra hlt
    obtain ⟨d, hd⟩ : ∃ d : ℕ, k + 1 = -(d : ℤ) := ⟨(-(k + 1)).toNat, by omega⟩
    have hlt' : (2 : ℚ) ^ j < 2 ^ (-(d : ℤ)) := by
      rw [hd, zpow_neg, zpow_natCast] at hhigh'
      rw [zpow_neg, zpow_natCast]
      exact (hlow.trans_lt hhigh').trans_le (inv_anti₀ (by positivity) (htwo d))
    have := (zpow_lt_zpow_iff_right₀ (by norm_num)).mp hlt'
    omega
  omega

/-- **The decade of a double is near the double.** -/
theorem decade_between (hx : Denotes x q) (hlow : 2 ^ j ≤ q) (hhigh : q < 2 ^ (j + 1))
    (hj : -1070 ≤ j) (hj' : j ≤ 1021) :
    AtLeast (j - 4) (decade x) ∧ Within (j + 2) (decade x) := by
  have hq : 0 < q := (two_zpow_pos j).trans_le hlow
  have hdecade : decade x = powerOfTen (logFloor q) := by
    obtain ⟨negative, p, hp, hnonneg, hvalue, -⟩ := hx.exists_ofFloat
    cases negative with
    | true =>
      rw [if_pos rfl] at hvalue
      linarith
    | false =>
      rw [if_neg Bool.false_ne_true] at hvalue
      rw [decade, hp, hvalue]
      exact if_neg (hvalue ▸ hq.ne')
  have hrange := decadeExponent_range hq hlow hhigh (by omega)
  have hbounds := logFloor_bounds hq (by omega)
  have hsize : (logFloor q).natAbs ≤ 2048 := by
    have hcases : logFloor q = decadeExponent q + 1 ∨ logFloor q = decadeExponent q := by
      rw [logFloor]
      split
      · exact .inl rfl
      · exact .inr (add_sub_cancel_right _ _)
    omega
  rw [hdecade]
  generalize logFloor q = k at hbounds hsize
  refine powerOfTen_between hsize (by omega) (by omega) ?_ ?_
  · have hsixteen : q < 10 ^ k * 16 := by
      calc q < 10 ^ (k + 1) := hbounds.2
        _ = 10 ^ k * 10 := zpow_add_one₀ (by norm_num) k
        _ ≤ 10 ^ k * 16 := mul_le_mul_of_nonneg_left (by norm_num) (zpow_pos (by norm_num) k).le
    have hsplit : (2 : ℚ) ^ (j - 4) * 16 = 2 ^ j := by
      rw [zpow_sub₀ (by norm_num)]
      norm_num
    linarith
  · calc (10 : ℚ) ^ k ≤ 2 * q := hbounds.1
      _ ≤ 2 * 2 ^ (j + 1) := by linarith
      _ = 2 ^ (j + 2) := by
        rw [← zpow_one_add₀ (by norm_num)]
        congr 1
        ring

end LatencyPlot.Number
