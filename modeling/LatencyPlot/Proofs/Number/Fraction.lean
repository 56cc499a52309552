/-
  LatencyPlot.Proofs.Number.Fraction

  What the operations on exact fractions compute: lesser and greater ones,
  least and greatest ones, magnitudes, nearest whole numbers, and the decade of
  a fraction, which is the power of ten at or below it.
-/
import LatencyPlot.Number.Scalar
import Mathlib

namespace LatencyPlot.Number

/-! ## Order and magnitude -/

@[simp] theorem ratLesser_eq (p q : ℚ) : ratLesser p q = min p q := (min_def p q).symm

@[simp] theorem ratGreater_eq (p q : ℚ) : ratGreater p q = max p q := (max_def p q).symm

@[simp] theorem ratAbs_eq (q : ℚ) : ratAbs q = |q| := by
  rw [ratAbs]
  split
  · next hq => exact (abs_of_neg hq).symm
  · next hq => exact (abs_of_nonneg (not_lt.mp hq)).symm

/-- The least of some fractions is one of them. -/
theorem isLeast_least (x : ℚ) (xs : List ℚ) : IsLeast {y | y ∈ x :: xs} (Scalar.least x xs) := by
  have hfold : Scalar.least x xs = xs.foldl min x := by
    show xs.foldl ratLesser x = _
    rw [show ratLesser = min from funext₂ ratLesser_eq]
  have hmin : (x :: xs).min? = some (Scalar.least x xs) := by rw [List.min?_cons', hfold]
  obtain ⟨hmem, hle⟩ := List.min?_eq_some_iff.mp hmin
  exact ⟨hmem, hle⟩

/-- The greatest of some fractions is one of them. -/
theorem isGreatest_greatest (x : ℚ) (xs : List ℚ) :
    IsGreatest {y | y ∈ x :: xs} (Scalar.greatest x xs) := by
  have hfold : Scalar.greatest x xs = xs.foldl max x := by
    show xs.foldl ratGreater x = _
    rw [show ratGreater = max from funext₂ ratGreater_eq]
  have hmax : (x :: xs).max? = some (Scalar.greatest x xs) := by rw [List.max?_cons', hfold]
  obtain ⟨hmem, hle⟩ := List.max?_eq_some_iff.mp hmax
  exact ⟨hmem, hle⟩

theorem rat_ceil_eq (q : ℚ) : q.ceil = ⌈q⌉ := by
  rw [Rat.ceil_eq_neg_floor_neg]
  rfl

/-! ## Nearest whole numbers -/

theorem exists_natCast_of_den_eq_one {q : ℚ} (hq : 0 ≤ q) (hden : q.den = 1) : ∃ n : ℕ, q = n := by
  refine ⟨q.num.toNat, ?_⟩
  nth_rewrite 1 [← (Rat.den_eq_one_iff q).mp hden]
  exact_mod_cast (Int.toNat_of_nonneg (Rat.num_nonneg.mpr hq)).symm

theorem floor_toNat {q : ℚ} (hq : 0 ≤ q) : ((q.floor.toNat : ℕ) : ℚ) = ⌊q⌋ := by
  have hfloor : ((q.floor.toNat : ℕ) : ℤ) = ⌊q⌋ := Int.toNat_of_nonneg (Int.floor_nonneg.mpr hq)
  exact_mod_cast congrArg (Int.cast (R := ℚ)) hfloor

/-- A fraction lies at most a half away from the natural number that it is rounded to. -/
theorem abs_nearest_sub_le (tie : Tie) {q : ℚ} (hq : 0 ≤ q) :
    |(nearest tie q : ℚ) - q| ≤ 1 / 2 := by
  have hfloor := floor_toNat hq
  have hlow := Int.floor_le q
  have hhigh := Int.lt_floor_add_one q
  rw [← hfloor] at hlow hhigh
  unfold nearest
  dsimp only
  generalize q.floor.toNat = n at hlow hhigh
  rw [abs_le]
  split
  · constructor <;> linarith
  · split
    · push_cast
      constructor <;> linarith
    · cases tie with
      | up =>
        push_cast
        constructor <;> linarith
      | even =>
        -- a tie goes up or down
        have hparity : ((n % 2 : ℕ) : ℚ) = 0 ∨ ((n % 2 : ℕ) : ℚ) = 1 := by
          exact_mod_cast Nat.mod_two_eq_zero_or_one n
        push_cast
        rcases hparity with hp | hp <;> rw [hp] <;> constructor <;> linarith

/-- A natural number less than a half away is the nearest one. -/
theorem nearest_eq_of_abs_lt (tie : Tie) {q : ℚ} (hq : 0 ≤ q) {n : ℕ} (h : |(n : ℚ) - q| < 1 / 2) :
    nearest tie q = n := by
  have hnear := abs_nearest_sub_le tie hq
  have hlt : |(nearest tie q : ℚ) - n| < 1 := by
    calc |(nearest tie q : ℚ) - n| = |((nearest tie q : ℚ) - q) - (n - q)| := by congr 1; ring
      _ ≤ |(nearest tie q : ℚ) - q| + |(n : ℚ) - q| := abs_sub _ _
      _ < 1 := by linarith
  have hint : |(nearest tie q : ℤ) - n| < 1 := by exact_mod_cast hlt
  have := Int.abs_lt_one_iff.mp hint
  omega

@[simp] theorem nearest_natCast (tie : Tie) (n : ℕ) : nearest tie (n : ℚ) = n :=
  nearest_eq_of_abs_lt tie (Nat.cast_nonneg n) (by simp)

/-- Rounding to the nearest number keeps the order: of two results in the other order the fractions
    would both be halfway between them. -/
theorem nearest_le_nearest (tie : Tie) {p q : ℚ} (hp : 0 ≤ p) (hpq : p ≤ q) :
    nearest tie p ≤ nearest tie q := by
  by_contra hlt
  have hbelow := abs_le.mp (abs_nearest_sub_le tie hp)
  have habove := abs_le.mp (abs_nearest_sub_le tie (hp.trans hpq))
  have hstep : (nearest tie q : ℚ) + 1 ≤ nearest tie p := by exact_mod_cast not_le.mp hlt
  have heq : p = q := by linarith [hbelow.2, habove.1]
  rw [heq] at hlt
  exact hlt le_rfl

theorem ratRound_of_nonneg {q : ℚ} (hq : 0 ≤ q) : ratRound q = nearest .up q :=
  if_neg (not_lt.mpr hq)

theorem ratRound_neg {q : ℚ} (hq : 0 ≤ q) : ratRound (-q) = -nearest .up q := by
  rcases hq.eq_or_lt with rfl | hpos
  · rw [neg_zero, ratRound_of_nonneg le_rfl]
    have hzero := nearest_natCast .up 0
    rw [Nat.cast_zero] at hzero
    rw [hzero, Nat.cast_zero, neg_zero]
  · rw [ratRound, if_pos (neg_neg_of_pos hpos), neg_neg]

/-- The nearest whole number, on either side of zero. -/
theorem exists_ratRound (q : ℚ) : ∃ n : ℤ, ratRound q = n ∧ |(n : ℚ) - q| ≤ 1 / 2 := by
  rcases le_total 0 q with hq | hq
  · refine ⟨nearest .up q, by rw [ratRound_of_nonneg hq, Int.cast_natCast], ?_⟩
    rw [Int.cast_natCast]
    exact abs_nearest_sub_le .up hq
  · have hnear := abs_nearest_sub_le .up (neg_nonneg.mpr hq)
    have hround := ratRound_neg (neg_nonneg.mpr hq)
    rw [neg_neg] at hround
    refine ⟨-nearest .up (-q), by rw [hround]; push_cast; rfl, ?_⟩
    push_cast
    rwa [show -(nearest .up (-q) : ℚ) - q = -(nearest .up (-q) - -q) by ring, abs_neg]

@[simp] theorem ratRound_intCast (n : ℤ) : ratRound n = n := by
  obtain ⟨k, hk, hnear⟩ := exists_ratRound n
  have hlt : |((k - n : ℤ) : ℚ)| < 1 := by
    push_cast
    linarith
  have := Int.abs_lt_one_iff.mp (by exact_mod_cast hlt : |k - n| < 1)
  rw [hk, sub_eq_zero.mp this]

/-! ## Decades -/

/-- The digits of a positive number tell the power of ten at or below it. -/
theorem pow_le_lt_pow_of_toDigits {n : ℕ} (hn : 0 < n) :
    10 ^ ((Nat.toDigits 10 n).length - 1) ≤ n ∧ n < 10 ^ (Nat.toDigits 10 n).length := by
  have hpos : 0 < (Nat.toDigits 10 n).length := Nat.length_toDigits_pos
  refine ⟨?_, (Nat.length_toDigits_le_iff (by norm_num) hpos).mp le_rfl⟩
  by_contra hlt
  rw [not_le] at hlt
  rcases Nat.eq_zero_or_pos ((Nat.toDigits 10 n).length - 1) with hone | hmore
  · rw [hone, pow_zero] at hlt
    omega
  · have := (Nat.length_toDigits_le_iff (by norm_num) hmore).mpr hlt
    omega

@[simp] theorem tenTo_eq (k : ℤ) : tenTo k = 10 ^ k := by
  rw [tenTo]
  split
  · next hk =>
    obtain ⟨n, rfl⟩ := Int.eq_ofNat_of_zero_le hk
    rw [zpow_natCast, Int.toNat_natCast, Nat.pow_eq]
    push_cast
    rfl
  · next hk =>
    obtain ⟨n, rfl⟩ : ∃ n : ℕ, k = -(n : ℤ) := ⟨(-k).toNat, by omega⟩
    rw [neg_neg, Int.toNat_natCast, zpow_neg, zpow_natCast, Nat.pow_eq, one_div]
    push_cast
    rfl

@[simp] theorem ratDecade_eq (q : ℚ) : ratDecade q = 10 ^ decadeExponent q := tenTo_eq _

/-- From one on, the digits of the integer part count. -/
theorem decadeExponent_bounds_of_one_le {q : ℚ} (hone : 1 ≤ q) :
    10 ^ decadeExponent q ≤ q ∧ q < 10 ^ (decadeExponent q + 1) := by
  have hfloor := floor_toNat (zero_le_one.trans hone)
  have hpos : 0 < q.floor.toNat := by
    have : (0 : ℤ) < ⌊q⌋ := Int.floor_pos.mpr hone
    exact_mod_cast hfloor ▸ (by exact_mod_cast this : (0 : ℚ) < ⌊q⌋)
  obtain ⟨hlow, hhigh⟩ := pow_le_lt_pow_of_toDigits hpos
  have hlen : 0 < (Nat.toDigits 10 q.floor.toNat).length := Nat.length_toDigits_pos
  rw [decadeExponent, if_pos hone]
  generalize (Nat.toDigits 10 q.floor.toNat).length = l at hlow hhigh hlen
  constructor
  · rw [show (l : ℤ) - 1 = (l - 1 : ℕ) by omega, zpow_natCast]
    calc (10 : ℚ) ^ (l - 1) ≤ q.floor.toNat := by exact_mod_cast hlow
      _ ≤ q := hfloor ▸ Int.floor_le q
  · rw [sub_add_cancel, zpow_natCast]
    calc q < q.floor.toNat + 1 := hfloor ▸ Int.lt_floor_add_one q
      _ ≤ 10 ^ l := by exact_mod_cast hhigh

/-- Below one, the digits of what lies below the inverse count. -/
theorem decadeExponent_bounds_of_lt_one {q : ℚ} (hq : 0 < q) (hone : q < 1) :
    10 ^ decadeExponent q ≤ q ∧ q < 10 ^ (decadeExponent q + 1) := by
  have hinv : 1 < 1 / q := (one_lt_div hq).mpr hone
  have hceil : (1 : ℤ) < ⌈1 / q⌉ := Int.lt_ceil.mpr (by exact_mod_cast hinv)
  have hcast : (((1 / q).ceil.toNat - 1 : ℕ) : ℚ) = ⌈1 / q⌉ - 1 := by
    rw [rat_ceil_eq]
    have : (((⌈1 / q⌉.toNat - 1 : ℕ) : ℤ)) = ⌈1 / q⌉ - 1 := by omega
    exact_mod_cast congrArg (Int.cast (R := ℚ)) this
  have hpos : 0 < (1 / q).ceil.toNat - 1 := by
    rw [rat_ceil_eq]
    omega
  obtain ⟨hlow, hhigh⟩ := pow_le_lt_pow_of_toDigits hpos
  have hlen : 0 < (Nat.toDigits 10 ((1 / q).ceil.toNat - 1)).length := Nat.length_toDigits_pos
  rw [decadeExponent, if_neg (not_le.mpr hone)]
  generalize (Nat.toDigits 10 ((1 / q).ceil.toNat - 1)).length = l at hlow hhigh hlen
  constructor
  · rw [zpow_neg, zpow_natCast, inv_le_comm₀ (by positivity) hq, ← one_div]
    calc 1 / q ≤ ⌈1 / q⌉ := Int.le_ceil _
      _ = ((1 / q).ceil.toNat - 1 : ℕ) + 1 := by rw [hcast, sub_add_cancel]
      _ ≤ 10 ^ l := by exact_mod_cast hhigh
  · have hbelow : (10 : ℚ) ^ (l - 1) < 1 / q := by
      calc (10 : ℚ) ^ (l - 1) ≤ ((1 / q).ceil.toNat - 1 : ℕ) := by exact_mod_cast hlow
        _ = ⌈1 / q⌉ - 1 := hcast
        _ < 1 / q := by linarith [Int.ceil_lt_add_one (1 / q)]
    rw [show -(l : ℤ) + 1 = -((l - 1 : ℕ) : ℤ) by omega, zpow_neg, zpow_natCast,
      lt_inv_comm₀ hq (by positivity), ← one_div]
    exact hbelow

/-- The decade of a positive fraction is the power of ten at or below it. -/
theorem decadeExponent_bounds {q : ℚ} (hq : 0 < q) :
    10 ^ decadeExponent q ≤ q ∧ q < 10 ^ (decadeExponent q + 1) := by
  rcases le_or_gt 1 q with hone | hone
  · exact decadeExponent_bounds_of_one_le hone
  · exact decadeExponent_bounds_of_lt_one hq hone

end LatencyPlot.Number
