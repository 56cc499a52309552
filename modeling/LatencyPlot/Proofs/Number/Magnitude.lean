/-
  LatencyPlot.Proofs.Number.Magnitude

  Bounds for computed doubles, as powers of two: from above (`Within`), and from
  below for what is divided by (`AtLeast`). Rounding respects powers of two, so
  the bounds add up without an error term, and a bound below `2 ^ 1024` says
  that a computed double is finite.
-/
import LatencyPlot.Proofs.Number.Integral

namespace LatencyPlot.Number

/-- A finite double of at most `2 ^ k` in magnitude. -/
def Within (k : ℤ) (x : Float) : Prop := ∃ q, Denotes x q ∧ |q| ≤ 2 ^ k

/-- A finite double of at least `2 ^ k` in magnitude. -/
def AtLeast (k : ℤ) (x : Float) : Prop := ∃ q, Denotes x q ∧ 2 ^ k ≤ |q|

/-- The exponents for which `2 ^ k` is a double. -/
def InRange (k : ℤ) : Prop := -1074 ≤ k ∧ k ≤ 1023

variable {x y : Float} {p q v : ℚ} {j k m n : ℤ}

theorem Within.mono (h : Within j x) (hjk : j ≤ k) : Within k x := by
  obtain ⟨q, hq, hle⟩ := h
  exact ⟨q, hq, hle.trans (zpow_le_zpow_right₀ (by norm_num) hjk)⟩

theorem AtLeast.mono (h : AtLeast k x) (hjk : j ≤ k) : AtLeast j x := by
  obtain ⟨q, hq, hle⟩ := h
  exact ⟨q, hq, (zpow_le_zpow_right₀ (by norm_num) hjk).trans hle⟩

theorem Within.isFinite (h : Within k x) : x.isFinite = true := by
  obtain ⟨q, hq, -⟩ := h
  exact isFinite_iff.mpr ⟨q, hq⟩

/-! ## Rounding -/

/-- `2 ^ 1023` is far enough from the first power of two beyond all doubles. -/
theorem two_zpow_lt_top (hk : k ≤ 1023) : (2 : ℚ) ^ k < 2 ^ (1024 : ℤ) - 2 ^ (970 : ℤ) := by
  have hle : (2 : ℚ) ^ k ≤ 2 ^ (1023 : ℤ) := zpow_le_zpow_right₀ (by norm_num) hk
  have hlt : (2 : ℚ) ^ (970 : ℤ) < 2 ^ (1023 : ℤ) := zpow_lt_zpow_right₀ (by norm_num) (by norm_num)
  rw [two_zpow_pred 1024, show (1024 : ℤ) - 1 = 1023 by norm_num, two_mul]
  generalize (2 : ℚ) ^ (1023 : ℤ) = half, (2 : ℚ) ^ (970 : ℤ) = margin at hle hlt
  linarith

theorem Computes.within (h : Computes x v) (hk : InRange k) (hv : |v| ≤ 2 ^ k) : Within k x := by
  obtain ⟨r, ⟨t, ht⟩, hr⟩ := h.denotes (hv.trans_lt (two_zpow_lt_top hk.2))
  exact ⟨r, hr, ht.le_two_zpow hk.1 hv⟩

theorem Computes.atLeast (h : Computes x v) (hj : -1074 ≤ j) (hk : k ≤ 1023) (hlow : 2 ^ j ≤ |v|)
    (hhigh : |v| ≤ 2 ^ k) : AtLeast j x := by
  obtain ⟨r, ⟨t, ht⟩, hr⟩ := h.denotes (hhigh.trans_lt (two_zpow_lt_top hk))
  exact ⟨r, hr, ht.two_zpow_le hj hlow⟩

/-- A double that is written with a point. -/
theorem within_literal {digits places : ℕ} (hplaces : places ≤ 2048) (hk : InRange k)
    (hdigits : (digits : ℚ) / 10 ^ places ≤ 2 ^ k) :
    Within k (OfScientific.ofScientific digits true places) := by
  refine (computes_ofScientific digits hplaces).2.within hk ?_
  rwa [abs_of_nonneg (by positivity)]

/-! ## Operations -/

theorem abs_add_le_two_zpow (hp : |p| ≤ 2 ^ k) (hq : |q| ≤ 2 ^ k) : |p + q| ≤ 2 ^ (k + 1) := by
  rw [zpow_add_one₀ (by norm_num), mul_two]
  exact (abs_add_le p q).trans (add_le_add hp hq)

theorem Within.add (hx : Within k x) (hy : Within k y) (hk : InRange (k + 1)) :
    Within (k + 1) (x + y) := by
  obtain ⟨p, hp, hple⟩ := hx
  obtain ⟨q, hq, hqle⟩ := hy
  exact (hp.add hq).within hk (abs_add_le_two_zpow hple hqle)

theorem Within.sub (hx : Within k x) (hy : Within k y) (hk : InRange (k + 1)) :
    Within (k + 1) (x - y) := by
  obtain ⟨p, hp, hple⟩ := hx
  obtain ⟨q, hq, hqle⟩ := hy
  refine (hp.sub hq).within hk ?_
  rw [sub_eq_add_neg]
  exact abs_add_le_two_zpow hple (by rwa [abs_neg])

theorem Within.mul (hx : Within j x) (hy : Within k y) (hjk : InRange (j + k)) :
    Within (j + k) (x * y) := by
  obtain ⟨p, hp, hple⟩ := hx
  obtain ⟨q, hq, hqle⟩ := hy
  refine (hp.mul hq).within hjk ?_
  rw [abs_mul, zpow_add₀ (by norm_num)]
  exact mul_le_mul hple hqle (abs_nonneg q) (two_zpow_pos j).le

theorem ne_zero_of_two_zpow_le (h : 2 ^ k ≤ |q|) : q ≠ 0 := by
  rintro rfl
  rw [abs_zero] at h
  exact (two_zpow_pos k).not_ge h

theorem Within.div (hx : Within j x) (hy : AtLeast k y) (hjk : InRange (j - k)) :
    Within (j - k) (x / y) := by
  obtain ⟨p, hp, hple⟩ := hx
  obtain ⟨q, hq, hqle⟩ := hy
  refine (hp.div hq (ne_zero_of_two_zpow_le hqle)).within hjk ?_
  rw [abs_div, zpow_sub₀ (by norm_num)]
  exact div_le_div₀ (two_zpow_pos j).le hple (two_zpow_pos k) hqle

/-- A quotient is at least what the dividend is at least, by what the divisor is at most. -/
theorem AtLeast.div (hx : AtLeast j x) (hx' : Within m x) (hy : Within k y) (hy' : AtLeast n y)
    (hjk : -1074 ≤ j - k) (hmn : m - n ≤ 1023) : AtLeast (j - k) (x / y) := by
  obtain ⟨p, hp, hple⟩ := hx
  obtain ⟨p', hp', hple'⟩ := hx'
  obtain ⟨q, hq, hqle⟩ := hy
  obtain ⟨q', hq', hqle'⟩ := hy'
  obtain rfl := hp.unique hp'
  obtain rfl := hq.unique hq'
  have hne := ne_zero_of_two_zpow_le hqle'
  refine (hp.div hq hne).atLeast hjk hmn ?_ ?_
  · rw [abs_div, zpow_sub₀ (by norm_num)]
    exact div_le_div₀ (abs_nonneg p) hple (abs_pos.mpr hne) hqle
  · rw [abs_div, zpow_sub₀ (by norm_num)]
    exact div_le_div₀ (two_zpow_pos m).le hple' (two_zpow_pos n) hqle'

theorem AtLeast.mul (hx : AtLeast j x) (hx' : Within m x) (hy : AtLeast k y) (hy' : Within n y)
    (hjk : -1074 ≤ j + k) (hmn : m + n ≤ 1023) : AtLeast (j + k) (x * y) := by
  obtain ⟨p, hp, hple⟩ := hx
  obtain ⟨p', hp', hple'⟩ := hx'
  obtain ⟨q, hq, hqle⟩ := hy
  obtain ⟨q', hq', hqle'⟩ := hy'
  obtain rfl := hp.unique hp'
  obtain rfl := hq.unique hq'
  refine (hp.mul hq).atLeast hjk hmn ?_ ?_
  · rw [abs_mul, zpow_add₀ (by norm_num)]
    exact mul_le_mul hple hqle (two_zpow_pos k).le (abs_nonneg p)
  · rw [abs_mul, zpow_add₀ (by norm_num)]
    exact mul_le_mul hple' hqle' (abs_nonneg q) (two_zpow_pos m).le

theorem Within.abs (hx : Within k x) : Within k x.abs := by
  obtain ⟨p, hp, hple⟩ := hx
  exact ⟨|p|, hp.abs, by rwa [abs_abs]⟩

theorem Within.lesser (hx : Within k x) (hy : Within k y) : Within k (lesser x y) := by
  rcases lesser_cases x y with h | h <;> rw [h] <;> assumption

theorem Within.greater (hx : Within k x) (hy : Within k y) : Within k (greater x y) := by
  rcases greater_cases x y with h | h <;> rw [h] <;> assumption

theorem within_half : Within 0 0.5 :=
  within_literal (by norm_num) ⟨by norm_num, by norm_num⟩ (by norm_num)

theorem Within.div_two (hx : Within k x) (hk : 0 ≤ k) (hk' : k ≤ 1023) : Within k (x / 2.0) := by
  have htwo : Denotes 2.0 2 := by
    unfold Denotes
    decide +kernel
  have hleast : AtLeast 0 2.0 := ⟨2, htwo, by norm_num⟩
  exact (hx.div hleast ⟨by omega, by omega⟩).mono (by omega)

/-! ## Whole numbers -/

/-- A whole number of at most `2 ^ k` in magnitude. -/
def Whole (k : ℤ) (x : Float) : Prop := ∃ n : ℤ, Denotes x n ∧ |(n : ℚ)| ≤ 2 ^ k

theorem Whole.within (h : Whole k x) : Within k x := by
  obtain ⟨n, hn, hle⟩ := h
  exact ⟨n, hn, hle⟩

theorem whole_floor (hx : Within k x) (hk : 0 ≤ k) : Whole k (floor x) := by
  obtain ⟨p, hp, hple⟩ := hx
  obtain ⟨n, rfl⟩ := Int.eq_ofNat_of_zero_le hk
  rw [zpow_natCast, abs_le] at hple
  refine ⟨⌊p⌋, hp.floor, ?_⟩
  rw [zpow_natCast, abs_le]
  constructor
  · exact_mod_cast Int.le_floor.mpr (by push_cast; exact hple.1)
  · exact (Int.floor_le p).trans hple.2

theorem whole_ceil (hx : Within k x) (hk : 0 ≤ k) : Whole k (ceil x) := by
  obtain ⟨p, hp, hple⟩ := hx
  obtain ⟨n, rfl⟩ := Int.eq_ofNat_of_zero_le hk
  rw [zpow_natCast, abs_le] at hple
  refine ⟨⌈p⌉, hp.ceil, ?_⟩
  rw [zpow_natCast, abs_le]
  constructor
  · exact hple.1.trans (Int.le_ceil p)
  · exact_mod_cast Int.ceil_le.mpr (by push_cast; exact hple.2)

/-- Rounding to a whole number adds less than one. -/
theorem Within.round (hx : Within k x) (hk : 0 ≤ k) : Within (k + 1) (round x) := by
  obtain ⟨p, hp, hple⟩ := hx
  refine ⟨_, hp.round, ?_⟩
  obtain ⟨n, hn, hnear⟩ := exists_ratRound p
  have hone : (1 : ℚ) ≤ 2 ^ k := one_le_zpow₀ (by norm_num) hk
  rw [hn]
  have hstep : |(n : ℚ) - p| ≤ 2 ^ k := hnear.trans (by linarith)
  simpa using abs_add_le_two_zpow hstep hple

theorem within_ofNat {n : ℕ} (hk : InRange k) (hn : (n : ℚ) ≤ 2 ^ k) : Within k (Float.ofNat n) :=
  (computes_ofNat n).within hk (by rwa [Nat.abs_cast])

/-- A count is at most the number that it is taken from. -/
theorem toCount_le (hx : Denotes x p) (hp : p ≤ 2 ^ k) : (toCount x : ℚ) ≤ 2 ^ k := by
  obtain ⟨negative, q, hq, hnonneg, hvalue, -⟩ := hx.exists_ofFloat
  rw [toCount, hq]
  cases negative with
  | true => exact_mod_cast (two_zpow_pos k).le
  | false =>
    rw [if_neg Bool.false_ne_true] at hvalue
    have hle : ((min q.floor.toNat maxCount : ℕ) : ℚ) ≤ q.floor.toNat := by
      exact_mod_cast min_le_left _ _
    calc ((min q.floor.toNat maxCount : ℕ) : ℚ) ≤ q.floor.toNat := hle
      _ ≤ q := (floor_toNat hnonneg).trans_le (Int.floor_le q)
      _ ≤ 2 ^ k := hvalue ▸ hp

theorem Whole.lesser (hx : Whole k x) (hy : Whole k y) : Whole k (lesser x y) := by
  rcases lesser_cases x y with h | h <;> rw [h] <;> assumption

theorem Whole.greater (hx : Whole k x) (hy : Whole k y) : Whole k (greater x y) := by
  rcases greater_cases x y with h | h <;> rw [h] <;> assumption

/-- Whole numbers are the same, or at least one apart. -/
theorem Whole.sub_cases (hx : Whole k x) (hy : Whole k y) (hk : k ≤ 1022) :
    Denotes (x - y) 0 ∨ AtLeast 0 (x - y) := by
  obtain ⟨m, hm, hmle⟩ := hx
  obtain ⟨n, hn, hnle⟩ := hy
  have hdifference : Computes (x - y) ((m - n : ℤ) : ℚ) := by
    rw [Int.cast_sub]
    exact hm.sub hn
  by_cases heq : m = n
  · left
    rw [heq, sub_self] at hdifference
    simpa using hdifference.denotes_of_whole (n := 0) rfl (by norm_num)
  · right
    have hapart : (1 : ℚ) ≤ |((m - n : ℤ) : ℚ)| := by
      rw [← Int.cast_abs]
      exact_mod_cast Int.one_le_abs (sub_ne_zero.mpr heq)
    refine hdifference.atLeast (by norm_num) (show k + 1 ≤ 1023 by omega) (by simpa using hapart) ?_
    rw [Int.cast_sub, sub_eq_add_neg]
    exact abs_add_le_two_zpow hmle (by rwa [abs_neg])

end LatencyPlot.Number
