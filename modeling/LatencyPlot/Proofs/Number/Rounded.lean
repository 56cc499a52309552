/-
  LatencyPlot.Proofs.Number.Rounded

  Rounding to the precision of doubles (`Rounds`): the result is a multiple of
  the spacing of doubles of that size, at most half of it away. So what is a
  multiple of the spacing stays as it is, and a power of two that bounds a
  fraction bounds its rounding. The operations on decoded doubles round so.
-/
import LatencyPlot.Proofs.Number.Value

namespace LatencyPlot.Number

open Float.Model (UnpackedFloat Format totalExponent)
open Float.Model.UnpackedFloat (Sign ExtendedMantissa Accuracy shiftToExponent
  shiftToTargetExponent roundWithAccuracy decreaseExponent)

/-! ## Rounding of fractions -/

/-- `r` is `v` rounded to a multiple of `2 ^ t`, which is the spacing of doubles of the size
    of `v`. -/
structure RoundsAt (v r : ℚ) (t : ℤ) : Prop where
  least : -1074 ≤ t
  lt : |v| < 2 ^ (t + 53)
  full : t = -1074 ∨ 2 ^ (t + 52) ≤ |v|
  multiple : ∃ n : ℤ, r = n * 2 ^ t
  near : |r - v| ≤ 2 ^ (t - 1)

/-- `r` is `v` rounded to the precision of doubles. -/
def Rounds (v r : ℚ) : Prop := ∃ t, RoundsAt v r t

theorem two_zpow_pos (t : ℤ) : (0 : ℚ) < 2 ^ t := zpow_pos (by norm_num) t

theorem two_zpow_pred (t : ℤ) : (2 : ℚ) ^ t = 2 * 2 ^ (t - 1) := by
  rw [← zpow_one_add₀ (by norm_num)]
  congr 1
  ring

/-- Multiples of a power of two that are less than it apart are equal. -/
theorem eq_of_multiples {a b : ℚ} {t : ℤ} (ha : ∃ n : ℤ, a = n * 2 ^ t)
    (hb : ∃ n : ℤ, b = n * 2 ^ t) (h : |a - b| < 2 ^ t) : a = b := by
  obtain ⟨n, rfl⟩ := ha
  obtain ⟨k, rfl⟩ := hb
  have hpos := two_zpow_pos t
  rw [← sub_mul, abs_mul, abs_of_pos hpos, mul_lt_iff_lt_one_left hpos] at h
  have hlt : |n - k| < 1 := by exact_mod_cast h
  rw [sub_eq_zero.mp (Int.abs_lt_one_iff.mp hlt)]

theorem multiple_of_le {s t : ℤ} (h : t ≤ s) (n : ℤ) : ∃ k : ℤ, (n : ℚ) * 2 ^ s = k * 2 ^ t := by
  obtain ⟨d, rfl⟩ : ∃ d : ℕ, s = t + d := ⟨(s - t).toNat, by omega⟩
  refine ⟨n * 2 ^ d, ?_⟩
  rw [zpow_add₀ (by norm_num), zpow_natCast]
  push_cast
  ring

theorem multiple_two_zpow {s t : ℤ} (h : t ≤ s) : ∃ k : ℤ, (2 : ℚ) ^ s = k * 2 ^ t := by
  have hone := multiple_of_le h 1
  rwa [Int.cast_one, one_mul] at hone

namespace RoundsAt

variable {v r : ℚ} {t : ℤ}

theorem neg (h : RoundsAt v r t) : RoundsAt (-v) (-r) t where
  least := h.least
  lt := by rw [abs_neg]; exact h.lt
  full := by rw [abs_neg]; exact h.full
  multiple := by
    obtain ⟨n, hn⟩ := h.multiple
    exact ⟨-n, by rw [hn]; push_cast; ring⟩
  near := by
    rw [show -r - -v = -(r - v) by ring, abs_neg]
    exact h.near

/-- Half of the spacing is less than the spacing. -/
theorem abs_sub_lt (h : RoundsAt v r t) : |r - v| < 2 ^ t := by
  have hnear := h.near
  have hpos := two_zpow_pos (t - 1)
  rw [two_zpow_pred t]
  linarith

/-- What doubles can stand for is not rounded. -/
theorem eq_of_exact (h : RoundsAt v r t) {n s : ℤ} (hv : v = n * 2 ^ s) (hn : |n| < 2 ^ 53)
    (hs : -1074 ≤ s) : r = v := by
  have hts : t ≤ s := by
    rcases h.full with hleast | hfull
    · omega
    · by_contra hlt
      have habs : |v| < 2 ^ 53 * 2 ^ s := by
        rw [hv, abs_mul, abs_of_pos (two_zpow_pos s)]
        have : |(n : ℚ)| < 2 ^ 53 := by exact_mod_cast hn
        gcongr
      have hle : (2 : ℚ) ^ 53 * 2 ^ s ≤ 2 ^ (t + 52) := by
        rw [← zpow_natCast, ← zpow_add₀ (by norm_num)]
        exact zpow_le_zpow_right₀ (by norm_num) (by push_cast; omega)
      linarith
  exact eq_of_multiples h.multiple (hv ▸ multiple_of_le hts n) h.abs_sub_lt

/-- A multiple of the spacing that a fraction does not exceed, its rounding does not exceed. -/
theorem le_of_multiple (h : RoundsAt v r t) {b : ℚ} (hb : ∃ n : ℤ, b = n * 2 ^ t) (hv : v ≤ b) :
    r ≤ b := by
  by_contra hlt
  rw [not_le] at hlt
  have habs : |r - b| < 2 ^ t := by
    rw [abs_of_pos (sub_pos.mpr hlt)]
    linarith [(abs_lt.mp h.abs_sub_lt).2]
  exact hlt.ne' (eq_of_multiples h.multiple hb habs)

/-- Beyond the least exponent a power of two below the spacing is less than the fraction. -/
theorem two_zpow_lt (h : RoundsAt v r t) {k : ℤ} (hk : -1074 ≤ k) (hkt : k < t) :
    (2 : ℚ) ^ k + 2 ^ t ≤ |v| := by
  have hfull : 2 ^ (t + 52) ≤ |v| := h.full.resolve_left (by omega)
  have hle : (2 : ℚ) ^ k ≤ 2 ^ t := zpow_le_zpow_right₀ (by norm_num) hkt.le
  have hsplit : (2 : ℚ) ^ (t + 52) = 2 ^ 52 * 2 ^ t := by
    rw [zpow_add₀ (by norm_num)]
    norm_num [mul_comm]
  have hpos := two_zpow_pos t
  linarith

/-- A power of two that a fraction does not exceed, its rounding does not exceed. -/
theorem le_two_zpow (h : RoundsAt v r t) {k : ℤ} (hk : -1074 ≤ k) (hv : |v| ≤ 2 ^ k) :
    |r| ≤ 2 ^ k := by
  have htk : t ≤ k := by
    by_contra hlt
    have hbelow := h.two_zpow_lt hk (not_le.mp hlt)
    linarith [two_zpow_pos t]
  obtain ⟨hlow, hhigh⟩ := abs_le.mp hv
  have hneg := h.neg.le_of_multiple (multiple_two_zpow htk) (neg_le.mp hlow)
  exact abs_le.mpr ⟨neg_le.mp hneg, h.le_of_multiple (multiple_two_zpow htk) hhigh⟩

/-- A power of two that does not exceed a fraction, does not exceed its rounding. -/
theorem two_zpow_le (h : RoundsAt v r t) {k : ℤ} (hk : -1074 ≤ k) (hv : 2 ^ k ≤ |v|) :
    2 ^ k ≤ |r| := by
  by_cases htk : t ≤ k
  · -- the power is a multiple of the spacing
    obtain ⟨n, hn⟩ := multiple_two_zpow htk
    rcases abs_cases v with ⟨habs, -⟩ | ⟨habs, -⟩
    · rw [habs] at hv
      have hle := h.neg.le_of_multiple (b := -2 ^ k) ⟨-n, by rw [hn]; push_cast; ring⟩
        (neg_le_neg hv)
      exact (neg_le_neg_iff.mp hle).trans (le_abs_self r)
    · rw [habs] at hv
      have hle := h.le_of_multiple (b := -2 ^ k) ⟨-n, by rw [hn]; push_cast; ring⟩ (le_neg.mp hv)
      exact (le_neg.mp hle).trans (neg_le_abs r)
  · have hbelow := h.two_zpow_lt hk (not_le.mp htk)
    have hnear := h.abs_sub_lt
    have htri := abs_sub_abs_le_abs_sub v r
    rw [abs_sub_comm] at htri
    linarith

/-- At half a spacing or more below the first power of two beyond all doubles, a rounding stays
    below that power. -/
theorem lt_of_lt (h : RoundsAt v r t) (hv : |v| < 2 ^ (1024 : ℤ) - 2 ^ (970 : ℤ)) :
    |r| < 2 ^ (1024 : ℤ) := by
  have htop : t ≤ 971 := by
    rcases h.full with hleast | hfull
    · omega
    · have hlt : (2 : ℚ) ^ (t + 52) < 2 ^ (1024 : ℤ) :=
        hfull.trans_lt (hv.trans (sub_lt_self _ (two_zpow_pos 970)))
      have := (zpow_lt_zpow_iff_right₀ (by norm_num)).mp hlt
      omega
  have hhalf : (2 : ℚ) ^ (t - 1) ≤ 2 ^ (970 : ℤ) :=
    zpow_le_zpow_right₀ (by norm_num) (by omega)
  calc |r| = |v + (r - v)| := by rw [add_sub_cancel]
    _ ≤ |v| + |r - v| := abs_add_le v (r - v)
    _ < 2 ^ (1024 : ℤ) - 2 ^ (970 : ℤ) + 2 ^ (970 : ℤ) :=
      add_lt_add_of_lt_of_le hv (h.near.trans hhalf)
    _ = 2 ^ (1024 : ℤ) := sub_add_cancel _ _

end RoundsAt

/-! ## Residual bits -/

/-- A mantissa with its two residual bits stands for a fraction: the bits tell where it lies between
    the mantissa and the next one. -/
def Represents (em : ExtendedMantissa) (x : ℚ) : Prop :=
  match em.roundBit, em.stickyBit with
  | false, false => x = em.mantissa
  | false, true => (em.mantissa : ℚ) < x ∧ x < em.mantissa + 1 / 2
  | true, false => x = em.mantissa + 1 / 2
  | true, true => em.mantissa + 1 / 2 < x ∧ x < em.mantissa + 1

namespace Represents

variable {em : ExtendedMantissa} {x : ℚ}

theorem bounds (h : Represents em x) : (em.mantissa : ℚ) ≤ x ∧ x < em.mantissa + 1 := by
  obtain ⟨m, r, s⟩ := em
  cases r <;> cases s <;> simp only [Represents] at h <;> constructor <;> linarith

/-- Shifting by one bit halves the fraction: the last bit of the mantissa becomes the round bit, and
    what was behind it is remembered in the sticky bit. -/
theorem shiftRightOne (h : Represents em x) : Represents em.shiftRightOne (x / 2) := by
  obtain ⟨m, r, s⟩ := em
  have hsplit : ((m % 2 : ℕ) : ℚ) + 2 * (m / 2 : ℕ) = m := by exact_mod_cast Nat.mod_add_div m 2
  rcases Nat.mod_two_eq_zero_or_one m with hbit | hbit
  · rw [hbit, Nat.cast_zero] at hsplit
    cases r <;> cases s <;>
      simp only [Represents, ExtendedMantissa.shiftRightOne, hbit, Bool.or_false, Bool.or_true,
        bne_self_eq_false] at h ⊢
    · linarith
    all_goals constructor <;> linarith
  · have hone : (1 != 0) = true := rfl
    rw [hbit, Nat.cast_one] at hsplit
    cases r <;> cases s <;>
      simp only [Represents, ExtendedMantissa.shiftRightOne, hbit, Bool.or_false, Bool.or_true,
        hone] at h ⊢
    · linarith
    all_goals constructor <;> linarith

theorem shiftRight (h : Represents em x) (k : ℕ) : Represents (em >>> k) (x / 2 ^ k) := by
  show Represents (k.repeat ExtendedMantissa.shiftRightOne em) _
  induction k with
  | zero => simpa [Nat.repeat] using h
  | succ k ih =>
    rw [Nat.repeat, pow_succ, ← div_div]
    exact ih.shiftRightOne

/-- The mantissa is rounded to the nearest one. -/
theorem abs_roundedMantissa_sub_le (h : Represents em x) :
    |(em.roundedMantissa : ℚ) - x| ≤ 1 / 2 := by
  obtain ⟨m, r, s⟩ := em
  rw [abs_le]
  cases r <;> cases s <;> simp only [Represents] at h <;>
    simp only [ExtendedMantissa.roundedMantissa, ExtendedMantissa.accuracy,
      Accuracy.roundToNearestEven]
  · constructor <;> linarith
  · constructor <;> linarith
  · -- a tie goes up or down
    have hparity : ((m % 2 : ℕ) : ℚ) = 0 ∨ ((m % 2 : ℕ) : ℚ) = 1 := by
      exact_mod_cast Nat.mod_two_eq_zero_or_one m
    push_cast
    rcases hparity with hp | hp <;> rw [hp] <;> constructor <;> linarith
  · push_cast
    constructor <;> linarith

end Represents

/-! ## Rounding of decoded doubles -/

/-- A magnitude with a sign. -/
def signed : Sign → ℚ → ℚ
  | .negative, q => -q
  | .positive, q => q

theorem signed_eq (s : Sign) (m : ℕ) (e : ℤ) :
    ((s.apply m : ℤ) : ℚ) * 2 ^ e = signed s (m * 2 ^ e) := by
  cases s <;> simp [Sign.apply, signed]

theorem signed_abs_eq {s : Sign} {q : ℚ} (hq : 0 ≤ q) : |signed s q| = q := by
  cases s <;> simp [signed, abs_of_nonneg hq]

theorem Rounds.signed {v r : ℚ} (h : Rounds v r) (s : Sign) : Rounds (signed s v) (signed s r) := by
  cases s with
  | negative =>
    obtain ⟨t, ht⟩ := h
    exact ⟨t, ht.neg⟩
  | positive => exact h

/-- A decoded double has the fraction that `v` is rounded to, unless that is too great. -/
def RoundsTo (u : UnpackedFloat) (v : ℚ) : Prop :=
  ∃ r, Rounds v r ∧ (|r| < 2 ^ (1024 : ℤ) → valueOf (Float.Model.pack u).unpack = some r)

theorem Shaped.le_top {m : ℕ} {e : ℤ} (h : Shaped m e)
    (hlt : (m : ℚ) * 2 ^ e < 2 ^ (1024 : ℤ)) : e ≤ topExponent := by
  rw [topExponent]
  rcases h.full with hleast | hfull
  · omega
  · have hm : (2 : ℚ) ^ 52 ≤ m := by exact_mod_cast hfull
    have hle : (2 : ℚ) ^ (52 + e) < 2 ^ (1024 : ℤ) := by
      calc (2 : ℚ) ^ (52 + e) = 2 ^ 52 * 2 ^ e := by
            rw [zpow_add₀ (by norm_num)]
            norm_num
        _ ≤ m * 2 ^ e := by gcongr
        _ < 2 ^ (1024 : ℤ) := hlt
    have := (zpow_lt_zpow_iff_right₀ (by norm_num)).mp hle
    omega

theorem valueOf_pack_finite {m : ℕ} {e : ℤ} (h : Shaped m e) (s : Sign) (hm : 0 < m)
    (hlt : (m : ℚ) * 2 ^ e < 2 ^ (1024 : ℤ)) :
    valueOf (Float.Model.pack (.finite s m e hm)).unpack = some (signed s (m * 2 ^ e)) := by
  rw [unpack_pack_of_shaped h, if_pos (h.le_top hlt), valueOf, signed_eq]

/-- What has the shape of doubles is not rounded. -/
theorem Shaped.rounds {m : ℕ} {e : ℤ} (h : Shaped m e) : Rounds (m * 2 ^ e) (m * 2 ^ e) := by
  have hpos := two_zpow_pos e
  have habs : |(m : ℚ) * 2 ^ e| = m * 2 ^ e := abs_of_nonneg (by positivity)
  refine ⟨e, h.low, ?_, ?_, ⟨m, by push_cast; rfl⟩, ?_⟩
  · have hm : (m : ℚ) < 2 ^ 53 := by exact_mod_cast h.lt
    rw [habs, zpow_add₀ (by norm_num), mul_comm]
    exact mul_lt_mul_of_pos_left (by exact_mod_cast hm) hpos
  · refine h.full.imp_right fun hfull => ?_
    have hm : (2 : ℚ) ^ 52 ≤ m := by exact_mod_cast hfull
    rw [habs, zpow_add₀ (by norm_num), mul_comm]
    exact mul_le_mul_of_nonneg_right (by exact_mod_cast hm) hpos.le
  · rw [sub_self, abs_zero]
    exact (two_zpow_pos (e - 1)).le

theorem rounds_zero : Rounds 0 0 :=
  ⟨-1074, le_rfl, by rw [abs_zero]; exact two_zpow_pos _, .inl rfl, ⟨0, by simp⟩, by simp⟩

theorem rounds_of_shape {u : UnpackedFloat} {q : ℚ} (hu : HasShape u) (hq : valueOf u = some q) :
    Rounds q q := by
  rcases u with _ | _ | s | ⟨s, m, e, hm⟩ <;> cases hq
  · exact rounds_zero
  · rw [signed_eq]
    exact (Shaped.rounds hu).signed s

/-- Packing keeps the fraction of what has the shape of doubles. -/
theorem valueOf_pack {u : UnpackedFloat} {q : ℚ} (hu : HasShape u) (hq : valueOf u = some q)
    (hlt : |q| < 2 ^ (1024 : ℤ)) : valueOf (Float.Model.pack u).unpack = some q := by
  rcases u with _ | _ | s | ⟨s, m, e, hm⟩ <;> cases hq
  · rw [Same.unpack_pack_zero]
    rfl
  · rw [signed_eq, signed_abs_eq (mul_nonneg (Nat.cast_nonneg m) (two_zpow_pos e).le)] at hlt
    rw [signed_eq]
    exact valueOf_pack_finite hu s hm hlt

theorem roundsTo_of_shape {u : UnpackedFloat} {q : ℚ} (hu : HasShape u)
    (hq : valueOf u = some q) : RoundsTo u q :=
  ⟨q, rounds_of_shape hu hq, valueOf_pack hu hq⟩

/-! ## Shifting -/

/-- The exponent that a mantissa is shifted to. -/
def targetOf (m : ℕ) (e : ℤ) : ℤ := max (m.log2 + 1 + e - 53) (-1074)

theorem shiftToTargetExponent_eq {m : ℕ} {e : ℤ} (h : e ≤ targetOf m e) (accuracy : Accuracy) :
    shiftToTargetExponent .binary64 m e accuracy =
      (ExtendedMantissa.ofMantissaAndAccuracy m accuracy >>> (targetOf m e - e).toNat,
        targetOf m e) := by
  have hexponent : e + ((targetOf m e - e).toNat : ℤ) = targetOf m e := by omega
  show (ExtendedMantissa.ofMantissaAndAccuracy m accuracy >>> (targetOf m e - e).toNat,
    e + ((targetOf m e - e).toNat : ℤ)) = _
  rw [hexponent]

/-- What a shift to the target exponent starts from fits into the mantissa after it, and fills it
    above the least exponent. -/
theorem fits_targetOf {m : ℕ} {e : ℤ} {v : ℚ} (he : e ≤ targetOf m e) (hlow : m * 2 ^ e ≤ v)
    (hhigh : v < (m + 1) * 2 ^ e) :
    v < 2 ^ (targetOf m e + 53) ∧ (targetOf m e = -1074 ∨ 2 ^ (targetOf m e + 52) ≤ v) := by
  have hpos := two_zpow_pos e
  constructor
  · have hm : (m : ℚ) + 1 ≤ 2 ^ (m.log2 + 1) := by exact_mod_cast Nat.lt_log2_self
    calc v < (m + 1) * 2 ^ e := hhigh
      _ ≤ 2 ^ (m.log2 + 1) * 2 ^ e := mul_le_mul_of_nonneg_right hm hpos.le
      _ = 2 ^ ((m.log2 + 1 : ℕ) + e) := by rw [zpow_add₀ (by norm_num), zpow_natCast]
      _ ≤ 2 ^ (targetOf m e + 53) :=
        zpow_le_zpow_right₀ (by norm_num) (by rw [targetOf]; push_cast; omega)
  · by_cases hleast : targetOf m e = -1074
    · exact .inl hleast
    · have hm : m ≠ 0 := by
        rintro rfl
        simp only [targetOf, Nat.log2_zero, Nat.cast_zero] at he hleast
        omega
      have hbits : (2 : ℚ) ^ m.log2 ≤ m := by exact_mod_cast Nat.log2_self_le hm
      right
      calc (2 : ℚ) ^ (targetOf m e + 52) = 2 ^ ((m.log2 : ℤ) + e) := by
            congr 1
            rw [targetOf] at hleast ⊢
            omega
        _ = 2 ^ m.log2 * 2 ^ e := by rw [zpow_add₀ (by norm_num), zpow_natCast]
        _ ≤ m * 2 ^ e := mul_le_mul_of_nonneg_right hbits hpos.le
        _ ≤ v := hlow

/-- A mantissa that was rounded up to one bit more than fits is shifted by that bit; nothing is
    lost. -/
theorem shift_again {n : ℕ} {t : ℤ} (ht : -1074 ≤ t) (hn : n ≤ 2 ^ 53)
    (hfull : t = -1074 ∨ 2 ^ 52 ≤ n) :
    let shifted := shiftToTargetExponent .binary64 n t .exact
    Shaped shifted.1.mantissa shifted.2 ∧
      (shifted.1.mantissa : ℚ) * 2 ^ shifted.2 = n * 2 ^ t := by
  rcases Nat.lt_or_eq_of_le hn with hlt | rfl
  · have htarget : targetOf n t = t := by
      have hbits : n.log2 ≤ 52 := by
        rcases Nat.eq_zero_or_pos n with rfl | hpos
        · simp
        · exact Nat.lt_succ_iff.mp ((Nat.log2_lt hpos.ne').mpr hlt)
      rw [targetOf]
      rcases hfull with rfl | hfull
      · omega
      · have : n.log2 = 52 := (Nat.log2_eq_iff (by omega)).mpr ⟨hfull, hlt⟩
        omega
    rw [shiftToTargetExponent_eq htarget.ge, htarget, sub_self]
    exact ⟨⟨hlt, ht, hfull⟩, rfl⟩
  · have htarget : targetOf (2 ^ 53) t = t + 1 := by
      rw [targetOf, Nat.log2_two_pow]
      omega
    rw [shiftToTargetExponent_eq (by omega), htarget, add_sub_cancel_left]
    refine ⟨⟨show 2 ^ 52 < 2 ^ 53 by norm_num, by omega, .inr (show 2 ^ 52 ≤ 2 ^ 52 by norm_num)⟩, ?_⟩
    show ((2 ^ 52 : ℕ) : ℚ) * 2 ^ (t + 1) = (2 ^ 53 : ℕ) * 2 ^ t
    rw [zpow_add_one₀ (by norm_num)]
    push_cast
    ring

/-- A mantissa nearest to a fraction: it may have one bit more than fits, and stands for the rounded
    fraction. -/
theorem rounds_of_near {v : ℚ} {t : ℤ} {n : ℕ} (hv : 0 ≤ v) (ht : -1074 ≤ t)
    (hlt : v < 2 ^ (t + 53)) (hfull : t = -1074 ∨ 2 ^ (t + 52) ≤ v)
    (hnear : |(n : ℚ) - v / 2 ^ t| ≤ 1 / 2) :
    n ≤ 2 ^ 53 ∧ (t = -1074 ∨ 2 ^ 52 ≤ n) ∧ Rounds v (n * 2 ^ t) := by
  have hunit := two_zpow_pos t
  obtain ⟨hlow, hhigh⟩ := abs_le.mp hnear
  refine ⟨?_, hfull.imp_right fun hfull => ?_, t, ht, by rwa [abs_of_nonneg hv],
    by rwa [abs_of_nonneg hv], ⟨n, by push_cast; rfl⟩, ?_⟩
  · have hfraction : v / 2 ^ t < 2 ^ 53 := by
      rw [div_lt_iff₀ hunit]
      rw [zpow_add₀ (by norm_num), mul_comm] at hlt
      exact_mod_cast hlt
    have : (n : ℚ) < 2 ^ 53 + 1 := by linarith
    exact Nat.lt_succ_iff.mp (by exact_mod_cast this)
  · have hfraction : 2 ^ 52 ≤ v / 2 ^ t := by
      rw [le_div_iff₀ hunit]
      rw [zpow_add₀ (by norm_num), mul_comm] at hfull
      exact_mod_cast hfull
    have : (2 ^ 52 : ℚ) < n + 1 := by linarith
    exact Nat.lt_succ_iff.mp (by exact_mod_cast this)
  · calc |(n : ℚ) * 2 ^ t - v| = |(n - v / 2 ^ t) * 2 ^ t| := by
          congr 1
          field_simp
      _ = |(n : ℚ) - v / 2 ^ t| * 2 ^ t := by rw [abs_mul, abs_of_pos hunit]
      _ ≤ 1 / 2 * 2 ^ t := mul_le_mul_of_nonneg_right hnear hunit.le
      _ = 2 ^ (t - 1) := by
        rw [two_zpow_pred t]
        ring

/-- Dropping bits rounds, if there are bits to drop. -/
theorem roundWithAccuracy_roundsTo {m : ℕ} {e : ℤ} {accuracy : Accuracy} {v : ℚ}
    (h : Represents (.ofMantissaAndAccuracy m accuracy) (v / 2 ^ e)) (he : e ≤ targetOf m e)
    (s : Sign) : RoundsTo (roundWithAccuracy .binary64 s m e accuracy) (signed s v) := by
  have hpos := two_zpow_pos e
  have hmantissa : (ExtendedMantissa.ofMantissaAndAccuracy m accuracy).mantissa = m := by
    rcases accuracy with _ | (_ | _ | _) <;> rfl
  have hbounds := h.bounds
  rw [hmantissa, le_div_iff₀ hpos, div_lt_iff₀ hpos] at hbounds
  obtain ⟨hlt, hfull⟩ := fits_targetOf he hbounds.1 hbounds.2
  have hv : 0 ≤ v := le_trans (by positivity) hbounds.1
  have hshift := h.shiftRight (targetOf m e - e).toNat
  have hscale : v / 2 ^ e / 2 ^ (targetOf m e - e).toNat = v / 2 ^ targetOf m e := by
    rw [div_div, ← zpow_natCast (2 : ℚ), ← zpow_add₀ (by norm_num)]
    congr 2
    omega
  rw [hscale] at hshift
  have ht : -1074 ≤ targetOf m e := le_max_right _ _
  obtain ⟨hn, hnfull, hrounds⟩ :=
    rounds_of_near hv ht hlt hfull hshift.abs_roundedMantissa_sub_le
  obtain ⟨hshaped, hvalue⟩ := shift_again ht hn hnfull
  unfold roundWithAccuracy
  rw [shiftToTargetExponent_eq he]
  dsimp only
  rw [← hvalue] at hrounds
  refine ⟨_, hrounds.signed s, fun hsmall => ?_⟩
  rw [signed_abs_eq (mul_nonneg (Nat.cast_nonneg _) (two_zpow_pos _).le)] at hsmall
  split
  · next hzero =>
    rw [Same.unpack_pack_zero, hzero, Nat.cast_zero, zero_mul]
    cases s <;> simp [valueOf, signed]
  · exact valueOf_pack_finite hshaped s _ hsmall

/-- What stands for itself, with nothing behind it. -/
theorem roundWithAccuracy_exact {m : ℕ} {e : ℤ} (he : e ≤ targetOf m e) (s : Sign) :
    RoundsTo (roundWithAccuracy .binary64 s m e .exact) (signed s (m * 2 ^ e)) := by
  refine roundWithAccuracy_roundsTo ?_ he s
  rw [mul_div_assoc, div_self (two_zpow_pos e).ne', mul_one]
  rfl

/-- Zeros behind a mantissa change nothing in what it stands for. -/
theorem decreaseExponent_value (m : ℕ) (e t : ℤ) :
    ((decreaseExponent m e t).1 : ℚ) * 2 ^ (decreaseExponent m e t).2 = m * 2 ^ e := by
  simp only [decreaseExponent, Nat.shiftLeft_eq]
  push_cast
  rw [mul_assoc, ← zpow_natCast (2 : ℚ), ← zpow_add₀ (by norm_num), add_sub_cancel]

theorem log2_shiftLeft {m : ℕ} (hm : 0 < m) (k : ℕ) : (m <<< k).log2 = m.log2 + k := by
  rw [Nat.shiftLeft_eq, Nat.log2_eq_iff (by positivity), pow_add, Nat.add_right_comm,
    pow_add _ _ k]
  exact ⟨Nat.mul_le_mul_right _ (Nat.log2_self_le hm.ne'),
    Nat.mul_lt_mul_of_pos_right Nat.lt_log2_self (by positivity)⟩

theorem round_roundsTo {m : ℕ} (hm : 0 < m) (e : ℤ) (s : Sign) :
    RoundsTo (UnpackedFloat.round .binary64 s m e) (signed s (m * 2 ^ e)) := by
  show RoundsTo (roundWithAccuracy .binary64 s (decreaseExponent m e (targetOf m e)).1
    (decreaseExponent m e (targetOf m e)).2 .exact) _
  rw [← decreaseExponent_value m e (targetOf m e)]
  refine roundWithAccuracy_exact ?_ s
  -- the shift leaves the number of bits before the point as it is
  simp only [decreaseExponent, targetOf, log2_shiftLeft hm]
  omega

theorem normalize_roundsTo (m e : ℤ) (zeroSign : Sign) :
    RoundsTo (UnpackedFloat.normalize .binary64 m e zeroSign) (m * 2 ^ e) := by
  unfold UnpackedFloat.normalize
  rcases lt_trichotomy m 0 with hlt | rfl | hgt
  · obtain ⟨k, rfl⟩ : ∃ k : ℕ, m = -k := ⟨(-m).toNat, by omega⟩
    rw [Int.compare_eq_lt.mpr hlt, neg_neg, Int.toNat_natCast]
    have hround := round_roundsTo (show 0 < k by omega) e .negative
    rw [signed] at hround
    push_cast
    rwa [neg_mul]
  · rw [compare_eq_iff_eq.mpr rfl, Int.cast_zero, zero_mul]
    exact roundsTo_of_shape trivial rfl
  · obtain ⟨k, rfl⟩ : ∃ k : ℕ, m = k := ⟨m.toNat, by omega⟩
    rw [Int.compare_eq_gt.mpr hgt, Int.toNat_natCast]
    exact round_roundsTo (show 0 < k by omega) e .positive

end LatencyPlot.Number
