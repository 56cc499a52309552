/-
  LatencyPlot.Proofs.Number.Operations

  The operations on doubles compute with fractions and round the result: sums,
  differences, products, quotients, and conversions from natural numbers and
  decimals (`Computes`).
-/
import LatencyPlot.Proofs.Number.Rounded

namespace LatencyPlot.Number

open Float.Model (UnpackedFloat Format totalExponent)
open Float.Model.UnpackedFloat (Sign ExtendedMantissa roundWithAccuracy decreaseExponent divCore
  accuracyOfFraction)

/-! ## Decoded doubles -/

variable {u v : UnpackedFloat} {p q : ℚ}

theorem signed_mul (s s' : Sign) (p q : ℚ) : signed (s * s') (p * q) = signed s p * signed s' q := by
  cases s <;> cases s'
  · exact (neg_mul_neg p q).symm
  · exact (neg_mul p q).symm
  · exact (mul_neg p q).symm
  · rfl

theorem valueOf_finite (s : Sign) (m : ℕ) (e : ℤ) (hm : 0 < m) :
    valueOf (.finite s m e hm) = some (signed s (m * 2 ^ e)) := by
  rw [valueOf, signed_eq]

/-- Both summands as multiples of the lesser power of two. -/
theorem decreaseExponent_add (s s' : Sign) (m m' : ℕ) (e e' : ℤ) :
    ((s.apply (decreaseExponent m e (min e e')).1 +
      s'.apply (decreaseExponent m' e' (min e e')).1 : ℤ) : ℚ) * 2 ^ min e e' =
      signed s (m * 2 ^ e) + signed s' (m' * 2 ^ e') := by
  have hexponent (m : ℕ) {e t : ℤ} (h : t ≤ e) :
      ((decreaseExponent m e t).1 : ℚ) * 2 ^ t = m * 2 ^ e := by
    rw [← decreaseExponent_value m e t]
    congr 2
    simp only [decreaseExponent]
    omega
  rw [Int.cast_add, add_mul, signed_eq, signed_eq, hexponent m (min_le_left e e'),
    hexponent m' (min_le_right e e')]

theorem add_roundsTo (hu : HasShape u) (hv : HasShape v) (hp : valueOf u = some p)
    (hq : valueOf v = some q) : RoundsTo (.add .binary64 u v) (p + q) := by
  rcases u with _ | _ | s | ⟨s, m, e, hm⟩ <;> rcases v with _ | _ | s' | ⟨s', m', e', hm'⟩ <;>
    cases hp <;> cases hq
  · refine roundsTo_of_shape ?_ ?_ <;> simp only [UnpackedFloat.add] <;> split <;>
      first | trivial | simp [valueOf]
  · rw [zero_add]
    exact roundsTo_of_shape hv rfl
  · rw [add_zero]
    exact roundsTo_of_shape hu rfl
  · rw [signed_eq, signed_eq, ← decreaseExponent_add]
    exact normalize_roundsTo _ _ _

theorem neg_neg_sign (s : Sign) (q : ℚ) : signed (-s) q = -signed s q := by
  cases s
  · exact (neg_neg q).symm
  · rfl

theorem hasShape_neg (h : HasShape v) : HasShape v.neg := by
  cases v <;> exact h

theorem valueOf_neg (h : valueOf v = some q) : valueOf v.neg = some (-q) := by
  rcases v with _ | _ | s | ⟨s, m, e, hm⟩ <;> cases h
  · rw [neg_zero]
    rfl
  · rw [UnpackedFloat.neg, valueOf_finite, neg_neg_sign, signed_eq]

theorem hasShape_abs (h : HasShape v) : HasShape v.abs := by
  cases v <;> exact h

theorem valueOf_abs (h : valueOf v = some q) : valueOf v.abs = some |q| := by
  rcases v with _ | _ | s | ⟨s, m, e, hm⟩ <;> cases h
  · rw [abs_zero]
    rfl
  · rw [UnpackedFloat.abs, valueOf_finite, signed_eq]
    cases s <;> simp [signed, abs_mul, abs_of_pos (two_zpow_pos e)]

/-- A difference is the sum with what is taken away, with the other sign. -/
theorem sub_eq_add (u v : UnpackedFloat) :
    UnpackedFloat.sub .binary64 u v = .add .binary64 u v.neg := by
  have happly (s : Sign) (n : ℤ) : (-s).apply n = -s.apply n := by
    cases s
    · exact (neg_neg n).symm
    · rfl
  rcases u with _ | _ | s | ⟨s, m, e, hm⟩ <;> rcases v with _ | _ | s' | ⟨s', m', e', hm'⟩ <;>
    try rfl
  simp only [UnpackedFloat.sub, UnpackedFloat.neg, UnpackedFloat.add, happly, sub_eq_add_neg]

theorem sub_roundsTo (hu : HasShape u) (hv : HasShape v) (hp : valueOf u = some p)
    (hq : valueOf v = some q) : RoundsTo (.sub .binary64 u v) (p - q) := by
  rw [sub_eq_add, sub_eq_add_neg]
  exact add_roundsTo hu (hasShape_neg hv) hp (valueOf_neg hq)

theorem targetOf_of_bits {m : ℕ} {e : ℤ} (h : e ≤ -1074 ∨ 2 ^ 52 ≤ m) : e ≤ targetOf m e := by
  rw [targetOf]
  rcases h with hleast | hfull
  · omega
  · have hbits : 52 ≤ m.log2 := (Nat.le_log2 (by omega)).mpr hfull
    omega

/-- A product of mantissas has bits enough, or is one of two least ones. -/
theorem mul_finite_roundsTo {m m' : ℕ} {e e' : ℤ} (h : e + e' ≤ -1074 ∨ 2 ^ 52 ≤ m * m')
    (s s' : Sign) (hm : 0 < m) (hm' : 0 < m') :
    RoundsTo (.mul .binary64 (.finite s m e hm) (.finite s' m' e' hm'))
      (signed s (m * 2 ^ e) * signed s' (m' * 2 ^ e')) := by
  have hround := roundWithAccuracy_exact (targetOf_of_bits h) (s * s')
  have hvalue : (m * 2 ^ e) * (m' * 2 ^ e') = ((m * m' : ℕ) : ℚ) * 2 ^ (e + e') := by
    rw [zpow_add₀ (by norm_num)]
    push_cast
    ring
  rwa [← signed_mul, hvalue]

theorem mul_roundsTo (hu : HasShape u) (hv : HasShape v) (hp : valueOf u = some p)
    (hq : valueOf v = some q) : RoundsTo (.mul .binary64 u v) (p * q) := by
  rcases u with _ | _ | s | ⟨s, m, e, hm⟩ <;> rcases v with _ | _ | s' | ⟨s', m', e', hm'⟩ <;>
    cases hp <;> cases hq
  · exact roundsTo_of_shape trivial (by rw [zero_mul]; rfl)
  · exact roundsTo_of_shape trivial (by rw [zero_mul]; rfl)
  · exact roundsTo_of_shape trivial (by rw [mul_zero]; rfl)
  · rw [signed_eq, signed_eq]
    refine mul_finite_roundsTo ?_ s s' hm hm'
    -- if neither mantissa is full both exponents are the least one
    rcases Shaped.full hu with rfl | hfull
    · rcases Shaped.full hv with rfl | hfull'
      · left; norm_num
      · exact .inr (hfull'.trans (Nat.le_mul_of_pos_left _ hm))
    · exact .inr (hfull.trans (Nat.le_mul_of_pos_right _ hm'))

/-- A quotient of natural numbers and what its remainder tells. -/
theorem represents_quotient (a : ℕ) {b : ℕ} (hb : 0 < b) :
    Represents (.ofMantissaAndAccuracy (a / b) (accuracyOfFraction (a % b) b)) (a / b : ℚ) := by
  have hpos : (0 : ℚ) < b := by exact_mod_cast hb
  have hsplit : (a : ℚ) / b = (a / b : ℕ) + (a % b : ℕ) / b := by
    rw [eq_comm, ← mul_left_inj' hpos.ne', add_mul, div_mul_cancel₀ _ hpos.ne',
      div_mul_cancel₀ _ hpos.ne']
    exact_mod_cast Nat.div_add_mod' a b
  have hlt : ((a % b : ℕ) : ℚ) / b < 1 := by
    rw [div_lt_one hpos]
    exact_mod_cast Nat.mod_lt a hb
  rw [hsplit]
  generalize a / b = n, a % b = rest at hlt
  rw [accuracyOfFraction]
  split
  · next hzero =>
    rw [hzero]
    simp [Represents, ExtendedMantissa.ofMantissaAndAccuracy]
  · next hrest =>
    have hrest : (0 : ℚ) < rest / b := by
      have : (0 : ℚ) < rest := by exact_mod_cast Nat.pos_of_ne_zero hrest
      positivity
    rcases lt_trichotomy (2 * rest) b with hhalf | hhalf | hhalf
    · rw [compare_lt_iff_lt.mpr hhalf]
      have : (rest : ℚ) / b < 1 / 2 := by
        rw [div_lt_div_iff₀ hpos two_pos]
        exact_mod_cast (by omega : rest * 2 < 1 * b)
      show (n : ℚ) < n + rest / b ∧ (n : ℚ) + rest / b < n + 1 / 2
      exact ⟨by linarith, by linarith⟩
    · rw [compare_eq_iff_eq.mpr hhalf]
      have : (rest : ℚ) / b = 1 / 2 := by
        rw [div_eq_div_iff hpos.ne' two_ne_zero]
        exact_mod_cast (by omega : rest * 2 = 1 * b)
      rw [this]
      rfl
    · rw [compare_gt_iff_gt.mpr hhalf]
      have : 1 / 2 < (rest : ℚ) / b := by
        rw [div_lt_div_iff₀ two_pos hpos]
        exact_mod_cast (by omega : 1 * b < rest * 2)
      show (n : ℚ) + 1 / 2 < n + rest / b ∧ (n : ℚ) + rest / b < n + 1
      exact ⟨by linarith, by linarith⟩

theorem signed_div (s s' : Sign) (p q : ℚ) : signed (s / s') (p / q) = signed s p / signed s' q := by
  cases s <;> cases s'
  · exact (neg_div_neg_eq p q).symm
  · exact (neg_div q p).symm
  · exact (div_neg p).symm
  · rfl

/-- The dividend is shifted by so much that the quotient has bits enough, unless it gets to the
    least exponent. -/
theorem div_finite_roundsTo (s s' : Sign) {m m' : ℕ} (e e' : ℤ) (hm : 0 < m) (hm' : 0 < m') :
    RoundsTo (.div .binary64 (.finite s m e hm) (.finite s' m' e' hm'))
      (signed s (m * 2 ^ e) / signed s' (m' * 2 ^ e')) := by
  have hdiv : m' ≠ 0 := hm'.ne'
  set t : ℤ := min (e - e') (Format.binary64.targetExponent (totalExponent m e - totalExponent m' e'))
    with ht
  have htarget : t = min (e - e') (max (m.log2 + 1 + e - (m'.log2 + 1 + e') - 53) (-1074)) := ht
  set a : ℕ := m <<< (e - e' - t).toNat with ha
  have hbits : t ≤ -1074 ∨ 2 ^ 52 ≤ a / m' := by
    rw [or_iff_not_imp_left]
    intro hleast
    have hshift : m'.log2 + 53 ≤ m.log2 + (e - e' - t).toNat := by omega
    rw [Nat.le_div_iff_mul_le hm', ha, Nat.shiftLeft_eq]
    calc 2 ^ 52 * m' ≤ 2 ^ 52 * 2 ^ (m'.log2 + 1) := Nat.mul_le_mul_left _ Nat.lt_log2_self.le
      _ = 2 ^ (m'.log2 + 53) := by rw [← pow_add]; congr 1; omega
      _ ≤ 2 ^ (m.log2 + (e - e' - t).toNat) := Nat.pow_le_pow_right two_pos hshift
      _ = 2 ^ m.log2 * 2 ^ (e - e' - t).toNat := pow_add ..
      _ ≤ m * 2 ^ (e - e' - t).toNat := Nat.mul_le_mul_right _ (Nat.log2_self_le hm.ne')
  have hvalue : m * 2 ^ e / (m' * 2 ^ e') / 2 ^ t = (a : ℚ) / m' := by
    have hpower : (2 : ℚ) ^ e = 2 ^ (e - e' - t).toNat * 2 ^ e' * 2 ^ t := by
      rw [← zpow_natCast (2 : ℚ), ← zpow_add₀ (by norm_num), ← zpow_add₀ (by norm_num)]
      congr 1
      omega
    rw [ha, Nat.shiftLeft_eq, hpower]
    push_cast
    have := two_zpow_pos e'
    have := two_zpow_pos t
    field_simp
  have hrep := represents_quotient a hm'
  rw [← hvalue] at hrep
  rw [← signed_div]
  exact roundWithAccuracy_roundsTo hrep (targetOf_of_bits hbits) (s / s')

theorem div_roundsTo (hu : HasShape u) (hv : HasShape v) (hp : valueOf u = some p)
    (hq : valueOf v = some q) (hne : q ≠ 0) : RoundsTo (.div .binary64 u v) (p / q) := by
  rcases u with _ | _ | s | ⟨s, m, e, hm⟩ <;> rcases v with _ | _ | s' | ⟨s', m', e', hm'⟩ <;>
    cases hp <;> cases hq
  · exact absurd rfl hne
  · exact roundsTo_of_shape trivial (by rw [zero_div]; rfl)
  · exact absurd rfl hne
  · rw [signed_eq, signed_eq]
    exact div_finite_roundsTo s s' e e' hm hm'

/-! ## Doubles -/

/-- A double is the rounding of a fraction, unless that is too great for doubles. -/
def Computes (x : Float) (v : ℚ) : Prop :=
  ∃ r, Rounds v r ∧ (|r| < 2 ^ (1024 : ℤ) → Denotes x r)

theorem RoundsTo.computes {x : Float} (h : RoundsTo u p)
    (hx : x.toModel.unpack = (Float.Model.pack u).unpack) : Computes x p := by
  obtain ⟨r, hr, hvalue⟩ := h
  exact ⟨r, hr, fun hlt => denotes_iff.mpr (hx ▸ hvalue hlt)⟩

namespace Computes

variable {x : Float} {v : ℚ}

theorem denotes (h : Computes x v) (hv : |v| < 2 ^ (1024 : ℤ) - 2 ^ (970 : ℤ)) :
    ∃ r, Rounds v r ∧ Denotes x r := by
  obtain ⟨r, ⟨t, ht⟩, hx⟩ := h
  exact ⟨r, ⟨t, ht⟩, hx (ht.lt_of_lt hv)⟩

theorem denotes_of_exact (h : Computes x v) {n s : ℤ} (hv : v = n * 2 ^ s) (hn : |n| < 2 ^ 53)
    (hs : -1074 ≤ s) (hlt : |v| < 2 ^ (1024 : ℤ)) : Denotes x v := by
  obtain ⟨r, ⟨t, ht⟩, hx⟩ := h
  have hr := ht.eq_of_exact hv hn hs
  rw [hr] at hx
  exact hx hlt

/-- Small whole numbers are computed as they are. -/
theorem denotes_of_whole (h : Computes x v) {n : ℤ} (hv : v = n) (hn : |n| < 2 ^ 53) :
    Denotes x v := by
  refine h.denotes_of_exact (s := 0) (by rw [hv, zpow_zero, mul_one]) hn (by norm_num) ?_
  have hcast : |(n : ℚ)| < 2 ^ 53 := by exact_mod_cast hn
  rw [hv]
  refine hcast.trans_le ?_
  rw [← zpow_natCast]
  exact zpow_le_zpow_right₀ (by norm_num) (by norm_num)

end Computes

namespace Denotes

variable {x y : Float}

/-- The greatest double is a spacing of doubles below `2 ^ 1024`. -/
theorem magnitude_le (hx : Denotes x p) : |p| ≤ 2 ^ (1024 : ℤ) - 2 ^ (971 : ℤ) := by
  have htop : (2 : ℚ) ^ (1024 : ℤ) = 2 ^ 53 * 2 ^ (971 : ℤ) := by
    rw [← zpow_natCast, ← zpow_add₀ (by norm_num)]
    rfl
  rw [denotes_iff] at hx
  cases h : x.toModel.unpack with
  | notANumber | infinity => rw [h] at hx; cases hx
  | zero =>
    rw [h] at hx
    cases hx
    rw [abs_zero, sub_nonneg]
    exact zpow_le_zpow_right₀ (by norm_num) (by norm_num)
  | finite s m e hm =>
    obtain ⟨hshaped, he⟩ := shaped_of_unpack h
    rw [h, valueOf_finite] at hx
    rw [← Option.some.inj hx, signed_abs_eq (mul_nonneg (Nat.cast_nonneg m) (two_zpow_pos e).le),
      htop]
    have hm : (m : ℚ) ≤ 2 ^ 53 - 1 := by
      have : m + 1 ≤ 2 ^ 53 := hshaped.lt
      have : (m : ℚ) + 1 ≤ 2 ^ 53 := by exact_mod_cast this
      linarith
    calc (m : ℚ) * 2 ^ e ≤ (2 ^ 53 - 1) * 2 ^ e := mul_le_mul_of_nonneg_right hm (two_zpow_pos e).le
      _ ≤ (2 ^ 53 - 1) * 2 ^ (971 : ℤ) :=
        mul_le_mul_of_nonneg_left (zpow_le_zpow_right₀ (by norm_num) he) (by norm_num)
      _ = 2 ^ 53 * 2 ^ (971 : ℤ) - 2 ^ (971 : ℤ) := by ring

theorem magnitude_lt (hx : Denotes x p) : |p| < 2 ^ (1024 : ℤ) :=
  hx.magnitude_le.trans_lt (sub_lt_self _ (two_zpow_pos 971))

theorem neg (hx : Denotes x p) : Denotes (-x) (-p) := by
  rw [denotes_iff] at hx ⊢
  refine valueOf_pack (hasShape_neg (hasShape_unpack x)) (valueOf_neg hx) ?_
  rw [abs_neg]
  exact magnitude_lt (denotes_iff.mpr hx)

theorem abs (hx : Denotes x p) : Denotes x.abs |p| := by
  rw [denotes_iff] at hx ⊢
  refine valueOf_pack (hasShape_abs (hasShape_unpack x)) (valueOf_abs hx) ?_
  rw [abs_abs]
  exact magnitude_lt (denotes_iff.mpr hx)

theorem add (hx : Denotes x p) (hy : Denotes y q) : Computes (x + y) (p + q) :=
  (add_roundsTo (hasShape_unpack x) (hasShape_unpack y) (denotes_iff.mp hx)
    (denotes_iff.mp hy)).computes rfl

theorem sub (hx : Denotes x p) (hy : Denotes y q) : Computes (x - y) (p - q) :=
  (sub_roundsTo (hasShape_unpack x) (hasShape_unpack y) (denotes_iff.mp hx)
    (denotes_iff.mp hy)).computes rfl

theorem mul (hx : Denotes x p) (hy : Denotes y q) : Computes (x * y) (p * q) :=
  (mul_roundsTo (hasShape_unpack x) (hasShape_unpack y) (denotes_iff.mp hx)
    (denotes_iff.mp hy)).computes rfl

theorem div (hx : Denotes x p) (hy : Denotes y q) (hne : q ≠ 0) : Computes (x / y) (p / q) :=
  (div_roundsTo (hasShape_unpack x) (hasShape_unpack y) (denotes_iff.mp hx)
    (denotes_iff.mp hy) hne).computes rfl

end Denotes

/-! ## Conversions -/

theorem computes_toFloat (n : ℕ) (hn : n < 2 ^ 64) : Computes n.toUInt64.toFloat n := by
  have hround := (normalize_roundsTo n.toUInt64.toNat 0 .positive).computes
    (x := n.toUInt64.toFloat) rfl
  have hcast : n.toUInt64.toNat = n := UInt64.toNat_ofNat_of_lt hn
  rwa [hcast, zpow_zero, mul_one, Int.cast_natCast] at hround

theorem denotes_toFloat {n : ℕ} (hn : n < 2 ^ 53) : Denotes n.toUInt64.toFloat n :=
  (computes_toFloat n (by omega)).denotes_of_whole (n := n) (by push_cast; rfl)
    (by rw [Nat.abs_cast]; exact_mod_cast hn)

/-- The powers of ten that decimals of few digits are computed with. -/
theorem denotes_powersOfTen : ∀ k : Fin 23,
    Denotes (Float.exactlyRepresentablePowersOfTen[k]) (10 ^ k.1) := by
  unfold Denotes
  decide +kernel

/-- Digits before a power of ten of at most `2 ^ 11`, in the general way. -/
theorem ofScientific_roundsTo (m : ℕ) {k : ℕ} (hk : k ≤ 2048) :
    RoundsTo (.ofScientific .binary64 m (k : ℤ)) (m * 10 ^ k) ∧
      RoundsTo (.ofScientific .binary64 m (-(k : ℤ))) (m / 10 ^ k) := by
  have hbits : (2 : ℤ) ^ Format.binary64.exponentBits = 2048 := rfl
  by_cases hm : m = 0
  · subst hm
    simp only [UnpackedFloat.ofScientific, dif_pos, Nat.cast_zero, zero_mul, zero_div]
    exact ⟨roundsTo_of_shape trivial rfl, roundsTo_of_shape trivial rfl⟩
  · have hpos := Nat.pos_of_ne_zero hm
    have hup : RoundsTo (.ofScientific .binary64 m (k : ℤ)) (m * 10 ^ k) := by
      unfold UnpackedFloat.ofScientific
      rw [dif_neg hm, hbits, if_neg (by omega), if_neg (by omega), if_pos (by omega)]
      have hfull : 2 ^ 52 ≤ m <<< 53 * 10 ^ k := by
        rw [Nat.shiftLeft_eq]
        calc 2 ^ 52 ≤ 1 * 2 ^ 53 * 1 := by norm_num
          _ ≤ m * 2 ^ 53 * 10 ^ k :=
            Nat.mul_le_mul (Nat.mul_le_mul_right _ hpos) (Nat.one_le_pow _ _ (by norm_num))
      have hround := mul_finite_roundsTo
        (show (-53 : ℤ) + 0 ≤ -1074 ∨ 2 ^ 52 ≤ m <<< 53 * 10 ^ k from .inr hfull) .positive .positive
        (show 0 < m <<< 53 by rw [Nat.shiftLeft_eq]; positivity)
        (show 0 < 10 ^ k by positivity)
      have hvalue : signed .positive (((m <<< 53 : ℕ) : ℚ) * 2 ^ (-53 : ℤ)) *
          signed .positive (((10 ^ k : ℕ) : ℚ) * 2 ^ (0 : ℤ)) = m * 10 ^ k := by
        rw [signed, signed, Nat.shiftLeft_eq, zpow_zero, mul_one]
        push_cast
        rw [mul_assoc (m : ℚ)]
        norm_num
      rwa [hvalue] at hround
    refine ⟨hup, ?_⟩
    rcases Nat.eq_zero_or_pos k with rfl | hk0
    · simpa using hup
    · unfold UnpackedFloat.ofScientific
      rw [dif_neg hm, hbits, if_neg (by omega), if_neg (by omega), if_neg (by omega)]
      simp only [neg_neg, Int.toNat_natCast]
      have hround := div_finite_roundsTo .positive .positive 0 0 hpos
        (show 0 < 10 ^ k by positivity)
      simpa [signed] using hround

/-- A decimal is computed by one product or quotient of exact numbers. -/
theorem computes_ofScientific (m : ℕ) {k : ℕ} (hk : k ≤ 2048) :
    Computes (Float.ofScientific m false k) (m * 10 ^ k) ∧
      Computes (Float.ofScientific m true k) (m / 10 ^ k) := by
  by_cases hfast : m < 2 ^ 53 ∧ k ≤ 22
  · have hpower := denotes_powersOfTen ⟨k, by omega⟩
    have hm := denotes_toFloat hfast.1
    simp only [Float.ofScientific, dif_pos hfast, Bool.false_eq_true, if_false, if_true]
    exact ⟨hm.mul hpower, hm.div hpower (by positivity)⟩
  · obtain ⟨hup, hdown⟩ := ofScientific_roundsTo m hk
    simp only [Float.ofScientific, dif_neg hfast, Bool.false_eq_true, if_false, if_true]
    exact ⟨hup.computes rfl, hdown.computes (by rw [Int.negOfNat_eq]; rfl)⟩

theorem computes_ofNat (n : ℕ) : Computes (Float.ofNat n) n := by
  have hzero := (computes_ofScientific n (show 0 ≤ 2048 by omega)).1
  rwa [pow_zero, mul_one] at hzero

theorem denotes_ofNat {n : ℕ} (hn : n < 2 ^ 53) : Denotes (Float.ofNat n) n :=
  (computes_ofNat n).denotes_of_whole (n := n) (by push_cast; rfl)
    (by rw [Nat.abs_cast]; exact_mod_cast hn)

end LatencyPlot.Number
