/-
  LatencyPlot.Proofs.Number.TotalOrder

  The total order of IEEE 754 on doubles (`Binary.Below`), and that the ranks of
  doubles are in it. A decoded number stands at a place on the line of numbers,
  counted in doubles from zero (`place`); the bits behind the sign bit are that
  count, and beyond infinity they tell apart what is not a number.
-/
import LatencyPlot.Number.Binary
import LatencyPlot.Proofs.Number.Value

namespace LatencyPlot.Number

open Float.Model (UnpackedFloat Format)
open Float.Model.UnpackedFloat (Sign)

/-! ## Places -/

/-- How many doubles a finite one is away from zero. -/
def offset (m : ℕ) (e : ℤ) : ℤ := (e + 1074) * 2 ^ 52 + m

/-- How many doubles infinity is away from zero. -/
def lastOffset : ℤ := 2047 * 2 ^ 52

/-- The place of a decoded double on the line of numbers, counted in doubles from zero. -/
def place : UnpackedFloat → ℤ
  | .notANumber => 0
  | .zero _ => 0
  | .finite s m e _ => s.apply (offset m e)
  | .infinity s => s.apply lastOffset

/-- What bits decode to: a finite double has the shape of one and no greater exponent. -/
def IsDecoded : UnpackedFloat → Prop
  | .finite _ m e _ => Shaped m e ∧ e ≤ topExponent
  | _ => True

variable {m m' : ℕ} {e e' : ℤ}

/-- A finite double stands strictly between zero and infinity. -/
theorem IsDecoded.offset_bounds {s : Sign} {hm : 0 < m} (h : IsDecoded (.finite s m e hm)) :
    0 < offset m e ∧ offset m e < lastOffset := by
  obtain ⟨⟨hlt, hlow, -⟩, htop⟩ := h
  rw [topExponent] at htop
  rw [offset, lastOffset]
  omega

/-- Shapes compare by their offsets: below a full mantissa there is only the least exponent. -/
theorem Shaped.compare_eq_lt_iff (h : Shaped m e) (h' : Shaped m' e') :
    (compare e e').then (compare m m') = .lt ↔ offset m e < offset m' e' := by
  rw [Ordering.then_eq_lt, compare_lt_iff_lt, compare_eq_iff_eq, compare_lt_iff_lt, offset, offset]
  obtain ⟨hlt, hlow, hfull⟩ := h
  obtain ⟨hlt', hlow', hfull'⟩ := h'
  omega

theorem Shaped.compare_eq_gt_iff (h : Shaped m e) (h' : Shaped m' e') :
    (compare e e').then (compare m m') = .gt ↔ offset m' e' < offset m e := by
  rw [← h'.compare_eq_lt_iff h, ← Ordering.swap_eq_lt, Ordering.swap_then,
    ← Std.OrientedOrd.eq_swap, ← Std.OrientedOrd.eq_swap]

/-- Numbers compare by their places, and what is not a number to nothing. -/
theorem lt_iff_place {u v : UnpackedFloat} (hu : IsDecoded u) (hv : IsDecoded v) :
    u.lt v = true ↔ u.isNaN = false ∧ v.isNaN = false ∧ place u < place v := by
  have hlast : 0 < lastOffset := by decide
  -- the kinds of the two decide, and of two finite ones on one side of zero their shapes
  rcases u with (_ | _) | _ | _ | ⟨_ | _, m, e, hm⟩ <;>
    rcases v with (_ | _) | _ | _ | ⟨_ | _, m', e', hm'⟩ <;>
    simp +decide [UnpackedFloat.lt, UnpackedFloat.compare, UnpackedFloat.isNaN, place,
      Sign.apply] <;>
    grind [→ IsDecoded.offset_bounds, IsDecoded, Shaped.compare_eq_lt_iff, Shaped.compare_eq_gt_iff]

/-! ## Bits -/

namespace Binary

/-- Whether the sign bit is set. -/
def isNegative (b : Binary) : Prop := 2 ^ 63 ≤ b.bits.toNat

/-- The bits behind the sign bit, as a number. -/
def magnitude (b : Binary) : ℕ := b.bits.toNat % 2 ^ 63

instance (b : Binary) : Decidable b.isNegative := inferInstanceAs (Decidable (_ ≤ _))

/-- The exponent and the fraction of a double. -/
def exponent (b : Binary) : ℕ := b.bits.toNat / 2 ^ 52 % 2 ^ 11

def fraction (b : Binary) : ℕ := b.bits.toNat % 2 ^ 52

theorem toNat_unpackExponent (b : Binary) :
    (@UnpackedFloat.unpackExponent .binary64 b.bits.toBitVec).toNat = b.exponent := by
  simp [UnpackedFloat.unpackExponent, Nat.shiftRight_eq_div_pow, exponent]

theorem toNat_unpackMantissa (b : Binary) :
    (@UnpackedFloat.unpackMantissa .binary64 b.bits.toBitVec).toNat = b.fraction := by
  simp [UnpackedFloat.unpackMantissa, fraction]

theorem magnitude_eq (b : Binary) : b.magnitude = b.exponent * 2 ^ 52 + b.fraction := by
  rw [magnitude, exponent, fraction]
  omega

/-- The sign that the sign bit stands for. -/
def sign (b : Binary) : Sign := if b.isNegative then .negative else .positive

theorem ofBitVec_unpackSign (b : Binary) :
    Sign.ofBitVec (@UnpackedFloat.unpackSign .binary64 b.bits.toBitVec) = b.sign := by
  have hsign : (@UnpackedFloat.unpackSign .binary64 b.bits.toBitVec).toNat =
      b.bits.toNat / 2 ^ 63 := by
    have hlt := b.bits.toNat_lt
    simp [UnpackedFloat.unpackSign, Nat.shiftRight_eq_div_pow]
    omega
  have hzero : @UnpackedFloat.unpackSign .binary64 b.bits.toBitVec = 0#1 ↔ ¬ b.isNegative := by
    rw [← BitVec.toNat_inj, hsign, isNegative, BitVec.toNat_zero]
    omega
  rw [Sign.ofBitVec, sign]
  by_cases hneg : b.isNegative
  · rw [if_neg (fun h => hzero.mp h hneg), if_pos hneg]
  · rw [if_pos (hzero.mpr hneg), if_neg hneg]

/-- What the bits decode to. -/
def decoded (b : Binary) : UnpackedFloat := UnpackedFloat.unpack .binary64 b.bits.toBitVec

theorem exponent_lt (b : Binary) : b.exponent < 2048 := Nat.mod_lt _ (by positivity)

theorem fraction_lt (b : Binary) : b.fraction < 2 ^ 52 := Nat.mod_lt _ (by positivity)

/-- The exponent and the fraction of a double tell what it decodes to. -/
theorem decoded_cases (b : Binary) :
    (b.exponent = 2047 ∧ b.fraction = 0 ∧ b.decoded = .infinity b.sign) ∨
    (b.exponent = 2047 ∧ 0 < b.fraction ∧ b.decoded = .notANumber) ∨
    (b.exponent = 0 ∧ b.fraction = 0 ∧ b.decoded = .zero b.sign) ∨
    (b.exponent = 0 ∧ ∃ h : 0 < b.fraction, b.decoded = .finite b.sign b.fraction (-1074) h) ∨
    (0 < b.exponent ∧ b.exponent < 2047 ∧ ∃ h : 0 < 2 ^ 52 + b.fraction,
      b.decoded = .finite b.sign (2 ^ 52 + b.fraction) (b.exponent - 1075) h) := by
  have hexponent (k : BitVec 11) :
      @UnpackedFloat.unpackExponent .binary64 b.bits.toBitVec = k ↔ b.exponent = k.toNat := by
    rw [← toNat_unpackExponent, BitVec.toNat_inj]
  have hfraction (k : BitVec 52) :
      @UnpackedFloat.unpackMantissa .binary64 b.bits.toBitVec = k ↔ b.fraction = k.toNat := by
    rw [← toNat_unpackMantissa, BitVec.toNat_inj]
  have hbias : (b.exponent : ℤ) - ((Format.binary64.exponentBias : ℤ) + (52 : ℕ)) =
      b.exponent - 1075 := rfl
  have hlt := b.exponent_lt
  have hlast : (-1#11).toNat = 2047 := rfl
  rw [decoded]
  unfold UnpackedFloat.unpack
  dsimp only
  -- the tests on the fields are tests on the numbers that they are
  simp only [hexponent, hfraction, toNat_unpackMantissa, toNat_unpackExponent,
    ofBitVec_unpackSign, toNat_leading, hbias, hlast, BitVec.toNat_zero]
  split
  · next he =>
    split
    · next hf => exact .inl ⟨he, hf, rfl⟩
    · next hf => exact .inr (.inl ⟨he, Nat.pos_of_ne_zero hf, rfl⟩)
  split
  · next he =>
    split
    · next hf => exact .inr (.inr (.inl ⟨he, hf, rfl⟩))
    · next hf =>
      refine .inr (.inr (.inr (.inl ⟨he, Nat.pos_of_ne_zero hf, ?_⟩)))
      rw [he]
      rfl
  · exact .inr (.inr (.inr (.inr ⟨by omega, by omega, by omega, rfl⟩)))

/-- The bits of a double decode to its shape. -/
theorem isDecoded_decoded (b : Binary) : IsDecoded b.decoded := by
  have hf := b.fraction_lt
  rcases b.decoded_cases with ⟨-, -, h⟩ | ⟨-, -, h⟩ | ⟨-, -, h⟩ | ⟨-, hpos, h⟩ |
    ⟨hleast, he, _, h⟩ <;> rw [h]
  · trivial
  · trivial
  · trivial
  · exact ⟨⟨by omega, le_rfl, .inl rfl⟩, by decide⟩
  · -- the implicit bit makes the mantissa of a normal double a full one
    refine ⟨⟨by omega, by omega, .inr (by omega)⟩, ?_⟩
    rw [topExponent]
    omega

/-- What is not a number lies beyond infinity. -/
theorem isNaN_decoded (b : Binary) : b.decoded.isNaN = decide (lastOffset < b.magnitude) := by
  have hf := b.fraction_lt
  have hmagnitude := b.magnitude_eq
  rw [eq_comm, lastOffset]
  rcases b.decoded_cases with ⟨he, hf, h⟩ | ⟨he, hf, h⟩ | ⟨he, hf, h⟩ | ⟨he, hpos, h⟩ |
    ⟨hpos, he, _, h⟩ <;> rw [h]
  · exact decide_eq_false (by omega)
  · exact decide_eq_true (by omega)
  · exact decide_eq_false (by omega)
  · exact decide_eq_false (by omega)
  · exact decide_eq_false (by omega)

/-- The place of a number is its magnitude, on its side of zero. -/
theorem place_decoded (b : Binary) (h : b.decoded.isNaN = false) :
    place b.decoded = b.sign.apply b.magnitude := by
  have hmagnitude := b.magnitude_eq
  rcases b.decoded_cases with ⟨he, hf, hb⟩ | ⟨he, hf, hb⟩ | ⟨he, hf, hb⟩ | ⟨he, hpos, hb⟩ |
    ⟨hpos, he, _, hb⟩
  · rw [hb, place, hmagnitude, he, hf]
    rfl
  · rw [hb] at h
    cases h
  · rw [hb, place, hmagnitude, he, hf]
    cases b.sign <;> rfl
  · rw [hb, place, hmagnitude, he, offset]
    congr 1
  · -- the implicit bit counts as one more unit of the exponent
    rw [hb, place, hmagnitude, offset]
    congr 1
    push_cast
    omega

/-- A double decodes as its bits do; only the payload of what is not a number is lost. -/
theorem unpack_toFloat (b : Binary) : b.toFloat.toModel.unpack = b.decoded := by
  show (Float.Model.pack b.decoded).unpack = b.decoded
  have hdecoded := b.isDecoded_decoded
  -- what the bits decode to is packed again, which keeps what has the shape of a double
  cases hb : b.decoded with
  | infinity s => exact unpack_infinite s
  | notANumber => rfl
  | zero s => exact Same.unpack_pack_zero s
  | finite s m e hm =>
    rw [hb] at hdecoded
    rw [unpack_pack_of_shaped hdecoded.1, if_pos hdecoded.2]

theorem isNaN_toFloat (b : Binary) : b.toFloat.isNaN = decide (lastOffset < b.magnitude) := by
  rw [← isNaN_decoded, ← unpack_toFloat]
  rfl

variable {a b : Binary}

theorem toFloat_lt_iff : a.toFloat < b.toFloat ↔ a.toFloat.isNaN = false ∧
    b.toFloat.isNaN = false ∧ a.sign.apply a.magnitude < b.sign.apply b.magnitude := by
  rw [lt_iff_unpack, unpack_toFloat, unpack_toFloat,
    lt_iff_place a.isDecoded_decoded b.isDecoded_decoded, isNaN_toFloat, isNaN_toFloat,
    ← isNaN_decoded, ← isNaN_decoded]
  refine and_congr_right fun ha => and_congr_right fun hb => ?_
  rw [place_decoded a ha, place_decoded b hb]

/-! ## The total order -/

/-- The total order of IEEE 754: numbers by their values, minus zero before zero, and what is not
    a number in front of all numbers or behind them, by its sign and then by its fraction. -/
@[mk_iff]
inductive Below (a b : Binary) : Prop
  | numbers (h : a.toFloat < b.toFloat)
  | zeros (ha : a = ⟨signBit⟩) (hb : b = ⟨0⟩)
  | undefinedFirst (ha : a.toFloat.isNaN = true) (hsign : a.isNegative)
      (hb : b.toFloat.isNaN = false)
  | undefinedLast (ha : a.toFloat.isNaN = false) (hb : b.toFloat.isNaN = true)
      (hsign : ¬ b.isNegative)
  | undefined (ha : a.toFloat.isNaN = true) (hb : b.toFloat.isNaN = true)
      (h : a.sign.apply a.fraction < b.sign.apply b.fraction)

theorem apply_sign (b : Binary) (n : ℕ) :
    b.sign.apply n = if b.isNegative then -(n : ℤ) else n := by
  rw [sign]
  split <;> rfl

/-- The rank is the magnitude of a positive double. A negative one is turned around, and one lower:
    minus zero is not zero. -/
theorem rank_eq (b : Binary) :
    b.rank = if b.isNegative then -1 - (b.magnitude : ℤ) else b.magnitude := by
  have hlt := b.bits.toNat_lt
  rw [rank, magnitude]
  by_cases hneg : b.isNegative
  · rw [if_pos hneg]
    rw [isNegative] at hneg
    rw [if_neg (by omega)]
    omega
  · rw [if_neg hneg]
    rw [isNegative] at hneg
    rw [if_pos (by omega)]
    omega

theorem ext_toNat_iff {n : UInt64} : a = ⟨n⟩ ↔ a.bits.toNat = n.toNat := by
  cases a
  rw [mk.injEq, UInt64.toNat_inj]

/-- Minus zero is the sign bit alone. -/
theorem eq_signBit_iff : a = ⟨signBit⟩ ↔ a.isNegative ∧ a.magnitude = 0 := by
  have hlt := a.bits.toNat_lt
  have hsignBit : signBit.toNat = 2 ^ 63 := rfl
  rw [ext_toNat_iff, isNegative, magnitude, hsignBit]
  omega

theorem eq_zero_iff : a = ⟨0⟩ ↔ ¬ a.isNegative ∧ a.magnitude = 0 := by
  have hlt := a.bits.toNat_lt
  have hzero : (0 : UInt64).toNat = 0 := rfl
  rw [ext_toNat_iff, isNegative, magnitude, hzero]
  omega

/-- Beyond infinity the fraction of what is not a number is left. -/
theorem magnitude_cases (b : Binary) :
    b.toFloat.isNaN = true ∧ 0 < b.fraction ∧ (b.magnitude : ℤ) = lastOffset + b.fraction ∨
    b.toFloat.isNaN = false ∧ (b.magnitude : ℤ) ≤ lastOffset := by
  have hexponent := b.exponent_lt
  have hfraction := b.fraction_lt
  rw [isNaN_toFloat, decide_eq_true_iff, decide_eq_false_iff_not, magnitude_eq, lastOffset]
  omega

/-- Doubles are ranked in the total order. -/
theorem rank_lt_iff_below : a.rank < b.rank ↔ a.Below b := by
  have hlast : 0 < lastOffset := by decide
  rw [below_iff, toFloat_lt_iff, rank_eq, rank_eq, eq_signBit_iff, eq_zero_iff]
  simp only [apply_sign]
  -- the signs, and whether the two are numbers, leave magnitudes to compare; that of what is not a
  -- number is its fraction beyond infinity
  rcases a.magnitude_cases with ⟨ha, hpos, hlea⟩ | ⟨ha, hlea⟩ <;>
    rcases b.magnitude_cases with ⟨hb, hpos', hleb⟩ | ⟨hb, hleb⟩ <;>
    by_cases hnega : a.isNegative <;> by_cases hnegb : b.isNegative <;>
    simp only [ha, hb, hnega, hnegb, if_true, if_false, reduceCtorEq, true_and, and_true, false_and,
      and_false, not_true_eq_false, not_false_eq_true, or_true, or_false, false_or, iff_true,
      iff_false] <;>
    omega

end Binary

end LatencyPlot.Number
