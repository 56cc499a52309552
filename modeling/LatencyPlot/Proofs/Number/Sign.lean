/-
  LatencyPlot.Proofs.Number.Sign

  The sign of a double, which packing and rounding keep. What is not a number
  has none; so a whole number is a number, and the sum of two doubles that are
  not below zero is no minus zero.
-/
import LatencyPlot.Number.Rounding
import Mathlib

namespace LatencyPlot.Number

open Float.Model (UnpackedFloat Format)
open Float.Model.UnpackedFloat (Sign packComponents unpackSign_packComponents
  unpackMantissa_packComponents unpackExponent_packComponents)

/-- The sign of a decoded double; what is not a number has none. -/
def sign? : UnpackedFloat → Option Sign
  | .notANumber => none
  | .infinity s | .zero s | .finite s _ _ _ => some s

theorem isNaN_eq_isNone (x : Float) : x.isNaN = (sign? x.toModel.unpack).isNone := by
  show x.toModel.unpack.isNaN = _
  cases x.toModel.unpack <;> rfl

/-! ## Packing -/

/-- The fields of a number have the greatest exponent only with an empty mantissa. -/
theorem sign?_unpack_packComponents (s : Sign) {e : BitVec 11} {m : BitVec 52}
    (h : e = -1#11 → m = 0#52) :
    sign? (.unpack .binary64 (packComponents .binary64 s e m)) = some s := by
  unfold UnpackedFloat.unpack
  simp only [unpackMantissa_packComponents, unpackExponent_packComponents,
    unpackSign_packComponents, Sign.ofBitVec_toBitVec]
  split
  · next he =>
    rw [if_pos (h he)]
    rfl
  · split
    · split <;> rfl
    · rfl

theorem sign?_unpack_pack (u : UnpackedFloat) :
    sign? (Float.Model.pack u).unpack = sign? u := by
  show sign? (.unpack .binary64 (UnpackedFloat.pack .binary64 u)) = sign? u
  fun_cases UnpackedFloat.pack with
  | case1 => rfl
  | case2 s => exact sign?_unpack_packComponents s fun _ => rfl
  | case3 s => exact sign?_unpack_packComponents s fun _ => rfl
  | case4 s => exact sign?_unpack_packComponents s fun _ => rfl
  | case5 s m e hm _ biased hfits =>
    refine sign?_unpack_packComponents s fun he => ?_
    -- an exponent that fits is not the greatest one
    have hvalue : biased % 2048 = 2047 := congrArg BitVec.toNat he
    have hlt : ¬ 2048 ≤ biased + 1 := hfits
    omega
  | case6 s => exact sign?_unpack_packComponents s fun he => absurd he (by decide)

/-! ## Rounding -/

theorem sign?_roundWithAccuracy (spec : Format) (s : Sign) (m : Nat) (e : Int)
    (accuracy : UnpackedFloat.Accuracy) :
    sign? (.roundWithAccuracy spec s m e accuracy) = some s := by
  unfold UnpackedFloat.roundWithAccuracy
  dsimp only
  split <;> rfl

theorem sign?_normalize_of_pos (spec : Format) {m : Int} (h : 0 < m) (e : Int) (s : Sign) :
    sign? (.normalize spec m e s) = some .positive := by
  unfold UnpackedFloat.normalize
  rw [Int.compare_eq_gt.mpr h]
  exact sign?_roundWithAccuracy ..

theorem sign?_normalize_ne_none (spec : Format) (m : Int) (e : Int) (s : Sign) :
    sign? (.normalize spec m e s) ≠ none := by
  unfold UnpackedFloat.normalize
  split
  · exact Option.ne_none_iff_exists'.mpr ⟨_, sign?_roundWithAccuracy ..⟩
  · exact Option.some_ne_none s
  · exact Option.ne_none_iff_exists'.mpr ⟨_, sign?_roundWithAccuracy ..⟩

/-! ## Arithmetic -/

/-- The sum of what is not below zero is not minus zero. -/
theorem sign?_add {u v : UnpackedFloat} (hu : sign? u = some .positive)
    (hv : sign? v = some .positive) (spec : Format) : sign? (.add spec u v) = some .positive := by
  rcases u with s | _ | s | ⟨s, m, e, hm⟩ <;> cases hu <;>
    rcases v with s | _ | s | ⟨s, m', e', hm'⟩ <;> cases hv <;> try rfl
  -- of two finite ones the magnitudes are added
  have hshift : ∀ k : Nat, 0 < m <<< k := fun k => by
    rw [Nat.shiftLeft_eq]
    exact Nat.mul_pos hm (Nat.two_pow_pos k)
  refine sign?_normalize_of_pos spec (Int.add_pos_of_pos_of_nonneg ?_ ?_) _ _
  · exact Int.natCast_pos.mpr (hshift _)
  · exact Int.natCast_nonneg _

theorem sign?_mul_finite {u : UnpackedFloat} (hu : sign? u ≠ none) (s : Sign) (m : Nat) (e : Int)
    (hm : 0 < m) (spec : Format) : sign? (.mul spec u (.finite s m e hm)) ≠ none := by
  cases u with
  | notANumber => exact absurd rfl hu
  | infinity t => exact Option.some_ne_none _
  | zero t => exact Option.some_ne_none _
  | finite t m' e' hm' => exact Option.ne_none_iff_exists'.mpr ⟨_, sign?_roundWithAccuracy ..⟩

theorem sign?_ofNat (n : Nat) : sign? (Float.ofNat n).toModel.unpack ≠ none := by
  show sign? (Float.ofScientific n false 0).toModel.unpack ≠ none
  unfold Float.ofScientific
  split
  · show sign? (Float.Model.pack (.mul .binary64
      (Float.Model.pack (.normalize .binary64 n.toUInt64.toNat 0 .positive)).unpack
      (Float.toModel 1.0).unpack)).unpack ≠ none
    rw [sign?_unpack_pack]
    apply sign?_mul_finite
    rw [sign?_unpack_pack]
    exact sign?_normalize_ne_none _ _ _ _
  · show sign? (Float.Model.pack (.ofScientific .binary64 n 0)).unpack ≠ none
    rw [sign?_unpack_pack]
    unfold UnpackedFloat.ofScientific
    split
    · exact Option.some_ne_none _
    · have hlow : ¬ ((0 : Int) < -(2 ^ Format.binary64.exponentBits + n.log2)) := by
        show ¬ ((0 : Int) < -(2048 + n.log2))
        omega
      rw [if_neg (by decide), if_neg hlow, if_pos (by decide)]
      apply sign?_mul_finite
      exact Option.some_ne_none _

/-- An integral neighbour of a number is a number. -/
theorem isNaN_toIntegral {x : Float} (h : x.isNaN = false) (pick : Bool → Rat → Nat) :
    (toIntegral pick x).isNaN = false := by
  unfold toIntegral
  split
  · next negative q _ =>
    split
    · exact h
    · have hnat := sign?_ofNat (pick negative q)
      rw [isNaN_eq_isNone, Option.isNone_eq_false_iff, Option.isSome_iff_ne_none, withSign]
      split
      · show sign? (Float.Model.pack (Float.ofNat (pick negative q)).toModel.unpack.neg).unpack ≠ none
        rw [sign?_unpack_pack]
        generalize (Float.ofNat (pick negative q)).toModel.unpack = u at *
        cases u with
        | notANumber => exact absurd rfl hnat
        | _ => exact Option.some_ne_none _
      · exact hnat
  · exact h

end LatencyPlot.Number
