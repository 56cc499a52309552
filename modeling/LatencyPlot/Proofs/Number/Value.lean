/-
  LatencyPlot.Proofs.Number.Value

  The fraction that a finite double stands for (`Denotes`), and the shape of
  finite doubles: a mantissa below `2 ^ 53`, which is full unless the exponent is
  the least one, and an exponent of at most 971 (`Shaped`). Packing keeps a
  double of this shape, and makes one with a greater exponent infinite.
-/
import LatencyPlot.Proofs.Number.Agree

namespace LatencyPlot.Number

open Float.Model (UnpackedFloat Format)
open Float.Model.UnpackedFloat (Sign packComponents unpackSign_packComponents
  unpackMantissa_packComponents unpackExponent_packComponents)

/-! ## Values -/

/-- The fraction that a decoded double stands for, if it is finite. -/
def valueOf : UnpackedFloat → Option ℚ
  | .zero _ => some 0
  | .finite s m e _ => some (s.apply m * (2 : ℚ) ^ e)
  | _ => none

/-- A double is finite, and stands for a fraction. -/
def Denotes (x : Float) (q : ℚ) : Prop := (Exact.ofFloat x).value? = some q

theorem scaled_eq (m : ℕ) (e : ℤ) : Exact.scaled m e = m * (2 : ℚ) ^ e := by
  rw [Exact.scaled]
  split
  · next he =>
    obtain ⟨k, rfl⟩ := Int.eq_ofNat_of_zero_le he
    rw [Int.toNat_natCast, zpow_natCast]
    exact_mod_cast rfl
  · next he =>
    obtain ⟨k, rfl⟩ : ∃ k : ℕ, e = -(k : ℤ) := ⟨(-e).toNat, by omega⟩
    rw [Rat.mkRat_eq_div, neg_neg, Int.toNat_natCast, zpow_neg, zpow_natCast, Nat.pow_eq]
    push_cast
    exact div_eq_mul_inv _ _

theorem value?_ofFloat (x : Float) : (Exact.ofFloat x).value? = valueOf x.toModel.unpack := by
  rw [Exact.ofFloat]
  cases x.toModel.unpack with
  | notANumber | infinity => rfl
  | zero s => cases s <;> rfl
  | finite s m e hm =>
    cases s <;> simp [Exact.value?, Exact.isNegative, valueOf, scaled_eq, Sign.apply]

theorem denotes_iff {x : Float} {q : ℚ} : Denotes x q ↔ valueOf x.toModel.unpack = some q := by
  rw [Denotes, value?_ofFloat]

theorem isFinite_iff {x : Float} : x.isFinite = true ↔ ∃ q, Denotes x q := by
  show x.toModel.unpack.isFinite = true ↔ _
  simp only [denotes_iff]
  cases x.toModel.unpack <;> simp [UnpackedFloat.isFinite, valueOf]

theorem Denotes.unique {x : Float} {p q : ℚ} (hp : Denotes x p) (hq : Denotes x q) : p = q :=
  Option.some.inj (hp.symm.trans hq)

/-! ## Shapes -/

/-- The mantissas and exponents of finite doubles. -/
structure Shaped (m : ℕ) (e : ℤ) : Prop where
  lt : m < 2 ^ 53
  low : -1074 ≤ e
  full : e = -1074 ∨ 2 ^ 52 ≤ m

/-- Doubles with an exponent above this one are infinite. -/
def topExponent : ℤ := 971

/-- The mantissa of a normal double has one bit more than is stored of it. -/
theorem toNat_leading (mantissa : BitVec 52) :
    (1#1 ++ mantissa).toNat = 2 ^ 52 + mantissa.toNat := by
  rw [BitVec.toNat_append, ← Nat.shiftLeft_add_eq_or_of_lt mantissa.isLt]
  rfl

theorem shaped_of_unpack {u : Float.Model} {s : Sign} {m : ℕ} {e : ℤ} {hm : 0 < m}
    (h : u.unpack = .finite s m e hm) : Shaped m e ∧ e ≤ topExponent := by
  unfold Float.Model.unpack UnpackedFloat.unpack at h
  have hmantissa : (@UnpackedFloat.unpackMantissa .binary64 u.toBits.toBitVec).toNat < 2 ^ 52 :=
    BitVec.isLt _
  have hexponent : (@UnpackedFloat.unpackExponent .binary64 u.toBits.toBitVec).toNat < 2 ^ 11 :=
    BitVec.isLt _
  have hbias : (Format.binary64.exponentBias : ℤ) + Format.binary64.mantissaBitsWithoutImplicit =
    1075 := by decide
  dsimp only at h
  rw [hbias] at h
  split at h
  · split at h <;> cases h
  next hfinite =>
  split at h
  · next hzero =>
    -- a subnormal number has the least exponent
    split at h
    · cases h
    · cases h
      rw [hzero]
      exact ⟨⟨by omega, by decide, .inl (by decide)⟩, by decide⟩
  · next hnormal =>
    cases h
    have hleast : (@UnpackedFloat.unpackExponent .binary64 u.toBits.toBitVec).toNat ≠ 0 :=
      fun heq => hnormal (BitVec.eq_of_toNat_eq heq)
    have hgreatest : (@UnpackedFloat.unpackExponent .binary64 u.toBits.toBitVec).toNat ≠ 2047 :=
      fun heq => hfinite (BitVec.eq_of_toNat_eq heq)
    rw [toNat_leading]
    refine ⟨⟨by omega, by omega, .inr (by omega)⟩, ?_⟩
    rw [topExponent]
    omega

theorem unpack_normal (s : Sign) {e : ℕ} (hlow : 0 < e) (hhigh : e < 2047) {m : ℕ}
    (hlt : m < 2 ^ 53) (hfull : 2 ^ 52 ≤ m) (hm : 0 < m) :
    UnpackedFloat.unpack .binary64 (packComponents .binary64 s (BitVec.ofNat 11 e)
      (BitVec.ofNat 52 m)) = .finite s m (e - 1075) hm := by
  have hexponent : (BitVec.ofNat 11 e).toNat = e := by
    rw [BitVec.toNat_ofNat]
    omega
  have hmantissa : (1#1 ++ BitVec.ofNat 52 m).toNat = m := by
    rw [toNat_leading, BitVec.toNat_ofNat]
    omega
  have hne (k : BitVec 11) (h : k.toNat ≠ e) : BitVec.ofNat 11 e ≠ k := by
    intro heq
    rw [← heq] at h
    exact h hexponent
  have hfinite := hne (-1#11) (show 2047 ≠ e by omega)
  have hnormal := hne 0#11 (show 0 ≠ e by omega)
  unfold UnpackedFloat.unpack
  simp only [unpackMantissa_packComponents, unpackExponent_packComponents,
    unpackSign_packComponents, Sign.ofBitVec_toBitVec]
  rw [if_neg hfinite, if_neg hnormal, UnpackedFloat.finite.injEq]
  refine ⟨rfl, hmantissa, ?_⟩
  rw [hexponent]
  rfl

theorem unpack_subnormal (s : Sign) {m : ℕ} (hlt : m < 2 ^ 52) (hm : 0 < m) :
    UnpackedFloat.unpack .binary64 (packComponents .binary64 s 0#11 (BitVec.ofNat 52 m)) =
      .finite s m (-1074) hm := by
  have hmantissa : (BitVec.ofNat 52 m).toNat = m := by
    rw [BitVec.toNat_ofNat]
    omega
  have hne : BitVec.ofNat 52 m ≠ 0#52 := by
    intro heq
    rw [heq] at hmantissa
    exact absurd hmantissa (Nat.ne_of_lt hm)
  unfold UnpackedFloat.unpack
  simp only [unpackMantissa_packComponents, unpackExponent_packComponents,
    unpackSign_packComponents, Sign.ofBitVec_toBitVec]
  rw [if_neg (show 0#11 ≠ -1#11 by decide), if_pos trivial, dif_neg hne,
    UnpackedFloat.finite.injEq]
  exact ⟨rfl, hmantissa, by decide⟩

theorem unpack_infinite (s : Sign) :
    UnpackedFloat.unpack .binary64 (UnpackedFloat.packedInfinity .binary64 s) = .infinity s := by
  cases s <;> rfl

/-- A double of the shape of doubles is packed and unpacked as it is, unless it is too great. -/
theorem unpack_pack_of_shaped {m : ℕ} {e : ℤ} (h : Shaped m e) (s : Sign) (hm : 0 < m) :
    (Float.Model.pack (.finite s m e hm)).unpack =
      if e ≤ topExponent then .finite s m e hm else .infinity s := by
  have hlow := h.low
  have hbias : e + (Format.binary64.exponentBias : ℤ) +
      Format.binary64.mantissaBitsWithoutImplicit = e + 1075 := by
    show e + 1023 + 52 = e + 1075
    omega
  show UnpackedFloat.unpack .binary64 (UnpackedFloat.pack .binary64 (.finite s m e hm)) = _
  unfold UnpackedFloat.pack
  simp only [hbias]
  by_cases htop : e ≤ topExponent
  · have hfits : ¬ 2 ^ Format.binary64.exponentBits ≤ (e + 1075).toNat + 1 := by
      show ¬ 2048 ≤ (e + 1075).toNat + 1
      rw [topExponent] at htop
      omega
    rw [if_pos htop, if_neg hfits]
    by_cases hfull : 2 ^ 52 ≤ m
    · have hbits : m.log2 = 52 := (Nat.log2_eq_iff hm.ne').mpr ⟨hfull, h.lt⟩
      have hexponent : (((e + 1075).toNat : ℤ) - 1075) = e := by omega
      rw [topExponent] at htop
      rw [if_pos (show m.log2 + 1 = Format.binary64.mantissaBits by rw [hbits]; rfl),
        unpack_normal s (by omega) (by omega) h.lt hfull hm]
      simp only [hexponent]
    · have hbits : m.log2 < 52 := (Nat.log2_lt hm.ne').mpr (Nat.lt_of_not_le hfull)
      have hleast : e = -1074 := h.full.resolve_right hfull
      subst hleast
      have hfew : m.log2 + 1 ≠ Format.binary64.mantissaBits := by
        show m.log2 + 1 ≠ 53
        omega
      rw [if_neg hfew]
      exact unpack_subnormal s (Nat.lt_of_not_le hfull) hm
  · have hbeyond : 2 ^ Format.binary64.exponentBits ≤ (e + 1075).toNat + 1 := by
      show 2048 ≤ (e + 1075).toNat + 1
      rw [topExponent] at htop
      omega
    rw [if_neg htop, if_pos hbeyond, unpack_infinite]

/-! ## Order -/

/-- Of two shapes with different exponents the one with the greater exponent stands for more. -/
theorem Shaped.value_lt {m m' : ℕ} {e e' : ℤ} (h : Shaped m e) (h' : Shaped m' e') (hlt : e < e') :
    (m : ℚ) * 2 ^ e < m' * 2 ^ e' := by
  have hfull : 2 ^ 52 ≤ m' := h'.full.resolve_left (by have := h.low; omega)
  calc (m : ℚ) * 2 ^ e < 2 ^ 53 * 2 ^ e := by
        have hm : (m : ℚ) < 2 ^ 53 := by exact_mod_cast h.lt
        gcongr
    _ = 2 ^ 52 * 2 ^ (e + 1) := by
        rw [zpow_add_one₀ (by norm_num)]
        ring
    _ ≤ 2 ^ 52 * 2 ^ e' := by
        gcongr
        · norm_num
        · omega
    _ ≤ m' * 2 ^ e' := by
        have hm : (2 ^ 52 : ℚ) ≤ m' := by exact_mod_cast hfull
        gcongr

theorem Shaped.compare_eq {m m' : ℕ} {e e' : ℤ} (h : Shaped m e) (h' : Shaped m' e') :
    (compare e e').then (compare m m') = compare ((m : ℚ) * 2 ^ e) (m' * 2 ^ e') := by
  rcases lt_trichotomy e e' with hlt | rfl | hgt
  · rw [compare_lt_iff_lt.mpr hlt, compare_lt_iff_lt.mpr (h.value_lt h' hlt)]
    rfl
  · have hpos : (0 : ℚ) < 2 ^ e := by positivity
    rw [compare_eq_iff_eq.mpr rfl, Ordering.then]
    rcases lt_trichotomy m m' with hlt | rfl | hgt
    · rw [compare_lt_iff_lt.mpr hlt, eq_comm, compare_lt_iff_lt]
      gcongr
    · rw [compare_eq_iff_eq.mpr rfl, compare_eq_iff_eq.mpr rfl]
    · rw [compare_gt_iff_gt.mpr hgt, eq_comm, compare_gt_iff_gt]
      gcongr
  · rw [compare_gt_iff_gt.mpr hgt, compare_gt_iff_gt.mpr (h'.value_lt h hgt)]
    rfl

/-- The decoded doubles are of the shape of doubles. -/
def HasShape : UnpackedFloat → Prop
  | .finite _ m e _ => Shaped m e
  | _ => True

theorem hasShape_unpack (x : Float) : HasShape x.toModel.unpack := by
  cases h : x.toModel.unpack with
  | finite s m e hm => exact (shaped_of_unpack h).1
  | _ => trivial

theorem compare_neg_neg (p q : ℚ) : compare (-p) (-q) = (compare p q).swap := by
  rw [← Std.OrientedOrd.eq_swap]
  rcases lt_trichotomy p q with hlt | rfl | hgt
  · rw [compare_gt_iff_gt.mpr hlt, compare_gt_iff_gt.mpr (neg_lt_neg hlt)]
  · rw [compare_eq_iff_eq.mpr rfl, compare_eq_iff_eq.mpr rfl]
  · rw [compare_lt_iff_lt.mpr hgt, compare_lt_iff_lt.mpr (neg_lt_neg hgt)]

/-- Finite doubles compare as the fractions that they stand for. -/
theorem compare_eq_of_values {u v : UnpackedFloat} (hu : HasShape u) (hv : HasShape v) {p q : ℚ}
    (hp : valueOf u = some p) (hq : valueOf v = some q) : u.compare v = some (compare p q) := by
  have hpos (m : ℕ) (e : ℤ) (hm : 0 < m) : (0 : ℚ) < m * 2 ^ e := by positivity
  -- a zero or a finite one on each side; the signs decide unless they are the same
  rcases u with _ | _ | s | ⟨_ | _, m, e, hm⟩ <;> cases hp <;>
    rcases v with _ | _ | s' | ⟨_ | _, m', e', hm'⟩ <;> cases hq <;>
    simp only [Sign.apply, Int.cast_neg, Int.cast_natCast, neg_mul, UnpackedFloat.compare,
      Option.some.injEq]
  · rfl
  · exact (compare_gt_iff_gt.mpr (neg_neg_of_pos (hpos m' e' hm'))).symm
  · exact (compare_lt_iff_lt.mpr (hpos m' e' hm')).symm
  · exact (compare_lt_iff_lt.mpr (neg_neg_of_pos (hpos m e hm))).symm
  · rw [compare_neg_neg, Shaped.compare_eq hu hv]
  · exact (compare_lt_iff_lt.mpr
      ((neg_neg_of_pos (hpos m e hm)).trans (hpos m' e' hm'))).symm
  · exact (compare_gt_iff_gt.mpr (hpos m e hm)).symm
  · exact (compare_gt_iff_gt.mpr
      ((neg_neg_of_pos (hpos m' e' hm')).trans (hpos m e hm))).symm
  · exact Shaped.compare_eq hu hv

theorem lesser_cases (x y : Float) : lesser x y = x ∨ lesser x y = y := by
  rw [lesser]
  split
  · exact .inr rfl
  · exact .inl rfl

theorem greater_cases (x y : Float) : greater x y = x ∨ greater x y = y := by
  rw [greater]
  split
  · exact .inr rfl
  · exact .inl rfl

namespace Denotes

variable {x y : Float} {p q : ℚ}

theorem compare_eq (hx : Denotes x p) (hy : Denotes y q) :
    x.toModel.unpack.compare y.toModel.unpack = some (compare p q) :=
  compare_eq_of_values (hasShape_unpack x) (hasShape_unpack y) (denotes_iff.mp hx)
    (denotes_iff.mp hy)

theorem le_iff (hx : Denotes x p) (hy : Denotes y q) : x ≤ y ↔ p ≤ q := by
  rw [le_iff_unpack, UnpackedFloat.le, hx.compare_eq hy, Option.any_some,
    Ordering.isLE_iff_ne_gt]
  exact compare_le_iff_le

theorem lt_iff (hx : Denotes x p) (hy : Denotes y q) : x < y ↔ p < q := by
  rw [lt_iff_unpack, UnpackedFloat.lt, hx.compare_eq hy]
  simp [compare_lt_iff_lt]

theorem beq_iff (hx : Denotes x p) (hy : Denotes y q) : (x == y) = true ↔ p = q := by
  show UnpackedFloat.beq x.toModel.unpack y.toModel.unpack = true ↔ _
  rw [UnpackedFloat.beq, hx.compare_eq hy]
  simp

theorem isNaN (hx : Denotes x p) : x.isNaN = false := by
  show x.toModel.unpack.isNaN = false
  rw [denotes_iff] at hx
  cases h : x.toModel.unpack with
  | notANumber =>
    rw [h] at hx
    cases hx
  | _ => rfl

theorem lesser (hx : Denotes x p) (hy : Denotes y q) : Denotes (lesser x y) (min p q) := by
  rw [Number.lesser, hx.isNaN, Bool.false_or]
  by_cases h : q ≤ p
  · rw [if_pos (decide_eq_true ((hy.le_iff hx).mpr h)), min_eq_right h]
    exact hy
  · rw [if_neg (by simpa using fun hle => h ((hy.le_iff hx).mp hle)), min_eq_left (le_of_not_ge h)]
    exact hx

theorem greater (hx : Denotes x p) (hy : Denotes y q) : Denotes (greater x y) (max p q) := by
  rw [Number.greater, hx.isNaN, Bool.false_or]
  by_cases h : p ≤ q
  · rw [if_pos (decide_eq_true ((hx.le_iff hy).mpr h)), max_eq_right h]
    exact hy
  · rw [if_neg (by simpa using fun hle => h ((hx.le_iff hy).mp hle)), max_eq_left (le_of_not_ge h)]
    exact hx

end Denotes

end LatencyPlot.Number
