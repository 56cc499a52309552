/-
  LatencyPlot.Proofs.Number.Extremes

  The least and the greatest of some doubles do not depend on their order. A
  double has a key by which it compares; choosing the lesser of two doubles is
  taking the lesser of their keys, if what is not a number has the greatest key,
  and so for the greater. Of doubles with one key only zeros differ.
-/
import LatencyPlot.Proofs.Number.Agree

namespace LatencyPlot.Number

open Float.Model (UnpackedFloat)

/-! ## Keys -/

/-- By what a double compares: whether it is infinite, and on which side of zero, and then by its
    exponent and its mantissa. Where what is not a number stands is left open. -/
def key (undefined : Int) : UnpackedFloat → Int ×ₗ Int ×ₗ Int
  | .notANumber => toLex (undefined, toLex (0, 0))
  | .infinity .negative => toLex (-2, toLex (0, 0))
  | .finite .negative m e _ => toLex (-1, toLex (-e, -m))
  | .zero _ => toLex (0, toLex (0, 0))
  | .finite .positive m e _ => toLex (1, toLex (e, m))
  | .infinity .positive => toLex (2, toLex (0, 0))

theorem isLE_compare_then {e e' : Int} {m m' : Nat} :
    ((compare e e').then (compare m m')).isLE = true ↔ e < e' ∨ e = e' ∧ m ≤ m' := by
  rw [Ordering.isLE_then_iff_or, Nat.isLE_compare, compare_lt_iff_lt, compare_eq_iff_eq]

theorem isGE_compare_then {e e' : Int} {m m' : Nat} :
    ((compare e e').then (compare m m')).isGE = true ↔ e' < e ∨ e = e' ∧ m' ≤ m := by
  rw [← Ordering.isLE_swap, Ordering.swap_then, ← Std.OrientedOrd.eq_swap,
    ← Std.OrientedOrd.eq_swap, isLE_compare_then, eq_comm]

/-- Numbers compare by their keys; what is not a number compares with nothing. -/
theorem le_iff_key (undefined : Int) (u v : UnpackedFloat) :
    u.le v = true ↔ u.isNaN = false ∧ v.isNaN = false ∧ key undefined u ≤ key undefined v := by
  -- the kinds of the two decide, and of two finite ones on one side their exponents and mantissas
  rcases u with (_ | _) | _ | _ | ⟨_ | _, m, e, h⟩ <;>
    rcases v with (_ | _) | _ | _ | ⟨_ | _, m', e', h'⟩ <;>
    simp +decide [UnpackedFloat.le, UnpackedFloat.compare, UnpackedFloat.isNaN, key,
      Prod.Lex.le_iff, isLE_compare_then, isGE_compare_then]

theorem float_le_trans {x y z : Float} (hxy : x ≤ y) (hyz : y ≤ z) : x ≤ z := by
  rw [le_iff_unpack, le_iff_key 3] at *
  exact ⟨hxy.1, hyz.2.1, hxy.2.2.trans hyz.2.2⟩

/-- Doubles that are at most the next one are at most all further ones. -/
instance transLe : Trans (· ≤ · : Float → Float → Prop) (· ≤ ·) (· ≤ ·) := ⟨float_le_trans⟩

theorem same_of_key_eq {undefined : Int} (hbeyond : undefined < -2 ∨ 2 < undefined)
    {u v : UnpackedFloat} (h : key undefined u = key undefined v) : Same u v := by
  -- the first part of a key tells the kind, and the rest tells what a finite one is made of
  rcases u with (_ | _) | _ | s | ⟨_ | _, m, e, hm⟩ <;>
    rcases v with (_ | _) | _ | s' | ⟨_ | _, m', e', hm'⟩ <;>
    simp only [key, toLex_inj, Prod.mk.injEq, Int.neg_inj, Int.natCast_inj] at h <;>
    first
      | exact .refl _
      | exact .zeros s s'
      | obtain ⟨-, rfl, rfl⟩ := h
        exact .refl _
      | exact absurd h.1 (by omega)

/-- The key that the lesser of two doubles is chosen by: what is not a number is above all others. -/
def leastKey (x : Float) : Int ×ₗ Int ×ₗ Int := key 3 x.toModel.unpack

/-- The key that the greater of two doubles is chosen by, in the order turned around. -/
def greatestKey (x : Float) : (Int ×ₗ Int ×ₗ Int)ᵒᵈ :=
  OrderDual.toDual (key (-3) x.toModel.unpack)

theorem agree_of_leastKey_eq {x y : Float} (h : leastKey x = leastKey y) : Agree x y :=
  same_of_key_eq (.inr (by decide)) h

theorem agree_of_greatestKey_eq {x y : Float} (h : greatestKey x = greatestKey y) : Agree x y :=
  same_of_key_eq (.inl (by decide)) h

theorem leastKey_le_of_isNaN {x : Float} (h : x.isNaN = true) (y : Float) :
    leastKey y ≤ leastKey x := by
  have hnan : x.toModel.unpack = .notANumber := UnpackedFloat.isNaN_iff.mp h
  rw [leastKey, leastKey, hnan]
  rcases y.toModel.unpack with (_ | _) | _ | _ | ⟨_ | _, m, e, hm⟩ <;> simp [key, Prod.Lex.le_iff]

theorem greatestKey_le_of_isNaN {x : Float} (h : x.isNaN = true) (y : Float) :
    greatestKey y ≤ greatestKey x := by
  have hnan : x.toModel.unpack = .notANumber := UnpackedFloat.isNaN_iff.mp h
  rw [greatestKey, greatestKey, hnan, OrderDual.toDual_le_toDual]
  rcases y.toModel.unpack with (_ | _) | _ | _ | ⟨_ | _, m, e, hm⟩ <;> simp [key, Prod.Lex.le_iff]

/-! ## Choosing -/

section Choosing

variable {κ : Type} [LinearOrder κ] {keyOf : Float → κ}

/-- Of two doubles the one with the lesser key is chosen, if numbers compare by their keys and what
    is not a number has the greatest one. -/
theorem key_choose {prefers : Float → Float → Bool}
    (hprefers : ∀ x y, prefers y x = true ↔ y.isNaN = false ∧ x.isNaN = false ∧ keyOf y ≤ keyOf x)
    (htop : ∀ x : Float, x.isNaN = true → ∀ y, keyOf y ≤ keyOf x) (x y : Float) :
    keyOf (if x.isNaN || prefers y x then y else x) = min (keyOf x) (keyOf y) := by
  cases hx : x.isNaN with
  | true => rw [Bool.true_or, if_pos rfl, min_eq_right (htop x hx y)]
  | false =>
    rw [Bool.false_or]
    by_cases h : prefers y x = true
    · rw [if_pos h, min_eq_right ((hprefers x y).mp h).2.2]
    · rw [if_neg h, min_eq_left]
      cases hy : y.isNaN with
      | true => exact htop y hy x
      | false =>
        have hnot : ¬ keyOf y ≤ keyOf x := fun hle => h ((hprefers x y).mpr ⟨hy, hx, hle⟩)
        exact le_of_not_ge hnot

/-- The key of what is chosen from some doubles, one after the other, is the least of their keys, so
    it does not depend on the order in which they are met. -/
theorem key_foldl_perm {choose : Float → Float → Float}
    (hchoose : ∀ x y, keyOf (choose x y) = min (keyOf x) (keyOf y)) {xs ys : List Float}
    (h : xs.Perm ys) (x : Float) : keyOf (xs.foldl choose x) = keyOf (ys.foldl choose x) := by
  -- the key goes through the choices, and a least key has no order
  have hkey : ∀ zs : List Float,
      keyOf (zs.foldl choose x) = (zs.map keyOf).foldl min (keyOf x) := by
    intro zs
    rw [List.foldl_map]
    exact (List.foldl_hom keyOf fun a b => (hchoose a b).symm).symm
  rw [hkey, hkey]
  exact (h.map keyOf).foldl_eq _

end Choosing

theorem leastKey_lesser (x y : Float) :
    leastKey (lesser x y) = min (leastKey x) (leastKey y) := by
  have hprefers (x y : Float) : decide (y ≤ x) = true ↔
      y.isNaN = false ∧ x.isNaN = false ∧ leastKey y ≤ leastKey x := by
    rw [decide_eq_true_iff, le_iff_unpack, le_iff_key 3]
    rfl
  exact key_choose hprefers (fun _ h => leastKey_le_of_isNaN h) x y

theorem greatestKey_greater (x y : Float) :
    greatestKey (greater x y) = min (greatestKey x) (greatestKey y) := by
  have hprefers (x y : Float) : decide (x ≤ y) = true ↔
      y.isNaN = false ∧ x.isNaN = false ∧ greatestKey y ≤ greatestKey x := by
    rw [decide_eq_true_iff, le_iff_unpack, le_iff_key (-3)]
    exact and_left_comm
  exact key_choose hprefers (fun _ h => greatestKey_le_of_isNaN h) x y

/-! ## Extremes -/

variable {xs ys : List Float} {x : Float}

/-- The least of some doubles is the same number in whatever order they come. -/
theorem foldl_lesser_perm (h : xs.Perm ys) (x : Float) :
    Agree (xs.foldl lesser x) (ys.foldl lesser x) :=
  agree_of_leastKey_eq (key_foldl_perm leastKey_lesser h x)

/-- The greatest of some doubles is the same number in whatever order they come. -/
theorem foldl_greater_perm (h : xs.Perm ys) (x : Float) :
    Agree (xs.foldl greater x) (ys.foldl greater x) :=
  agree_of_greatestKey_eq (key_foldl_perm greatestKey_greater h x)

/-- Once there is a number among those chosen from, a number is chosen. -/
theorem isNaN_foldl {choose : Float → Float → Float}
    (hchoose : ∀ x y : Float, x.isNaN = false → (choose x y).isNaN = false)
    (hx : x.isNaN = false) (xs : List Float) : (xs.foldl choose x).isNaN = false := by
  induction xs generalizing x with
  | nil => exact hx
  | cons y ys ih => exact ih (hchoose x y hx)

theorem isNaN_lesser (x y : Float) (hx : x.isNaN = false) : (lesser x y).isNaN = false := by
  rw [lesser, hx, Bool.false_or]
  split
  · next h => exact ((le_iff_key 3 _ _).mp (le_iff_unpack.mp (of_decide_eq_true h))).1
  · exact hx

theorem isNaN_greater (x y : Float) (hx : x.isNaN = false) : (greater x y).isNaN = false := by
  rw [greater, hx, Bool.false_or]
  split
  · next h => exact ((le_iff_key 3 _ _).mp (le_iff_unpack.mp (of_decide_eq_true h))).2.1
  · exact hx

end LatencyPlot.Number
