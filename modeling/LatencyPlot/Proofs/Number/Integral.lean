/-
  LatencyPlot.Proofs.Number.Integral

  The integral neighbours of a double stand for the floor, the ceiling and the
  nearest whole number of its fraction, without rounding: a double with a
  fractional part is so small that all whole numbers of its size are doubles.
-/
import LatencyPlot.Proofs.Number.Fraction
import LatencyPlot.Proofs.Number.Operations

namespace LatencyPlot.Number

open Float.Model (UnpackedFloat)

/-- The sign and the magnitude of a finite double. A double with a fractional part is small. -/
theorem Denotes.exists_ofFloat {x : Float} {p : ℚ} (hx : Denotes x p) :
    ∃ negative q, Exact.ofFloat x = .finite negative q ∧ 0 ≤ q ∧
      p = (if negative then -q else q) ∧ (q.den = 1 ∨ q < 2 ^ 52) := by
  have hshape := hasShape_unpack x
  rw [denotes_iff] at hx
  rw [Exact.ofFloat]
  generalize x.toModel.unpack = u at hx hshape
  rcases u with _ | _ | s | ⟨s, m, e, hm⟩ <;> cases hx
  · refine ⟨Exact.isNegative s, 0, rfl, le_rfl, ?_, .inl rfl⟩
    rw [neg_zero, ite_self]
  · have hscaled := scaled_eq m e
    refine ⟨Exact.isNegative s, Exact.scaled m e, rfl, ?_, ?_, ?_⟩
    · rw [hscaled]
      exact mul_nonneg (Nat.cast_nonneg m) (two_zpow_pos e).le
    · rw [hscaled, signed_eq]
      cases s <;> rfl
    · rcases le_or_gt 0 e with he | he
      · left
        rw [Exact.scaled, if_pos he]
        exact Rat.den_natCast _
      · right
        have hm : (m : ℚ) < 2 ^ 53 := by exact_mod_cast Shaped.lt hshape
        calc Exact.scaled m e = m * 2 ^ e := hscaled
          _ < 2 ^ 53 * 2 ^ e := mul_lt_mul_of_pos_right hm (two_zpow_pos e)
          _ ≤ 2 ^ 53 * 2 ^ (-1 : ℤ) :=
            mul_le_mul_of_nonneg_left (zpow_le_zpow_right₀ (by norm_num) (by omega)) (by positivity)
          _ = 2 ^ 52 := by norm_num

theorem Denotes.withSign {x : Float} {p : ℚ} (hx : Denotes x p) (negative : Bool) :
    Denotes (withSign negative x) (if negative then -p else p) := by
  cases negative with
  | true => exact hx.neg
  | false => exact hx

/-- The neighbour that `pick` chooses by sign and magnitude stands for the whole number that
    `choose` chooses. -/
theorem Denotes.toIntegral {pick : Bool → ℚ → ℕ} (choose : ℚ → ℚ)
    (hwhole : ∀ n : ℤ, choose n = n)
    (hpick : ∀ q, 0 ≤ q → choose q = pick false q ∧ choose (-q) = -pick true q)
    (hnear : ∀ negative q, 0 ≤ q → (pick negative q : ℚ) < q + 1) {x : Float} {p : ℚ}
    (hx : Denotes x p) : Denotes (toIntegral pick x) (choose p) := by
  obtain ⟨negative, q, hq, hnonneg, rfl, hsize⟩ := hx.exists_ofFloat
  rw [Number.toIntegral, hq]
  dsimp only
  split
  · next hden =>
    have hint : q = q.num := (Rat.den_eq_one_iff q).mp hden |>.symm
    have hvalue : choose (if negative then -q else q) = if negative then -q else q := by
      cases negative with
      | true =>
        have hneg := hwhole (-q.num)
        push_cast at hneg
        rwa [← hint] at hneg
      | false =>
        have hpos := hwhole q.num
        rwa [← hint] at hpos
    rwa [hvalue]
  · next hden =>
    have hlt : pick negative q < 2 ^ 53 := by
      have hbound : (pick negative q : ℚ) < 2 ^ 53 := by
        have := hnear negative q hnonneg
        have := hsize.resolve_left hden
        linarith
      exact_mod_cast hbound
    have hvalue : choose (if negative then -q else q) =
        if negative then -(pick negative q : ℚ) else pick negative q := by
      cases negative with
      | true => exact (hpick q hnonneg).2
      | false => exact (hpick q hnonneg).1
    rw [hvalue]
    exact (denotes_ofNat hlt).withSign negative

theorem ceil_toNat {q : ℚ} (hq : 0 ≤ q) : ((q.ceil.toNat : ℕ) : ℚ) = ⌈q⌉ := by
  have hceil : ((q.ceil.toNat : ℕ) : ℤ) = ⌈q⌉ := by
    rw [rat_ceil_eq]
    exact Int.toNat_of_nonneg (Int.ceil_nonneg hq)
  exact_mod_cast congrArg (Int.cast (R := ℚ)) hceil

namespace Denotes

variable {x : Float} {p : ℚ}

theorem floor (hx : Denotes x p) : Denotes (floor x) ⌊p⌋ := by
  refine hx.toIntegral (fun q => ⌊q⌋) (fun n => by rw [Int.floor_intCast])
    (fun q hq => ?_) (fun negative q hq => ?_)
  · rw [Int.floor_neg, if_neg Bool.false_ne_true, if_pos rfl, floor_toNat hq, ceil_toNat hq]
    exact ⟨rfl, by push_cast; rfl⟩
  · cases negative with
    | true => exact (ceil_toNat hq).trans_lt (Int.ceil_lt_add_one q)
    | false => exact (floor_toNat hq).trans_lt ((Int.floor_le q).trans_lt (lt_add_one q))

theorem ceil (hx : Denotes x p) : Denotes (ceil x) ⌈p⌉ := by
  refine hx.toIntegral (fun q => ⌈q⌉) (fun n => by rw [Int.ceil_intCast])
    (fun q hq => ?_) (fun negative q hq => ?_)
  · rw [Int.ceil_neg, if_neg Bool.false_ne_true, if_pos rfl, floor_toNat hq, ceil_toNat hq]
    exact ⟨rfl, by push_cast; rfl⟩
  · cases negative with
    | true => exact (floor_toNat hq).trans_lt ((Int.floor_le q).trans_lt (lt_add_one q))
    | false => exact (ceil_toNat hq).trans_lt (Int.ceil_lt_add_one q)

theorem round (hx : Denotes x p) : Denotes (round x) (ratRound p) := by
  refine hx.toIntegral ratRound ratRound_intCast (fun q hq => ⟨ratRound_of_nonneg hq, ratRound_neg hq⟩)
    fun _ q hq => ?_
  linarith [(abs_le.mp (abs_nearest_sub_le .up hq)).2]

end Denotes

end LatencyPlot.Number
