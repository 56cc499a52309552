/-
  LatencyPlot.Proofs.Number.Agree

  Doubles that are the same number: equal ones, and the two zeros. The
  operations that a plot is laid out with take such doubles to such doubles; the
  magnitude, a comparison, a count and the text of a tick do not tell them apart
  at all, nor does a difference from what is not minus zero.
-/
import LatencyPlot.Axis.Ticks
import Mathlib

namespace LatencyPlot.Number

open Float.Model (UnpackedFloat Format)
open Float.Model.UnpackedFloat (Sign)

/-! ## Decoded doubles -/

/-- Two decoded doubles are equal, or both are zeros. -/
inductive Same : UnpackedFloat → UnpackedFloat → Prop
  | refl (u : UnpackedFloat) : Same u u
  | zeros (s s' : Sign) : Same (.zero s) (.zero s')

namespace Same

variable {u u' v v' w : UnpackedFloat}

theorem trans (h : Same u v) (h' : Same v w) : Same u w := by
  cases h with
  | refl => exact h'
  | zeros s s' =>
    cases h' with
    | refl => exact .zeros s s'
    | zeros => exact .zeros ..

/-- A function relates its results on the same doubles if it relates those on the zeros. -/
theorem lift {α : Type} {r : α → α → Prop} (hrefl : ∀ a, r a a) {f : UnpackedFloat → α}
    (h : Same u v) (hzeros : ∀ s s', r (f (.zero s)) (f (.zero s'))) : r (f u) (f v) := by
  cases h with
  | refl => exact hrefl _
  | zeros s s' => exact hzeros s s'

theorem add (h : Same u u') (v : UnpackedFloat) (spec : Format) :
    Same (.add spec u v) (.add spec u' v) := by
  refine h.lift (f := fun u => .add spec u v) Same.refl fun s s' => ?_
  cases v with
  | zero t =>
    simp only [UnpackedFloat.add]
    split <;> split <;> exact .zeros ..
  | _ => exact .refl _

theorem sub (h : Same u u') (h' : Same v v') (spec : Format) :
    Same (.sub spec u v) (.sub spec u' v') := by
  have hleft : Same (.sub spec u v) (.sub spec u' v) := by
    refine h.lift (f := fun u => .sub spec u v) Same.refl fun s s' => ?_
    cases v with
    | zero t =>
      simp only [UnpackedFloat.sub]
      split <;> split <;> exact .zeros ..
    | _ => exact .refl _
  refine hleft.trans (h'.lift (f := fun v => .sub spec u' v) Same.refl fun s s' => ?_)
  cases u' with
  | zero t =>
    simp only [UnpackedFloat.sub]
    split <;> split <;> exact .zeros ..
  | _ => exact .refl _

/-- Only minus zero less a zero depends on the sign of that zero. -/
theorem sub_eq (h : Same v v') (hu : u ≠ .zero .negative) (spec : Format) :
    UnpackedFloat.sub spec u v = .sub spec u v' := by
  refine h.lift (r := Eq) (f := fun v => UnpackedFloat.sub spec u v) (fun _ => rfl) fun s s' => ?_
  cases u with
  | zero t =>
    cases t with
    | negative => exact absurd rfl hu
    | positive => cases s <;> cases s' <;> rfl
  | _ => rfl

theorem mul (h : Same u u') (v : UnpackedFloat) (spec : Format) :
    Same (.mul spec u v) (.mul spec u' v) := by
  refine h.lift (f := fun u => .mul spec u v) Same.refl fun s s' => ?_
  cases v with
  | zero t => exact .zeros ..
  | finite t m e hm => exact .zeros ..
  | _ => exact .refl _

theorem div (h : Same u u') (v : UnpackedFloat) (spec : Format) :
    Same (.div spec u v) (.div spec u' v) := by
  refine h.lift (f := fun u => .div spec u v) Same.refl fun s s' => ?_
  cases v with
  | infinity t => exact .zeros ..
  | finite t m e hm => exact .zeros ..
  | _ => exact .refl _

theorem compare_eq (h : Same u u') (h' : Same v v') : u.compare v = u'.compare v' := by
  have hleft : u.compare v = u'.compare v := by
    refine h.lift (r := Eq) (f := fun u => u.compare v) (fun _ => rfl) fun s s' => ?_
    cases v with
    | infinity t => cases t <;> rfl
    | finite t m e hm => cases t <;> rfl
    | _ => rfl
  refine hleft.trans (h'.lift (r := Eq) (f := fun v => u'.compare v) (fun _ => rfl) fun s s' => ?_)
  cases u' with
  | infinity t => cases t <;> rfl
  | finite t m e hm => cases t <;> rfl
  | _ => rfl

theorem abs_eq (h : Same u u') : u.abs = u'.abs :=
  h.lift (r := Eq) (fun _ => rfl) fun _ _ => rfl

theorem isNaN_eq (h : Same u u') : u.isNaN = u'.isNaN :=
  h.lift (r := Eq) (fun _ => rfl) fun _ _ => rfl

theorem unpack_pack_zero (s : Sign) : (Float.Model.pack (.zero s)).unpack = .zero s := by
  cases s <;> rfl

theorem pack (h : Same u v) : Same (Float.Model.pack u).unpack (Float.Model.pack v).unpack := by
  refine h.lift (f := fun u => (Float.Model.pack u).unpack) Same.refl fun s s' => ?_
  rw [unpack_pack_zero, unpack_pack_zero]
  exact .zeros s s'

end Same

/-! ## Doubles -/

/-- Two doubles are the same number: they are equal but for the sign of a zero. -/
def Agree (x y : Float) : Prop := Same x.toModel.unpack y.toModel.unpack

theorem le_iff_unpack {x y : Float} : x ≤ y ↔ x.toModel.unpack.le y.toModel.unpack = true :=
  decide_eq_true_iff

theorem lt_iff_unpack {x y : Float} : x < y ↔ x.toModel.unpack.lt y.toModel.unpack = true :=
  decide_eq_true_iff

namespace Agree

variable {x x' y y' : Float}

theorem refl (x : Float) : Agree x x := Same.refl _

/-- The same numbers have one decoded form, or they are zeros. -/
theorem eq_or_zeros (h : Agree x y) : x.toModel.unpack = y.toModel.unpack ∨
    ∃ s s', x.toModel.unpack = .zero s ∧ y.toModel.unpack = .zero s' := by
  rw [Agree] at h
  generalize x.toModel.unpack = u at *
  generalize y.toModel.unpack = v at *
  cases h with
  | refl => exact .inl rfl
  | zeros s s' => exact .inr ⟨s, s', rfl, rfl⟩

/-! ### Arithmetic -/

theorem add (h : Agree x x') (y : Float) : Agree (x + y) (x' + y) := (Same.add h _ _).pack

theorem sub (h : Agree x x') (h' : Agree y y') : Agree (x - y) (x' - y') :=
  (Same.sub h h' _).pack

theorem sub_eq (h : Agree y y') (hx : x.toModel.unpack ≠ .zero .negative) : x - y = x - y' :=
  congrArg (fun u => Float.ofModel (.pack u)) (Same.sub_eq h hx _)

theorem mul (h : Agree x x') (y : Float) : Agree (x * y) (x' * y) := (Same.mul h _ _).pack

theorem div (h : Agree x x') (y : Float) : Agree (x / y) (x' / y) := (Same.div h _ _).pack

theorem abs_eq (h : Agree x x') : x.abs = x'.abs :=
  congrArg (fun u => Float.ofModel (.pack u)) (Same.abs_eq h)

/-! ### Comparisons -/

theorem isNaN_eq (h : Agree x x') : x.isNaN = x'.isNaN := Same.isNaN_eq h

theorem le_iff (h : Agree x x') (h' : Agree y y') : x ≤ y ↔ x' ≤ y' := by
  rw [le_iff_unpack, le_iff_unpack, UnpackedFloat.le, UnpackedFloat.le, Same.compare_eq h h']

theorem lt_iff (h : Agree x x') (h' : Agree y y') : x < y ↔ x' < y' := by
  rw [lt_iff_unpack, lt_iff_unpack, UnpackedFloat.lt, UnpackedFloat.lt, Same.compare_eq h h']

theorem beq_eq (h : Agree x x') (h' : Agree y y') : (x == y) = (x' == y') := by
  show UnpackedFloat.beq _ _ = UnpackedFloat.beq _ _
  rw [UnpackedFloat.beq, UnpackedFloat.beq, Same.compare_eq h h']

/-- Numbers that are the same compare as equal. -/
theorem beq (h : Agree x y) (hx : x.isNaN = false) : (x == y) = true := by
  rw [Float.isNaN_eq_decide_eq_nan, decide_eq_false_iff_not] at hx
  rw [← (refl x).beq_eq h]
  exact Float.beq_self_iff.mpr hx

/-- Divisors that are no zeros agree only if they are equal. -/
theorem div_of_ne_zero (h : Agree x x') (h' : Agree y y') (hy : (y == 0.0) = false) :
    Agree (x / y) (x' / y') := by
  rcases h'.eq_or_zeros with heq | ⟨s, s', hzero, -⟩
  · have hdiv : x' / y = x' / y' :=
      congrArg (fun v => Float.ofModel (.pack (.div .binary64 x'.toModel.unpack v))) heq
    rw [← hdiv]
    exact h.div y
  · have htrue : (y == 0.0) = true := by
      show UnpackedFloat.beq y.toModel.unpack _ = true
      rw [hzero]
      rfl
    rw [hy] at htrue
    cases htrue

theorem lesser (h : Agree x x') (h' : Agree y y') : Agree (lesser x y) (lesser x' y') := by
  rw [Number.lesser, Number.lesser]
  simp only [h.isNaN_eq, h'.le_iff h]
  split
  · exact h'
  · exact h

theorem greater (h : Agree x x') (h' : Agree y y') : Agree (greater x y) (greater x' y') := by
  rw [Number.greater, Number.greater]
  simp only [h.isNaN_eq, h.le_iff h']
  split
  · exact h'
  · exact h

/-! ### Exact values -/

/-- The same numbers stand for the same, but for the sign of a zero. -/
theorem exact (h : Agree x x') : Exact.ofFloat x = Exact.ofFloat x' ∨
    ∃ negative negative', Exact.ofFloat x = .finite negative 0 ∧
      Exact.ofFloat x' = .finite negative' 0 := by
  rcases h.eq_or_zeros with heq | ⟨s, s', hzero, hzero'⟩
  · left
    rw [Exact.ofFloat, Exact.ofFloat, heq]
  · right
    refine ⟨Exact.isNegative s, Exact.isNegative s', ?_, ?_⟩
    · rw [Exact.ofFloat, hzero]
    · rw [Exact.ofFloat, hzero']

theorem toIntegral (h : Agree x x') (pick : Bool → Rat → Nat) :
    Agree (toIntegral pick x) (toIntegral pick x') := by
  unfold Number.toIntegral
  rcases h.exact with heq | ⟨negative, negative', hzero, hzero'⟩
  · rw [heq]
    split
    · split
      · exact h
      · exact .refl _
    · exact h
  · -- a zero is integral
    rw [hzero, hzero']
    exact h

theorem floor (h : Agree x x') : Agree (floor x) (floor x') := h.toIntegral _

theorem ceil (h : Agree x x') : Agree (ceil x) (ceil x') := h.toIntegral _

theorem round (h : Agree x x') : Agree (round x) (round x') := h.toIntegral _

theorem toCount_eq (h : Agree x x') : toCount x = toCount x' := by
  unfold toCount
  rcases h.exact with heq | ⟨negative, negative', hzero, hzero'⟩
  · rw [heq]
  · rw [hzero, hzero']
    cases negative <;> cases negative' <;> rfl

/-- The text of a tick at a zero has no sign. -/
theorem tickText_eq (h : Agree x x') : tickText x = tickText x' := by
  have htext : ∀ negative, tickChars (.finite negative 0) = ['0'] := by decide +kernel
  show String.ofList (tickChars (Exact.ofFloat x)) = String.ofList (tickChars (Exact.ofFloat x'))
  rcases h.exact with heq | ⟨negative, negative', hzero, hzero'⟩
  · rw [heq]
  · rw [hzero, hzero', htext, htext]

end Agree

end LatencyPlot.Number
