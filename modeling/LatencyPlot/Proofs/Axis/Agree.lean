/-
  LatencyPlot.Proofs.Axis.Agree

  The latency axis does not depend on the order of the records. The bounds of
  the same records in two orders are the same numbers, and no bound is anything
  but a number; bounds that are the same numbers have as many ticks, at the same
  numbers.
-/
import LatencyPlot.Axis.Bounds
import LatencyPlot.Proofs.Number.Extremes
import LatencyPlot.Proofs.Number.Sign

namespace LatencyPlot

open Number (Agree)

/-! ## Bounds -/

namespace Bounds

variable {records records' : List (Record Float)} {b b' : Bounds Float}

/-- Bounds with ends that are the same numbers. -/
structure Agrees (b b' : Bounds Float) : Prop where
  min : Agree b.min b'.min
  max : Agree b.max b'.max

/-- The bounds of some records as the ends of two choices among all of them. -/
theorem ofRecords_eq (h : records ≠ []) : ofRecords records = .ok {
    min := Number.floor ((records.map Record.p25).foldl Number.lesser (1.0 / 0.0))
    max := Number.ceil
      ((records.map fun r => r.p75 + 1.0).foldl Number.greater (-1.0 / 0.0)) } := by
  cases records with
  | nil => exact absurd rfl h
  | cons r rs => rfl

theorem agrees_of_perm (h : records.Perm records') (hb : ofRecords records = .ok b)
    (hb' : ofRecords records' = .ok b') : Agrees b b' := by
  have hne : records ≠ [] := by
    rintro rfl
    cases hb
  have hne' : records' ≠ [] := mt (fun hnil => (hnil ▸ h).eq_nil) hne
  rw [ofRecords_eq hne] at hb
  rw [ofRecords_eq hne'] at hb'
  cases hb
  cases hb'
  exact ⟨(Number.foldl_lesser_perm (h.map _) _).floor, (Number.foldl_greater_perm (h.map _) _).ceil⟩

theorem isNaN_ofRecords (h : ofRecords records = .ok b) :
    b.min.isNaN = false ∧ b.max.isNaN = false := by
  have hne : records ≠ [] := by
    rintro rfl
    cases h
  rw [ofRecords_eq hne] at h
  cases h
  exact ⟨Number.isNaN_toIntegral (Number.isNaN_foldl Number.isNaN_lesser rfl _) _,
    Number.isNaN_toIntegral (Number.isNaN_foldl Number.isNaN_greater rfl _) _⟩

/-- The ends of agreeing bounds of some records compare as equal. -/
theorem Agrees.beq (h : Agrees b b') (hb : ofRecords records = .ok b) :
    (b.min == b'.min) = true ∧ (b.max == b'.max) = true :=
  ⟨h.min.beq (isNaN_ofRecords hb).1, h.max.beq (isNaN_ofRecords hb).2⟩

theorem Agrees.span (h : Agrees b b') : Agree b.span b'.span := h.max.sub h.min

end Bounds

/-! ## Ticks -/

namespace Ticks

variable {low low' high high' : Float}

theorem niceStep_eq (hlow : Agree low low') (hhigh : Agree high high') (wanted : Nat) :
    niceStep low high wanted = niceStep low' high' wanted := by
  unfold niceStep
  have hlength : Scalar.abs (high - low) = Scalar.abs (high' - low') := (hhigh.sub hlow).abs_eq
  rw [hlength]

theorem nice_agree (hlow : Agree low low') (hhigh : Agree high high') (wanted : Nat) :
    (nice low high wanted).count = (nice low' high' wanted).count ∧
      ∀ i, Agree ((nice low high wanted).value i) ((nice low' high' wanted).value i) := by
  have hstep := niceStep_eq hlow hhigh wanted
  unfold nice
  rw [hstep]
  generalize niceStep low' high' wanted = step
  -- the first tick and the last one are multiples of one step
  have hstart : Agree (Number.ceil (low / step) * step) (Number.ceil (low' / step) * step) :=
    (hlow.div step).ceil.mul step
  have hlast : Agree (Number.floor (high / step) * step) (Number.floor (high' / step) * step) :=
    (hhigh.div step).floor.mul step
  constructor
  · have hgaps := (((hlast.sub hstart).div step).round.greater (.refl 0.0)).toCount_eq
    exact congrArg (· + 1) hgaps
  · exact fun i => hstart.add _

theorem values_agree (hlow : Agree low low') (hhigh : Agree high high') (wanted : Nat) :
    List.Forall₂ Agree (nice low high wanted).values (nice low' high' wanted).values := by
  obtain ⟨hcount, hvalue⟩ := nice_agree hlow hhigh wanted
  rw [values, values, hcount, List.forall₂_map_left_iff, List.forall₂_map_right_iff, List.forall₂_same]
  exact fun i _ => hvalue i

end Ticks

end LatencyPlot
