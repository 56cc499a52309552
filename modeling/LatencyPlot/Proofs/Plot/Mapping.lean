/-
  LatencyPlot.Proofs.Plot.Mapping

  How latencies are mapped to heights, in exact arithmetic. The heights are
  counted from the top, so they fall as latencies grow; bounds that are upside
  down turn this around. The bounds themselves are at the edges of the plot
  area, and what is between them is inside it.
-/
import LatencyPlot.Plot.Frame
import LatencyPlot.Proofs.Number.Fraction

namespace LatencyPlot

open Number

namespace Frame

variable {f : Frame ℚ} {v a b : ℚ}

/-! ## The mapping -/

/-- The signed number of latencies over the height of the plot area; one if the bounds meet. -/
def scale (f : Frame ℚ) : ℚ := if f.bounds.span = 0 then 1 else f.bounds.span

theorem y_eq (f : Frame ℚ) (v : ℚ) :
    f.y v = f.top + f.height - (v - f.bounds.min) / f.scale * f.height := by
  have hscale : (if f.bounds.span == 0.0 then 1.0 else f.bounds.span) = f.scale := by
    rw [scale, show (0.0 : ℚ) = 0 by norm_num, show (1.0 : ℚ) = 1 by norm_num]
    exact if_congr beq_iff_eq rfl rfl
  rw [← hscale]
  rfl

theorem scale_of_span_ne_zero (h : f.bounds.span ≠ 0) : f.scale = f.bounds.span := if_neg h

theorem scale_pos (h : 0 ≤ f.bounds.span) : 0 < f.scale := by
  rcases h.eq_or_lt with hmeet | hapart
  · rw [scale, if_pos hmeet.symm]
    exact one_pos
  · rwa [scale_of_span_ne_zero hapart.ne']

theorem scale_neg (h : f.bounds.span < 0) : f.scale < 0 := by
  rwa [scale_of_span_ne_zero h.ne]

theorem y_sub_y (f : Frame ℚ) (v w : ℚ) : f.y w - f.y v = (v - w) / f.scale * f.height := by
  rw [y_eq, y_eq]
  ring

/-- Heights fall as latencies grow, also where the bounds meet. -/
theorem strictAnti_y (hheight : 0 < f.height) (h : 0 ≤ f.bounds.span) : StrictAnti f.y := by
  intro v w hlt
  have hrise : (v - w) / f.scale * f.height < 0 :=
    mul_neg_of_neg_of_pos (div_neg_of_neg_of_pos (sub_neg.mpr hlt) (scale_pos h)) hheight
  rwa [← y_sub_y, sub_neg] at hrise

/-- Bounds that are upside down turn the axis around. -/
theorem strictMono_y (hheight : 0 < f.height) (h : f.bounds.span < 0) : StrictMono f.y := by
  intro v w hlt
  have hrise : 0 < (v - w) / f.scale * f.height :=
    mul_pos (div_pos_of_neg_of_neg (sub_neg.mpr hlt) (scale_neg h)) hheight
  rwa [← y_sub_y, sub_pos] at hrise

/-- What is between two latencies is drawn between them, whichever way the axis goes. -/
theorem y_mem_uIcc_iff (hheight : 0 < f.height) :
    f.y v ∈ Set.uIcc (f.y a) (f.y b) ↔ v ∈ Set.uIcc a b := by
  rw [Set.mem_uIcc, Set.mem_uIcc]
  rcases le_or_gt 0 f.bounds.span with hspan | hspan
  · simp only [(strictAnti_y hheight hspan).le_iff_ge]
    tauto
  · simp only [(strictMono_y hheight hspan).le_iff_le]

/-! ## The plot area -/

theorem y_min (f : Frame ℚ) : f.y f.bounds.min = f.top + f.height := by
  rw [y_eq, sub_self, zero_div, zero_mul, sub_zero]

theorem y_max (h : f.bounds.span ≠ 0) : f.y f.bounds.max = f.top := by
  rw [y_eq, scale_of_span_ne_zero h]
  have hone : (f.bounds.max - f.bounds.min) / f.bounds.span = 1 := div_self h
  rw [hone, one_mul, add_sub_cancel_right]

/-- A latency is drawn in the plot area exactly if it is between the bounds. -/
theorem y_mem_area_iff (hheight : 0 < f.height) (h : f.bounds.span ≠ 0) :
    (f.top ≤ f.y v ∧ f.y v ≤ f.top + f.height) ↔
      min f.bounds.min f.bounds.max ≤ v ∧ v ≤ max f.bounds.min f.bounds.max := by
  have harea : Set.uIcc (f.y f.bounds.min) (f.y f.bounds.max) =
      Set.Icc f.top (f.top + f.height) := by
    rw [y_min, y_max h]
    exact Set.uIcc_of_ge (le_add_of_nonneg_right hheight.le)
  rw [← Set.mem_Icc, ← harea]
  exact y_mem_uIcc_iff hheight

theorem one_le_height_ofStyle (style : Style ℚ) (n : ℕ) (bounds : Bounds ℚ) :
    1 ≤ (ofStyle style n bounds).height := by
  show 1 ≤ ratGreater _ 1.0
  rw [ratGreater_eq, show (1.0 : ℚ) = 1 by norm_num]
  exact le_max_right _ 1

theorem one_le_width_ofStyle (style : Style ℚ) (n : ℕ) (bounds : Bounds ℚ) :
    1 ≤ (ofStyle style n bounds).width := by
  show 1 ≤ ratGreater _ 1.0
  rw [ratGreater_eq, show (1.0 : ℚ) = 1 by norm_num]
  exact le_max_right _ 1

end Frame

end LatencyPlot
