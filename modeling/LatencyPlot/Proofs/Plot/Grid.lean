/-
  LatencyPlot.Proofs.Plot.Grid

  The grid of a plot in exact arithmetic. Unless the bounds nearly meet there
  are two to six grid lines. They cross the plot area, each one the same
  distance from the next, upwards or, if the bounds are upside down, downwards,
  and there is no room for another one at that distance.
-/
import LatencyPlot.Proofs.Axis.Nice
import LatencyPlot.Proofs.Plot.Mapping
import LatencyPlot.Proofs.Plot.Shapes

namespace LatencyPlot

open Number

namespace Ticks

variable {low high : ℚ} {wanted : ℕ}

/-- Each tick is a step from the next. -/
theorem isChain_values (t : Ticks ℚ) : t.values.IsChain fun v w => w = v + t.step := by
  rw [values, List.isChain_map, List.isChain_range]
  intro i _
  show t.start + t.step * ((i + 1 : ℕ) : ℚ) = t.start + t.step * (i : ℚ) + t.step
  push_cast
  ring

/-- Where a step fits between the ends twice, so do two of its multiples. -/
theorem first_lt_last {step : ℚ} (hpos : 0 < step) (h : 2 * step ≤ high - low) :
    first low step < last high step := by
  have hlast : high / step < last high step + 1 := Int.lt_floor_add_one _
  have hfirst : (first low step : ℚ) < low / step + 1 := Int.ceil_lt_add_one _
  have htwo : 2 ≤ high / step - low / step := by rwa [← sub_div, le_div_iff₀ hpos]
  exact_mod_cast (by linarith : (first low step : ℚ) < last high step)

/-- A multiple of the step away from a tick, and still between the ends, is another tick. -/
theorem add_mul_mem_values_nice (hpos : 0 < niceStep low high wanted) {v : ℚ}
    (hv : v ∈ (nice low high wanted).values) {k : ℤ}
    (hlow : low ≤ v + k * niceStep low high wanted)
    (hhigh : v + k * niceStep low high wanted ≤ high) :
    v + k * niceStep low high wanted ∈ (nice low high wanted).values := by
  obtain ⟨i, -, rfl⟩ := (mem_values_nice hpos).mp hv
  rw [← add_mul, ← Int.cast_add] at hlow hhigh ⊢
  exact mul_mem_values_nice hpos hlow hhigh

end Ticks

namespace Frame

open Ticks

variable {f : Frame ℚ}

/-! ## Ticks of an axis -/

/-- The distance between the ticks of an axis. -/
def tickStep (f : Frame ℚ) : ℚ :=
  niceStep (min f.bounds.min f.bounds.max) (max f.bounds.min f.bounds.max) wantedTicks

/-- Whether the bounds are far enough apart for a grid. -/
def HasGrid (f : Frame ℚ) : Prop := 1 / 10 ^ 9 ≤ |f.bounds.max - f.bounds.min|

theorem hasGrid_iff : f.HasGrid ↔
    1 / 10 ^ 9 ≤ max f.bounds.min f.bounds.max - min f.bounds.min f.bounds.max := by
  rw [HasGrid, ← max_sub_min_eq_abs, max_comm, min_comm]

theorem HasGrid.span_ne_zero (h : f.HasGrid) : f.bounds.span ≠ 0 := by
  intro hspan
  have hmeet : f.bounds.max - f.bounds.min = 0 := hspan
  rw [HasGrid, hmeet, abs_zero] at h
  norm_num at h

theorem HasGrid.tickStep_pos (h : f.HasGrid) : 0 < f.tickStep :=
  (isNice_step (hasGrid_iff.mp h)).2.1

theorem HasGrid.ticks_eq (h : f.HasGrid) :
    f.ticks = (nice (min f.bounds.min f.bounds.max) (max f.bounds.min f.bounds.max)
      wantedTicks).values := by
  rw [Frame.ticks_eq, if_neg (not_lt.mpr (hasGrid_iff.mp h))]

theorem HasGrid.length_ticks (h : f.HasGrid) : 2 ≤ f.ticks.length ∧ f.ticks.length ≤ 6 := by
  obtain ⟨-, hpos, hhalf⟩ := isNice_step (hasGrid_iff.mp h)
  rw [h.ticks_eq, length_values]
  refine ⟨?_, count_nice_le (hasGrid_iff.mp h) (by decide)⟩
  have horder := first_lt_last hpos ((le_div_iff₀' two_pos).mp hhalf)
  rw [nice_eq hpos]
  dsimp only
  omega

theorem HasGrid.isChain_ticks (h : f.HasGrid) : f.ticks.IsChain fun v w => w = v + f.tickStep := by
  rw [h.ticks_eq]
  exact isChain_values (nice (min f.bounds.min f.bounds.max) (max f.bounds.min f.bounds.max)
    wantedTicks)

theorem HasGrid.add_mul_mem_ticks (h : f.HasGrid) {v : ℚ} (hv : v ∈ f.ticks) {k : ℤ}
    (hlow : min f.bounds.min f.bounds.max ≤ v + k * f.tickStep)
    (hhigh : v + k * f.tickStep ≤ max f.bounds.min f.bounds.max) : v + k * f.tickStep ∈ f.ticks := by
  rw [h.ticks_eq] at hv ⊢
  exact add_mul_mem_values_nice h.tickStep_pos hv hlow hhigh

/-! ## Grid lines -/

/-- How much lower the next grid line is than one; negative where it is higher. -/
def gridGap (f : Frame ℚ) : ℚ := -(f.tickStep / f.scale * f.height)

theorem y_add_mul_tickStep (f : Frame ℚ) (v k : ℚ) :
    f.y (v + k * f.tickStep) = f.y v + k * f.gridGap := by
  rw [y_eq, y_eq, gridGap]
  ring

theorem HasGrid.gridGap_ne_zero (h : f.HasGrid) (hheight : 0 < f.height) : f.gridGap ≠ 0 := by
  have hscale : f.scale ≠ 0 := by
    rw [scale_of_span_ne_zero h.span_ne_zero]
    exact h.span_ne_zero
  exact neg_ne_zero.mpr (mul_ne_zero (div_ne_zero h.tickStep_pos.ne' hscale) hheight.ne')

theorem HasGrid.gridGap_neg (h : f.HasGrid) (hheight : 0 < f.height)
    (hup : f.bounds.min < f.bounds.max) : f.gridGap < 0 :=
  neg_neg_of_pos (mul_pos (div_pos h.tickStep_pos (scale_pos (sub_pos.mpr hup).le)) hheight)

theorem HasGrid.gridGap_pos (h : f.HasGrid) (hheight : 0 < f.height)
    (hdown : f.bounds.max < f.bounds.min) : 0 < f.gridGap :=
  neg_pos_of_neg
    (mul_neg_of_neg_of_pos (div_neg_of_pos_of_neg h.tickStep_pos (scale_neg (sub_neg.mpr hdown)))
      hheight)

/-- A grid as it ought to be: two to six level lines across the plot area and inside it, each one
    the same distance below the one before, and no room for another line at this distance. -/
structure IsGrid (f : Frame ℚ) (lines : List (Segment ℚ)) (gap : ℚ) : Prop where
  two_le : 2 ≤ lines.length
  le_six : lines.length ≤ 6
  across : ∀ s ∈ lines, s.x1 = f.left ∧ s.x2 = f.left + f.width
  level : ∀ s ∈ lines, s.y2 = s.y1
  gap_ne_zero : gap ≠ 0
  inside : ∀ s ∈ lines, f.top ≤ s.y1 ∧ s.y1 ≤ f.top + f.height
  spaced : lines.IsChain fun s t => t.y1 = s.y1 + gap
  complete : ∀ s ∈ lines, ∀ k : ℤ, f.top ≤ s.y1 + k * gap → s.y1 + k * gap ≤ f.top + f.height →
    ∃ t ∈ lines, t.y1 = s.y1 + k * gap

theorem HasGrid.isGrid (h : f.HasGrid) (hheight : 0 < f.height) :
    f.IsGrid f.gridLines f.gridGap := by
  obtain ⟨htwo, hsix⟩ := h.length_ticks
  have harea {v : ℚ} := f.y_mem_area_iff (v := v) hheight h.span_ne_zero
  refine ⟨?_, ?_, ?_, ?_, h.gridGap_ne_zero hheight, ?_, ?_, ?_⟩
  · rwa [gridLines, List.length_map]
  · rwa [gridLines, List.length_map]
  · exact List.forall_mem_map.mpr fun v _ => ⟨rfl, rfl⟩
  · exact List.forall_mem_map.mpr fun v _ => rfl
  · exact List.forall_mem_map.mpr fun v hv => harea.mpr (mem_Icc_of_mem_ticks hv)
  · rw [gridLines, List.isChain_map]
    refine h.isChain_ticks.imp fun v w hstep => ?_
    have hnext := f.y_add_mul_tickStep v 1
    rw [one_mul, one_mul] at hnext
    rw [hstep]
    exact hnext
  · refine List.forall_mem_map.mpr fun v hv k htop hbottom => ?_
    -- what is inside the plot area comes from between the bounds, where all multiples are ticks
    have hmapped : f.y (v + k * f.tickStep) = (f.gridLine v).y1 + k * f.gridGap :=
      f.y_add_mul_tickStep v k
    rw [← hmapped] at htop hbottom
    obtain ⟨hlow, hhigh⟩ := harea.mp ⟨htop, hbottom⟩
    exact ⟨_, List.mem_map_of_mem (h.add_mul_mem_ticks hv hlow hhigh), hmapped⟩

/-- **The grid of an axis.** In a plot area of any size, bounds that are at least a thousand
    millionth apart have a grid as it ought to be, whichever of them is the greater one. It climbs
    from the bottom if the first one is the lesser, and descends otherwise. Bounds that are closer
    have no grid. The written drawing, where the numbers are doubles, shows these lines and no other
    ones of the kind. -/
theorem isGrid_gridLines :
    (∀ f : Frame ℚ, 0 < f.height →
      (1 / 10 ^ 9 ≤ |f.bounds.max - f.bounds.min| →
        ∃ gap, f.IsGrid f.gridLines gap ∧ (f.bounds.min < f.bounds.max → gap < 0) ∧
          (f.bounds.max < f.bounds.min → 0 < gap)) ∧
      (|f.bounds.max - f.bounds.min| < 1 / 10 ^ 9 → f.gridLines = [])) ∧
    ∀ (style : Style Float) (bounds : Bounds Float) (records : List (Record Float)),
      ∃ layout, Markup.read (renderPlot records bounds style).toList = some layout ∧
        Drawing.Shows (Frame.ofStyle style records.length bounds) records layout.tags := by
  refine ⟨fun f hheight => ⟨fun h => ?_, fun hclose => ?_⟩,
    fun style bounds records => Drawing.shows_renderPlot records bounds style⟩
  · have hgrid : f.HasGrid := h
    exact ⟨f.gridGap, hgrid.isGrid hheight, hgrid.gridGap_neg hheight, hgrid.gridGap_pos hheight⟩
  · rw [gridLines, Frame.ticks_eq, if_pos (not_le.mp (mt hasGrid_iff.mpr (not_le.mpr hclose))),
      List.map_nil]

/-- Bounds that are upside down, 100 and 1, on a canvas of the default size: the grid descends. -/
theorem isGrid_gridLines_inverted :
    let f := Frame.ofStyle (⟨900, 500, "", defaultXLabel, defaultYLabel⟩ : Style ℚ) 1 ⟨100, 1⟩
    0 < f.height ∧ ∃ gap, f.IsGrid f.gridLines gap ∧ 0 < gap := by
  intro f
  have hheight : 0 < f.height := zero_lt_one.trans_le (one_le_height_ofStyle _ _ _)
  have hmin : f.bounds.min = 100 := rfl
  have hmax : f.bounds.max = 1 := rfl
  obtain ⟨gap, hgrid, -, hdown⟩ :=
    (isGrid_gridLines.1 f hheight).1 (by rw [hmin, hmax]; norm_num)
  exact ⟨hheight, gap, hgrid, hdown (by rw [hmin, hmax]; norm_num)⟩

end Frame

end LatencyPlot
