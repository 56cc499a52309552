/-
  LatencyPlot.Proofs.Plot.Edges

  Where boxes stand on the latency axis, in exact arithmetic. A box is drawn
  between the heights of its percentiles, whichever way the axis goes. One that
  is not upside down keeps the axis upright, whatever the other records are, and
  is inside the plot area as a whole; the median is drawn across it exactly if
  it is between the percentiles.
-/
import LatencyPlot.Proofs.Axis.Join
import LatencyPlot.Proofs.Plot.Mapping
import LatencyPlot.Proofs.Plot.Shapes

namespace LatencyPlot

open Number

namespace Rectangle

/-- The heights that a rectangle covers. -/
def heights (r : Rectangle ℚ) : Set ℚ := Set.Icc r.y (r.y + r.height)

end Rectangle

namespace Box

variable {f : Frame ℚ} {n i : ℕ} {r : Record ℚ}

theorem area_height (b : Box ℚ) : b.area.height = |b.yP25 - b.yP75| := ratAbs_eq _

theorem area_y (b : Box ℚ) : b.area.y = min b.yP75 b.yP25 := ratLesser_eq _ _

/-- A box covers what is between its edges, and nothing else. -/
theorem heights_area (b : Box ℚ) : b.area.heights = Set.uIcc b.yP25 b.yP75 := by
  have hlower : min b.yP75 b.yP25 + |b.yP25 - b.yP75| = max b.yP25 b.yP75 := by
    rw [min_comm, ← max_sub_min_eq_abs, max_comm, min_comm, add_sub_cancel]
  rw [Rectangle.heights, area_y, area_height, hlower, min_comm]
  rfl

/-- How the box of a record ought to stand in a plot area: it covers what is between its
    percentiles. If these are in order it is inside the area, and the median is on it exactly if it
    is between them. -/
structure StandsFor (b : Box ℚ) (f : Frame ℚ) (r : Record ℚ) : Prop where
  height_nonneg : 0 ≤ b.area.height
  heights_eq : b.area.heights = Set.uIcc (f.y r.p25) (f.y r.p75)
  level : b.medianLine.y2 = b.medianLine.y1
  inside : r.p25 ≤ r.p75 → b.area.heights ⊆ Set.Icc f.top (f.top + f.height)
  median_iff : r.p25 ≤ r.p75 →
    (b.medianLine.y1 ∈ b.area.heights ↔ r.p25 ≤ r.median ∧ r.median ≤ r.p75)

theorem medianLine_mem_heights_iff (hheight : 0 < f.height) :
    (ofRecord f n i r).medianLine.y1 ∈ (ofRecord f n i r).area.heights ↔
      r.median ∈ Set.uIcc r.p25 r.p75 := by
  rw [heights_area]
  exact Frame.y_mem_uIcc_iff hheight

theorem standsFor_ofRecord (hheight : 0 < f.height)
    (hbounds : r.p25 ≤ r.p75 → f.bounds.min ≤ r.p25 ∧ r.p75 + 1 ≤ f.bounds.max) :
    (ofRecord f n i r).StandsFor f r where
  height_nonneg := by
    rw [area_height]
    exact abs_nonneg _
  heights_eq := heights_area _
  level := rfl
  inside hle := by
    -- the margin above the 75th percentile keeps the axis upright: it cannot collapse or turn over
    obtain ⟨hmin, hmax⟩ := hbounds hle
    have hspan : f.bounds.span ≠ 0 :=
      (sub_pos.mpr (by linarith : f.bounds.min < f.bounds.max)).ne'
    have harea {v : ℚ} (hlow : f.bounds.min ≤ v) (hhigh : v ≤ f.bounds.max) :
        f.y v ∈ Set.Icc f.top (f.top + f.height) :=
      (Frame.y_mem_area_iff hheight hspan).mpr ⟨min_le_of_left_le hlow, le_max_of_le_right hhigh⟩
    rw [heights_area]
    exact Set.uIcc_subset_Icc (harea hmin (by linarith)) (harea (by linarith) (by linarith))
  median_iff hle := by
    rw [medianLine_mem_heights_iff hheight, Set.uIcc_of_le hle, Set.mem_Icc]

/-- A plot area that is a hundred pixels high, for latencies up to ten. -/
example : (boxes (Frame.ofStyle (⟨184, 158, "", "", defaultYLabel⟩ : Style ℚ) 1 ⟨0, 10⟩)
    [⟨"a", 0, 2, 3, 4, 6, 1⟩]).map Box.area = [⟨89, 74, 50, 20⟩] := by decide +kernel

end Box

/-- **Boxes on the latency axis.** Records have bounds, and in the plot area of any style the lower
    bound is at the bottom and the upper bound at the top, unless the bounds meet. Heights fall as
    latencies grow, or rise if the bounds are upside down. Every box stands as it ought to for its
    record: however many of the other records are out of order, a box that is in order is never
    clipped. The written drawing, where the numbers are doubles, shows these boxes and medians. -/
theorem boxes_standFor :
    (∀ (style : Style ℚ) (records : List (Record ℚ)), records ≠ [] →
      ∃ b, Bounds.ofRecords records = .ok b ∧
        let f := Frame.ofStyle style records.length b
        f.y b.min = f.top + f.height ∧ (b.span ≠ 0 → f.y b.max = f.top) ∧
        (0 ≤ b.span → StrictAnti f.y) ∧ (b.span < 0 → StrictMono f.y) ∧
        List.Forall₂ (fun r box => box.StandsFor f r) records (boxes f records)) ∧
    ∀ (style : Style Float) (bounds : Bounds Float) (records : List (Record Float)),
      ∃ layout, Markup.read (renderPlot records bounds style).toList = some layout ∧
        Drawing.Shows (Frame.ofStyle style records.length bounds) records layout.tags := by
  refine ⟨fun style records hne => ?_,
    fun style bounds records => Drawing.shows_renderPlot records bounds style⟩
  obtain ⟨b, hb, hugs⟩ := Bounds.exists_hugs_of_ne_nil hne
  refine ⟨b, hb, ?_⟩
  intro f
  have hheight : 0 < f.height := zero_lt_one.trans_le (Frame.one_le_height_ofStyle _ _ _)
  exact ⟨f.y_min, Frame.y_max (f := f), Frame.strictAnti_y hheight, Frame.strictMono_y hheight,
    forall₂_boxes fun _ r hr => Box.standsFor_ofRecord hheight fun _ =>
      ⟨hugs.min_le r hr, hugs.le_max r hr⟩⟩

/-- Two runs, of which the second is upside down. -/
def oneInOrder : List (Record ℚ) := [⟨"a", 1, 2, 3, 4, 5, 1⟩, ⟨"b", 0, 9, 5, 1, 0, 2⟩]

/-- The plot of two runs, of which the second is upside down. -/
theorem boxes_standFor_oneInOrder :
    oneInOrder ≠ [] ∧ ∃ b, Bounds.ofRecords oneInOrder = .ok b ∧
      let f := Frame.ofStyle (⟨900, 500, "", defaultXLabel, defaultYLabel⟩ : Style ℚ) 2 b
      List.Forall₂ (fun r box => box.StandsFor f r) oneInOrder (boxes f oneInOrder) := by
  have hne : oneInOrder ≠ [] := List.cons_ne_nil _ _
  obtain ⟨b, hb, -, -, -, -, hboxes⟩ :=
    boxes_standFor.1 ⟨900, 500, "", defaultXLabel, defaultYLabel⟩ oneInOrder hne
  exact ⟨hne, b, hb, hboxes⟩

end LatencyPlot
