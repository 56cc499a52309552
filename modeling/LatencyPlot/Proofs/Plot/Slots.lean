/-
  LatencyPlot.Proofs.Plot.Slots

  How boxes are spread across the plot area, in exact arithmetic. The middles of
  the slots are evenly spaced and symmetric, and every mark of a record and its
  label keep to the middle of its slot. A box is as wide as half a slot, within
  limits; a slot of a pixel or more has room for it, so that boxes do not
  overlap.
-/
import LatencyPlot.Proofs.Plot.Mapping
import LatencyPlot.Proofs.Plot.Shapes

namespace LatencyPlot

open Number

theorem Number.clamp_eq (x : ℚ) : Scalar.clamp x 1.0 80.0 = max 1 (min x 80) := by
  rw [Scalar.clamp, show (1.0 : ℚ) = 1 by norm_num, show (80.0 : ℚ) = 80 by norm_num]
  split
  · next hlow => rw [min_eq_left (by linarith), max_eq_left hlow.le]
  · next hlow =>
    split
    · next hhigh => rw [min_eq_right hhigh.le, max_eq_right (by norm_num)]
    · next hhigh => rw [min_eq_left (not_lt.mp hhigh), max_eq_right (not_lt.mp hlow)]

namespace Frame

variable {f : Frame ℚ} {n i j : ℕ}

/-! ## Slots -/

theorem slot_eq (f : Frame ℚ) (hn : 0 < n) : f.slot n = f.width / n := by
  show f.width / ((max n 1 : ℕ) : ℚ) = _
  rw [max_eq_left hn]

theorem slot_pos (hwidth : 0 < f.width) (hn : 0 < n) : 0 < f.slot n := by
  rw [slot_eq f hn]
  exact div_pos hwidth (by exact_mod_cast hn)

theorem mul_slot (f : Frame ℚ) (hn : 0 < n) : n * f.slot n = f.width := by
  rw [slot_eq f hn]
  exact mul_div_cancel₀ _ (by exact_mod_cast hn.ne')

theorem centre_eq (f : Frame ℚ) (n i : ℕ) : f.centre n i = f.left + (i + 1 / 2) * f.slot n := by
  rw [show (1 / 2 : ℚ) = 0.5 by norm_num]
  rfl

theorem centre_succ (f : Frame ℚ) (n i : ℕ) : f.centre n (i + 1) = f.centre n i + f.slot n := by
  rw [centre_eq, centre_eq]
  push_cast
  ring

/-- Slots that are apart have middles that are a slot apart. -/
theorem centre_add_slot_le (hwidth : 0 < f.width) (hn : 0 < n) (hij : i < j) :
    f.centre n i + f.slot n ≤ f.centre n j := by
  rw [← centre_succ, centre_eq, centre_eq]
  have hcast : ((i + 1 : ℕ) : ℚ) ≤ j := by exact_mod_cast hij
  have hslot := (slot_pos hwidth hn).le
  gcongr

/-- A slot is in the plot area as a whole. -/
theorem half_slot_le (hwidth : 0 < f.width) (hi : i < n) :
    f.left + f.slot n / 2 ≤ f.centre n i ∧ f.centre n i + f.slot n / 2 ≤ f.left + f.width := by
  have hn : 0 < n := by omega
  have hslot := (slot_pos hwidth hn).le
  have hbefore : 0 ≤ i * f.slot n := by positivity
  have hbehind : ((i + 1 : ℕ) : ℚ) * f.slot n ≤ n * f.slot n := by
    gcongr
    exact hi
  rw [mul_slot f hn] at hbehind
  push_cast at hbehind
  rw [centre_eq]
  constructor <;> linarith

/-- The middles of two slots that are as far from either side are so from the middle of the plot
    area. -/
theorem centre_add_centre (f : Frame ℚ) (hij : i + j + 1 = n) :
    f.centre n i + f.centre n j = 2 * f.left + f.width := by
  have hn : 0 < n := by omega
  have hcast : (i : ℚ) + j + 1 = n := by exact_mod_cast hij
  rw [centre_eq, centre_eq, ← mul_slot f hn, ← hcast]
  ring

/-! ## Widths of boxes -/

theorem boxWidth_eq (f : Frame ℚ) (n : ℕ) : f.boxWidth n = max 1 (min (f.slot n / 2) 80) := by
  rw [← clamp_eq, show f.slot n / 2 = f.slot n * 0.5 by norm_num; ring]
  rfl

theorem boxWidth_pos (f : Frame ℚ) (n : ℕ) : 0 < f.boxWidth n := by
  rw [boxWidth_eq]
  exact zero_lt_one.trans_le (le_max_left _ _)

/-- A slot of a pixel has room for a box, whichever of its limits the width is at. -/
theorem boxWidth_le_slot (h : 1 ≤ f.slot n) : f.boxWidth n ≤ f.slot n := by
  rw [boxWidth_eq]
  exact max_le h ((min_le_left _ _).trans (by linarith))

theorem boxWidth_lt_slot (h : 1 < f.slot n) : f.boxWidth n < f.slot n := by
  rw [boxWidth_eq]
  exact max_lt h ((min_le_left _ _).trans_lt (by linarith))

theorem one_le_slot (hn : 0 < n) (h : n ≤ f.width) : 1 ≤ f.slot n := by
  rw [slot_eq f hn, one_le_div (by exact_mod_cast hn)]
  exact h

theorem one_lt_slot (hn : 0 < n) (h : n < f.width) : 1 < f.slot n := by
  rw [slot_eq f hn, one_lt_div (by exact_mod_cast hn)]
  exact h

end Frame

namespace Box

variable {f : Frame ℚ} {n i : ℕ} {r : Record ℚ}

theorem area_x (b : Box ℚ) : b.area.x = b.centre - b.width / 2 := by
  rw [show (2 : ℚ) = 2.0 by norm_num]
  rfl

theorem area_width (b : Box ℚ) : b.area.width = b.width := rfl

theorem x_of_mem_capLines {b : Box ℚ} {s : Segment ℚ} (h : s ∈ b.capLines) :
    s.x1 = b.centre - b.capWidth / 2 ∧ s.x2 = b.centre + b.capWidth / 2 := by
  obtain ⟨w, -, rfl⟩ := List.mem_map.mp h
  rw [show (2 : ℚ) = 2.0 by norm_num]
  exact ⟨rfl, rfl⟩

theorem x_of_mem_whiskerLines {b : Box ℚ} {s : Segment ℚ} (h : s ∈ b.whiskerLines) :
    s.x1 = b.centre ∧ s.x2 = b.centre := by
  obtain ⟨w, -, rfl⟩ := List.mem_map.mp h
  exact ⟨rfl, rfl⟩

end Box

/-! ## All boxes -/

/-- How boxes ought to be spread across a plot area: their middles evenly, from left to right, inside
    the area and symmetric about its middle; labels and whiskers at the middles, and caps no wider
    than the boxes. Where there is a pixel for each box, the boxes are inside the area as a whole and
    next to each other, and with more room they do not even touch. -/
structure Frame.Spreads (f : Frame ℚ) (records : List (Record ℚ)) : Prop where
  spaced : (boxes f records).IsChain fun b b' => b'.centre = b.centre + f.width / records.length
  increasing : (boxes f records).Pairwise fun b b' => b.centre < b'.centre
  inside : ∀ b ∈ boxes f records, f.left < b.centre ∧ b.centre < f.left + f.width
  symmetric : ((boxes f records).map Box.centre).reverse =
    ((boxes f records).map Box.centre).map fun x => 2 * f.left + f.width - x
  middle : ∀ b ∈ boxes f records, b.area.x + b.area.width / 2 = b.centre
  labels : (f.labelPoints records.length).map Point.x = (boxes f records).map Box.centre
  whiskers : ∀ b ∈ boxes f records, ∀ s ∈ b.whiskerLines, s.x1 = b.centre ∧ s.x2 = b.centre
  caps : ∀ b ∈ boxes f records, ∀ s ∈ b.capLines,
    b.area.x ≤ s.x1 ∧ s.x1 ≤ s.x2 ∧ s.x2 ≤ b.area.x + b.area.width
  contained : records.length ≤ f.width → ∀ b ∈ boxes f records,
    f.left ≤ b.area.x ∧ b.area.x + b.area.width ≤ f.left + f.width
  apart : records.length ≤ f.width → (boxes f records).Pairwise fun b b' =>
    b.area.x + b.area.width ≤ b'.area.x
  separate : records.length < f.width → (boxes f records).Pairwise fun b b' =>
    b.area.x + b.area.width < b'.area.x

variable {f : Frame ℚ} {records : List (Record ℚ)}

theorem reverse_centres (f : Frame ℚ) (n : ℕ) : ((List.range n).map (f.centre n)).reverse =
    ((List.range n).map (f.centre n)).map fun x => 2 * f.left + f.width - x := by
  apply List.ext_getElem
  · simp only [List.length_reverse, List.length_map]
  · intro i hi hi'
    rw [List.length_map, List.length_map, List.length_range] at hi'
    simp only [List.getElem_reverse, List.getElem_map, List.getElem_range, List.length_map,
      List.length_range]
    rw [eq_sub_iff_add_eq]
    exact f.centre_add_centre (by omega)

/-- A box of the width of a slot or less does not leave its slot. -/
theorem box_mem_slot {n i : ℕ} {r : Record ℚ} (h : f.boxWidth n ≤ f.slot n) :
    f.centre n i - f.slot n / 2 ≤ (Box.ofRecord f n i r).area.x ∧
      (Box.ofRecord f n i r).area.x + (Box.ofRecord f n i r).area.width ≤
        f.centre n i + f.slot n / 2 := by
  rw [Box.area_x, Box.area_width]
  show f.centre n i - f.slot n / 2 ≤ f.centre n i - f.boxWidth n / 2 ∧
    f.centre n i - f.boxWidth n / 2 + f.boxWidth n ≤ f.centre n i + f.slot n / 2
  constructor <;> linarith

/-- From box to box it is a slot at least. -/
theorem area_x_add_slot_le (hwidth : 0 < f.width) {n i j : ℕ} (hij : i < j) (hj : j < n)
    (r r' : Record ℚ) :
    (Box.ofRecord f n i r).area.x + f.slot n ≤ (Box.ofRecord f n j r').area.x := by
  have hnext := Frame.centre_add_slot_le hwidth (by omega : 0 < n) hij
  rw [Box.area_x, Box.area_x]
  show f.centre n i - f.boxWidth n / 2 + f.slot n ≤ f.centre n j - f.boxWidth n / 2
  linarith

theorem spreads_of_width_pos (hwidth : 0 < f.width) (records : List (Record ℚ)) :
    f.Spreads records where
  spaced := isChain_boxes fun i _ _ hi => by
    rw [← Frame.slot_eq f (by omega : 0 < records.length)]
    exact f.centre_succ records.length i
  increasing := pairwise_boxes fun i j _ _ hij hj => by
    have hn : 0 < records.length := by omega
    calc f.centre records.length i < f.centre records.length i + f.slot records.length :=
          lt_add_of_pos_right _ (Frame.slot_pos hwidth hn)
      _ ≤ f.centre records.length j := Frame.centre_add_slot_le hwidth hn hij
  inside := forall_boxes fun i _ hi => by
    have hslot := Frame.slot_pos hwidth (by omega : 0 < records.length)
    obtain ⟨hleft, hright⟩ := Frame.half_slot_le hwidth hi
    show f.left < f.centre records.length i ∧ f.centre records.length i < f.left + f.width
    constructor <;> linarith
  symmetric := by
    rw [map_centre_boxes, reverse_centres]
  middle := forall_boxes fun i _ _ => by
    rw [Box.area_x, Box.area_width, sub_add_cancel]
  labels := by
    rw [labelPoints_eq, List.map_map]
    rfl
  whiskers := fun _ _ _ hs => Box.x_of_mem_whiskerLines hs
  caps := forall_boxes fun i r _ s hs => by
    obtain ⟨hx1, hx2⟩ := Box.x_of_mem_capLines hs
    have hpos := f.boxWidth_pos records.length
    -- a cap is half as wide as the box, and both are about the middle
    have hcap : (Box.ofRecord f records.length i r).capWidth = f.boxWidth records.length / 2 := by
      rw [div_eq_mul_inv, show (2 : ℚ)⁻¹ = 0.5 by norm_num]
      rfl
    have hwidth : (Box.ofRecord f records.length i r).width = f.boxWidth records.length := rfl
    rw [hx1, hx2, hcap, Box.area_x, Box.area_width, hwidth]
    refine ⟨?_, ?_, ?_⟩ <;> linarith
  contained hroom := forall_boxes fun i r hi => by
    -- the box is in its slot, and the slot in the plot area
    have hbox := Frame.boxWidth_le_slot (Frame.one_le_slot (by omega) hroom)
    obtain ⟨hleft, hright⟩ := Frame.half_slot_le hwidth hi
    obtain ⟨hx, hend⟩ := box_mem_slot (i := i) (r := r) hbox
    exact ⟨by linarith, hend.trans hright⟩
  apart hroom := pairwise_boxes fun i j r r' hij hj => by
    -- all boxes are of one width, so their left edges are as far apart as the middles
    have hbox := Frame.boxWidth_le_slot (Frame.one_le_slot (by omega) hroom)
    exact (add_le_add_right hbox _).trans (area_x_add_slot_le hwidth hij hj r r')
  separate hroom := pairwise_boxes fun i j r r' hij hj => by
    have hbox := Frame.boxWidth_lt_slot (Frame.one_lt_slot (by omega) hroom)
    exact (add_lt_add_right hbox _).trans_le (area_x_add_slot_le hwidth hij hj r r')

/-- **Boxes across the plot area.** On a canvas of any width, and for any number of records, the
    boxes are spread as they ought to be. The written drawing, where the numbers are doubles, shows
    these boxes with their whiskers and caps, and each label has the middle of the box of its record
    for its place. -/
theorem spreads_ofStyle :
    (∀ (style : Style ℚ) (bounds : Bounds ℚ) (records : List (Record ℚ)),
      (Frame.ofStyle style records.length bounds).Spreads records) ∧
    ∀ (style : Style Float) (bounds : Bounds Float) (records : List (Record Float)),
      let f := Frame.ofStyle style records.length bounds
      ∃ layout, Markup.read (renderPlot records bounds style).toList = some layout ∧
        Drawing.Shows f records layout.tags ∧
        Markup.placesOf "text" (some "label") layout.tags =
          (boxes f records).map fun b => Drawing.place b.centre (f.top + f.height + 16.0) := by
  refine ⟨fun style bounds records => ?_, fun style bounds records => ?_⟩
  · exact spreads_of_width_pos (zero_lt_one.trans_le (Frame.one_le_width_ofStyle _ _ _)) records
  · obtain ⟨layout, hread, hshows⟩ := Drawing.shows_renderPlot records bounds style
    refine ⟨layout, hread, hshows, ?_⟩
    rw [hshows.labelPoints, labelPoints_eq, List.map_map]
    rfl

end LatencyPlot
