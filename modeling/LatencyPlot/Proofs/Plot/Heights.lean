/-
  LatencyPlot.Proofs.Plot.Heights

  Where the marks of a record stand on the latency axis depends on the record
  and on the frame alone, and all drawings of the same records have frames that
  put every latency at one height and have one grid. So a drawing stands in any
  of these frames (`Stands`), in whatever order its boxes come.
-/
import LatencyPlot.Proofs.Axis.Agree
import LatencyPlot.Proofs.Plot.Structure

namespace LatencyPlot

open Markup
open Number (Agree sign?)
open Float.Model.UnpackedFloat (Sign)

/-! ## Frames -/

namespace Frame

variable {f f' : Frame Float} {v v' : Float}

/-- Frames of one plot area with bounds that are the same numbers. -/
structure Agrees (f f' : Frame Float) : Prop where
  left : f.left = f'.left
  top : f.top = f'.top
  width : f.width = f'.width
  height : f.height = f'.height
  bounds : f.bounds.Agrees f'.bounds

/-- Whether the height that latencies are counted from is a number and no minus zero. -/
def HasBase (f : Frame Float) : Prop :=
  sign? (f.top + f.height).toModel.unpack = some .positive

theorem agrees_ofStyle {b b' : Bounds Float} (h : b.Agrees b') (style : Style Float) (n : Nat) :
    Agrees (ofStyle style n b) (ofStyle style n b') :=
  ⟨rfl, rfl, rfl, rfl, h⟩

theorem sign?_greater_one (x : Float) :
    sign? (Number.greater x 1.0).toModel.unpack = some .positive := by
  rw [Number.greater]
  split
  · rfl
  · next hchosen =>
    rw [Bool.or_eq_true, decide_eq_true_iff, not_or, Number.le_iff_unpack] at hchosen
    obtain ⟨hnumber, habove⟩ := hchosen
    have hnumber : ¬ x.toModel.unpack.isNaN = true := hnumber
    generalize x.toModel.unpack = u at *
    rcases u with (_ | _) | _ | s | ⟨_ | _, m, e, hm⟩
    · exact absurd rfl habove
    · rfl
    · exact absurd rfl hnumber
    · exact absurd rfl habove
    · exact absurd rfl habove
    · rfl

theorem hasBase_ofStyle (style : Style Float) (n : Nat) (b : Bounds Float) :
    HasBase (ofStyle style n b) := by
  have htop : sign? (ofStyle style n b).top.toModel.unpack = some .positive := by
    show sign? (Float.toModel (if style.title.isEmpty then 14.0 else 38.0)).unpack = _
    split <;> rfl
  show sign? (Float.Model.pack (.add .binary64 _ _)).unpack = _
  rw [Number.sign?_unpack_pack]
  exact Number.sign?_add htop (sign?_greater_one _) _

/-- Frames that agree put the same numbers at one height. -/
theorem Agrees.y_eq (h : f.Agrees f') (hbase : f.HasBase) (hv : Agree v v') : f.y v = f'.y v' := by
  have hspan := h.bounds.span
  have hzero : (f.bounds.span == 0.0) = (f'.bounds.span == 0.0) := hspan.beq_eq (.refl 0.0)
  have hfrom : Agree (v - f.bounds.min) (v' - f'.bounds.min) := hv.sub h.bounds.min
  have hbase' : (f.top + f.height).toModel.unpack ≠ .zero .negative := by
    intro heq
    rw [HasBase, heq] at hbase
    cases hbase
  unfold y
  rw [← h.top, ← h.height, ← hzero]
  -- where the bounds meet, one stands for their distance
  cases hmeet : f.bounds.span == 0.0 with
  | true => exact ((hfrom.div 1.0).mul f.height).sub_eq hbase'
  | false => exact ((hfrom.div_of_ne_zero hspan hmeet).mul f.height).sub_eq hbase'

theorem Agrees.ticks (h : f.Agrees f') : List.Forall₂ Agree f.ticks f'.ticks := by
  have hlow : Agree (Scalar.lesser f.bounds.min f.bounds.max)
      (Scalar.lesser f'.bounds.min f'.bounds.max) := h.bounds.min.lesser h.bounds.max
  have hhigh : Agree (Scalar.greater f.bounds.min f.bounds.max)
      (Scalar.greater f'.bounds.min f'.bounds.max) := h.bounds.min.greater h.bounds.max
  have hmeet := (hhigh.sub hlow).lt_iff (.refl 1e-9)
  unfold Frame.ticks
  dsimp only
  -- bounds that are too close have no ticks, in both frames or in none
  by_cases hclose : Scalar.greater f.bounds.min f.bounds.max -
      Scalar.lesser f.bounds.min f.bounds.max < 1e-9
  · rw [if_pos hclose, if_pos (hmeet.mp hclose)]
    exact .nil
  · rw [if_neg hclose, if_neg (mt hmeet.mpr hclose)]
    exact Ticks.values_agree hlow hhigh wantedTicks

end Frame

/-- Lists of related members are mapped to one list by functions that take related members to the
    same. -/
theorem map_eq_map_of_forall₂ {α β γ : Type} {r : α → β → Prop} {xs : List α} {ys : List β}
    (h : List.Forall₂ r xs ys) {g : α → γ} {g' : β → γ} (hg : ∀ x y, r x y → g x = g' y) :
    xs.map g = ys.map g' := by
  rw [← List.forall₂_eq_eq_eq, List.forall₂_map_left_iff, List.forall₂_map_right_iff]
  exact h.imp hg

namespace Drawing

variable {f f' : Frame Float} {style : Style Float} {records : List (Record Float)}
  {layout : Layout Token}

/-! ## What is drawn around the boxes -/

theorem grid_eq (h : f.Agrees f') (hbase : f.HasBase) : grid f = grid f' := by
  have hline : ∀ v v', Agree v v' → gridLine f v = gridLine f' v' := by
    intro v v' hv
    rw [gridLine, gridLine, h.y_eq hbase hv, hv.tickText_eq, h.left, h.width]
  rw [grid, grid, List.flatMap_def, List.flatMap_def, map_eq_map_of_forall₂ h.ticks hline]

theorem surroundings_eq (h : f.Agrees f') (hbase : f.HasBase) (style : Style Float) :
    surroundings style f = surroundings style f' := by
  simp only [surroundings, grid_eq h hbase, clip, background, yTitle, xTitle, h.left, h.top, h.width,
    h.height]

theorem texts_eq (h : f.Agrees f') (style : Style Float) (records : List (Record Float)) :
    texts f style records = texts f' style records := by
  have hticks : f.ticks.map (fun v => ((none : Option String), tickText v)) =
      f'.ticks.map fun v => (none, tickText v) :=
    map_eq_map_of_forall₂ h.ticks fun v v' hv => by rw [hv.tickText_eq]
  rw [texts, texts, hticks]

theorem labels_eq (h : f.Agrees f') (records : List (Record Float)) :
    labels f records = labels f' records := by
  have hslot : ∀ n, f.slot n = f'.slot n := fun n => by rw [Frame.slot, Frame.slot, h.width]
  simp only [labels, label, Frame.centre, hslot, h.left, h.top, h.height]

/-! ## Boxes -/

/-- The attributes of a tag that place it on the latency axis. -/
def verticals : Token → List Attribute
  | .opening _ attributes | .empty _ attributes =>
    attributes.filter fun a => ["y", "y1", "y2", "height"].contains a.name
  | _ => []

/-- The marks of a record by their classes, and where they stand on the latency axis. -/
def heightsOf (f : Frame Float) (r : Record Float) : List (Option String × List Attribute) :=
  let between (y1 y2 : Float) := [coordinate "y1" y1, coordinate "y2" y2]
  [(some "whisker", between (f.y r.p25) (f.y r.low)),
    (some "cap", between (f.y r.low) (f.y r.low)),
    (some "whisker", between (f.y r.p75) (f.y r.high)),
    (some "cap", between (f.y r.high) (f.y r.high)),
    (some "box", [coordinate "y" (Number.lesser (f.y r.p75) (f.y r.p25)),
      coordinate "height" (f.y r.p25 - f.y r.p75).abs]),
    (some "median", between (f.y r.median) (f.y r.median))]

theorem heightsOf_eq (h : f.Agrees f') (hbase : f.HasBase) : heightsOf f = heightsOf f' := by
  have hy : f.y = f'.y := funext fun v => h.y_eq hbase (.refl v)
  funext r
  rw [heightsOf, heightsOf, hy]

/-- The slot of a record does not tell in the heights of its marks. -/
theorem heights_marks (f : Frame Float) (n i : Nat) (r : Record Float) :
    (marks (Box.ofRecord f n i r)).map (fun t => (t.class?, verticals t)) = heightsOf f r := rfl

theorem heights_boxes (f : Frame Float) (records : List (Record Float)) :
    ((boxes f records).map marks).map (fun part => part.map fun t => (t.class?, verticals t)) =
      records.map (heightsOf f) := by
  rw [boxes]
  apply List.ext_getElem
  · simp only [List.length_map, List.length_mapIdx]
  · intro i hi hi'
    simp only [List.getElem_map, List.getElem_mapIdx]
    exact heights_marks f records.length i _

/-- Whether a drawing shows some records in a frame: around the boxes it is as the frame and the
    style say, and the marks of each record stand where the record says, on the latency axis of the
    frame. -/
structure Stands (f : Frame Float) (style : Style Float) (records : List (Record Float))
    (layout : Layout Token) : Prop where
  tags : ∃ parts : List (List Token), layout.tags = tagsOf (root style) ++ tagsOf (surroundings style f) ++
      .opening "g" [⟨"clip-path", "url(#plot-area)"⟩] ::
        (parts.flatten ++ .closing "g" :: (tagsOf (labels f records) ++ [.closing "svg"])) ∧
    parts.map (fun part => part.map fun t => (t.class?, verticals t)) = records.map (heightsOf f)
  texts : elements "text" layout.chunks = (texts f style records).map elementOf

theorem stands_outline (records : List (Record Float)) (bounds : Bounds Float)
    (style : Style Float) :
    Stands (Frame.ofStyle style records.length bounds) style records
      (outline (drawing records bounds style)) where
  tags := by
    let f := Frame.ofStyle style records.length bounds
    refine ⟨(boxes f records).map marks, ?_, heights_boxes f records⟩
    rw [tags_outline, drawing_eq, tagsOf_append, tagsOf_append, tagsOf_append, tagsOf_append,
      tagsOf_boxGroup, tagsOf_line [.closing "svg"]]
    simp only [List.append_assoc, List.cons_append, List.nil_append, f]
    rfl
  texts := elementsOf_drawing records bounds style

/-- A drawing that stands in a frame stands in all that agree with it. -/
theorem Stands.of_agrees (hstands : Stands f' style records layout) (h : f.Agrees f')
    (hbase : f.HasBase) : Stands f style records layout where
  tags := by
    rw [surroundings_eq h hbase, labels_eq h, heightsOf_eq h hbase]
    exact hstands.tags
  texts := by
    rw [texts_eq h]
    exact hstands.texts

end Drawing

end LatencyPlot
