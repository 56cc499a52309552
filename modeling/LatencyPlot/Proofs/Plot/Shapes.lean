/-
  LatencyPlot.Proofs.Plot.Shapes

  The lines, rectangles and points of a plot, over any kind of number. With
  doubles they are what a reader finds in the written drawing: the elements of
  each kind stand at these places, in this order, and there are no others of
  the kind. With fractions they are the geometry that is meant.
-/
import LatencyPlot.Proofs.Plot.Structure
import Mathlib.Data.List.Forall2

namespace LatencyPlot

open Markup

variable {α : Type}

/-! ## Shapes -/

/-- A line between two points of the canvas. -/
structure Segment (α : Type) where
  x1 : α
  y1 : α
  x2 : α
  y2 : α

/-- An upright rectangle by its upper left corner. -/
structure Rectangle (α : Type) where
  x : α
  y : α
  width : α
  height : α
  deriving DecidableEq

/-- A point of the canvas. -/
structure Point (α : Type) where
  x : α
  y : α

namespace Frame

variable [Scalar α]

/-- The grid line at a latency, across the plot area. -/
def gridLine (f : Frame α) (v : α) : Segment α := ⟨f.left, f.y v, f.left + f.width, f.y v⟩

/-- The grid lines, from the least tick on. -/
def gridLines (f : Frame α) : List (Segment α) := f.ticks.map f.gridLine

/-- The places of the labels of `n` records, below the middles of their slots. -/
def labelPoints (f : Frame α) (n : Nat) : List (Point α) :=
  (List.range n).map fun i => ⟨f.centre n i, f.top + f.height + 16.0⟩

end Frame

namespace Box

variable [Scalar α]

/-- The rectangle from the 25th to the 75th percentile. -/
def area (b : Box α) : Rectangle α := ⟨b.left, b.top, b.width, b.height⟩

/-- The median across the box. -/
def medianLine (b : Box α) : Segment α := ⟨b.left, b.yMedian, b.right, b.yMedian⟩

/-- The lines from the edges of the box to the extremes. -/
def whiskerLines (b : Box α) : List (Segment α) :=
  b.whiskers.map fun w => ⟨b.centre, w.edge, b.centre, w.extreme⟩

/-- The lines across the ends of the whiskers. -/
def capLines (b : Box α) : List (Segment α) :=
  b.whiskers.map fun w => ⟨b.capLeft, w.extreme, b.capRight, w.extreme⟩

end Box

/-! ## Boxes of records -/

section Boxes

variable [Scalar α] {f : Frame α} {records : List (Record α)}

theorem length_boxes (f : Frame α) (records : List (Record α)) :
    (boxes f records).length = records.length := List.length_mapIdx

theorem exists_getElem_boxes {i : Nat} (h : i < (boxes f records).length) :
    ∃ r ∈ records, (boxes f records)[i] = Box.ofRecord f records.length i r :=
  ⟨_, List.getElem_mem _, List.getElem_mapIdx⟩

/-- What holds of every record in its slot holds of every box. -/
theorem forall_boxes {p : Box α → Prop}
    (h : ∀ i r, i < records.length → p (Box.ofRecord f records.length i r)) :
    ∀ b ∈ boxes f records, p b := by
  intro b hb
  obtain ⟨i, hi, rfl⟩ := List.mem_mapIdx.mp hb
  exact h i _ hi

/-- What holds between a record and its marks, in whatever slot, holds record by record. -/
theorem forall₂_boxes {p : Record α → Box α → Prop}
    (h : ∀ i, ∀ r ∈ records, p r (Box.ofRecord f records.length i r)) :
    List.Forall₂ p records (boxes f records) := by
  rw [List.forall₂_iff_get, boxes]
  refine ⟨List.length_mapIdx.symm, fun i hi _ => ?_⟩
  rw [List.get_eq_getElem, List.get_eq_getElem, List.getElem_mapIdx]
  exact h i _ (List.getElem_mem hi)

/-- What holds of two slots, one to the left of the other, holds of their boxes. -/
theorem pairwise_boxes {p : Box α → Box α → Prop}
    (h : ∀ i j r r', i < j → j < records.length → p (Box.ofRecord f records.length i r)
      (Box.ofRecord f records.length j r')) : (boxes f records).Pairwise p := by
  rw [List.pairwise_iff_getElem]
  intro i j hi hj hij
  obtain ⟨r, -, hr⟩ := exists_getElem_boxes hi
  obtain ⟨r', -, hr'⟩ := exists_getElem_boxes hj
  rw [hr, hr']
  exact h i j r r' hij (length_boxes f records ▸ hj)

/-- What holds of two slots that follow each other holds of their boxes. -/
theorem isChain_boxes {p : Box α → Box α → Prop}
    (h : ∀ i r r', i + 1 < records.length → p (Box.ofRecord f records.length i r)
      (Box.ofRecord f records.length (i + 1) r')) : (boxes f records).IsChain p := by
  rw [List.isChain_iff_getElem]
  intro i hi
  obtain ⟨r, -, hr⟩ := exists_getElem_boxes (Nat.lt_of_succ_lt hi)
  obtain ⟨r', -, hr'⟩ := exists_getElem_boxes hi
  rw [hr, hr']
  exact h i r r' (length_boxes f records ▸ hi)

theorem map_centre_boxes (f : Frame α) (records : List (Record α)) :
    (boxes f records).map Box.centre = (List.range records.length).map (f.centre records.length) := by
  apply List.ext_getElem
  · rw [List.length_map, length_boxes, List.length_map, List.length_range]
  · intro i hi hi'
    obtain ⟨r, -, hr⟩ := exists_getElem_boxes (List.length_map Box.centre ▸ hi)
    rw [List.getElem_map, hr, List.getElem_map, List.getElem_range]
    rfl

/-- Labels are below the middles of their boxes. -/
theorem labelPoints_eq (f : Frame α) (records : List (Record α)) :
    f.labelPoints records.length =
      (boxes f records).map fun b => ⟨b.centre, f.top + f.height + 16.0⟩ := by
  have hcentres := congrArg (List.map fun x => (⟨x, f.top + f.height + 16.0⟩ : Point α))
    (map_centre_boxes f records)
  rw [List.map_map, List.map_map] at hcentres
  exact hcentres.symm

end Boxes

/-! ## Places of elements -/

namespace Segment

/-- The attributes that place a line. -/
def attributes (s : Segment Float) : List Attribute := Drawing.segment s.x1 s.y1 s.x2 s.y2

end Segment

namespace Rectangle

/-- The attributes that place a rectangle. -/
def attributes (r : Rectangle Float) : List Attribute :=
  Drawing.rectangle r.x r.y r.width r.height

end Rectangle

namespace Point

/-- The attributes that place a text. -/
def attributes (p : Point Float) : List Attribute := Drawing.place p.x p.y

end Point

namespace Markup

/-- The names of the attributes that place an element on the canvas. -/
def placeNames : List String := ["x", "y", "x1", "y1", "x2", "y2", "width", "height"]

/-- The attributes that place the element of a tag. -/
def Token.place : Token → List Attribute
  | .opening _ attributes | .empty _ attributes =>
    attributes.filter fun a => placeNames.contains a.name
  | _ => []

/-- Where the elements of a name and a class stand, in the order of their tags. -/
def placesOf (name : String) (c : Option String) (tags : List Token) : List (List Attribute) :=
  (tags.filter fun t => t.name? == some name && t.class? == c).map Token.place

theorem placesOf_append (name : String) (c : Option String) (xs ys : List Token) :
    placesOf name c (xs ++ ys) = placesOf name c xs ++ placesOf name c ys := by
  rw [placesOf, List.filter_append, List.map_append]
  rfl

theorem placesOf_cons_of_ne {name : String} {c : Option String} {t : Token}
    (h : t.name? ≠ some name ∨ t.class? ≠ c) (rest : List Token) :
    placesOf name c (t :: rest) = placesOf name c rest := by
  have hneg : ¬ (t.name? == some name && t.class? == c) = true := by
    rw [Bool.and_eq_true, beq_iff_eq, beq_iff_eq, not_and_or]
    exact h
  rw [placesOf, List.filter_cons, if_neg hneg, placesOf]

theorem placesOf_eq_nil {name : String} {c : Option String} {tags : List Token}
    (h : ∀ t ∈ tags, t.name? ≠ some name ∨ t.class? ≠ c) : placesOf name c tags = [] := by
  induction tags with
  | nil => rfl
  | cons t tags ih =>
    obtain ⟨ht, htags⟩ := List.forall_mem_cons.mp h
    rw [placesOf_cons_of_ne ht, ih htags]

/-- What is in an element of another name tells all the places. -/
theorem placesOf_element {name other : String} (h : other ≠ name) (c : Option String)
    (attributes : List Attribute) (inner : List Token) :
    placesOf name c (.opening other attributes :: (inner ++ [.closing other])) =
      placesOf name c inner := by
  have hopening : (Token.opening other attributes).name? ≠ some name := fun heq =>
    h (Option.some.inj heq)
  have hclosing : placesOf name c [.closing other] = [] :=
    placesOf_eq_nil (List.forall_mem_singleton.mpr (.inl fun heq => h (Option.some.inj heq)))
  rw [placesOf_cons_of_ne (.inl hopening), placesOf_append, hclosing, List.append_nil]

/-- Elements that come item by item stand at the places of the items. -/
theorem placesOf_flatten_map {β γ : Type} {name : String} {c : Option String} {items : List β}
    {part : β → List Token} {shapes : β → List γ} {attributes : γ → List Attribute}
    (h : ∀ b ∈ items, placesOf name c (part b) = (shapes b).map attributes) :
    placesOf name c (items.map part).flatten = (items.flatMap shapes).map attributes := by
  induction items with
  | nil => rfl
  | cons b items ih =>
    obtain ⟨hb, hitems⟩ := List.forall_mem_cons.mp h
    rw [List.map_cons, List.flatten_cons, placesOf_append, hb, ih hitems, List.flatMap_cons,
      List.map_append]

end Markup

namespace Drawing

variable {f : Frame Float} {records : List (Record Float)}

/-! ## Parts of a drawing -/

theorem placesOf_grid (f : Frame Float) :
    placesOf "line" none (tagsOf (grid f)) = f.gridLines.map Segment.attributes := by
  have hline : ∀ v ∈ f.ticks, placesOf "line" none (tagsOf (gridLine f v)) =
      [f.gridLine v].map Segment.attributes := fun v _ => rfl
  rw [grid, List.flatMap_def, tagsOf_flatten, List.map_map]
  exact (placesOf_flatten_map hline).trans (by rw [← List.map_eq_flatMap, Frame.gridLines])

theorem placesOf_unlessEmpty_textLine {text : String} (attributes : List Attribute) :
    placesOf "line" none (tagsOf (unlessEmpty text (textLine "text" attributes text))) = [] := by
  rw [unlessEmpty]
  split
  · rfl
  · rfl

/-- The only lines before the boxes are those of the grid. -/
theorem placesOf_surroundings (style : Style Float) (f : Frame Float) :
    placesOf "line" none (tagsOf (surroundings style f)) = f.gridLines.map Segment.attributes := by
  have hclip : placesOf "line" none (tagsOf (clip f)) = [] := rfl
  have hbackground : placesOf "line" none (tagsOf (background style f)) = [] := rfl
  simp only [surroundings, tagsOf_append, placesOf_append, hclip, hbackground, placesOf_grid, title,
    yTitle, xTitle, placesOf_unlessEmpty_textLine, List.nil_append, List.append_nil]

theorem placesOf_labels (f : Frame Float) (records : List (Record Float)) :
    placesOf "text" (some "label") (tagsOf (labels f records)) =
      (f.labelPoints records.length).map Point.attributes := by
  let point (i : Nat) : Point Float := ⟨f.centre records.length i, f.top + f.height + 16.0⟩
  have hlabel : ∀ p ∈ records.zipIdx, placesOf "text" (some "label")
      (tagsOf (label f records.length p.2 p.1)) = [point p.2].map Point.attributes := by
    intro p _
    rw [label, tagsOf_textLine]
    cases isRotated records.length <;> rfl
  have hpoints : records.zipIdx.map (fun p => point p.2) = f.labelPoints records.length := by
    rw [Frame.labelPoints, List.range_eq_range', ← List.zipIdx_map_snd 0 records, List.map_map]
    rfl
  rw [labels, List.mapIdx_eq_zipIdx_map, tagsOf_flatten, List.map_map]
  exact (placesOf_flatten_map hlabel).trans (by rw [← List.map_eq_flatMap, hpoints])

theorem placesOf_boxGroup {name : String} (hname : "g" ≠ name) (c : Option String) (f : Frame Float)
    (records : List (Record Float)) :
    placesOf name c (tagsOf (boxGroup f records)) =
      placesOf name c ((boxes f records).map marks).flatten := by
  rw [tagsOf_boxGroup, placesOf_element hname]

theorem placesOf_boxGroup_eq_nil {name : String} (hname : "g" ≠ name) {c : Option String}
    (h : ∀ b, placesOf name c (marks b) = []) (f : Frame Float) (records : List (Record Float)) :
    placesOf name c (tagsOf (boxGroup f records)) = [] := by
  have hmarks : ∀ b ∈ boxes f records,
      placesOf name c (marks b) = ([] : List (Point Float)).map Point.attributes := fun b _ => h b
  rw [placesOf_boxGroup hname, placesOf_flatten_map hmarks,
    List.flatMap_eq_nil_iff.mpr fun _ _ => rfl, List.map_nil]

theorem placesOf_labels_of_ne {name : String} (hname : "text" ≠ name) (c : Option String)
    (f : Frame Float) (records : List (Record Float)) :
    placesOf name c (tagsOf (labels f records)) = [] := by
  refine placesOf_eq_nil fun t ht => .inl fun heq => hname ?_
  rw [labels, tagsOf_flatten, List.mem_flatten] at ht
  obtain ⟨part, hpart, hmem⟩ := ht
  obtain ⟨i, r, rfl⟩ := exists_eq_tagsOf_label hpart
  rw [label, tagsOf_textLine, List.mem_cons, List.mem_singleton] at hmem
  rcases hmem with rfl | rfl <;> exact Option.some.inj heq

/-! ## The whole drawing -/

theorem placesOf_drawing {name : String} (hname : "svg" ≠ name) (c : Option String)
    (records : List (Record Float)) (bounds : Bounds Float) (style : Style Float) :
    let f := Frame.ofStyle style records.length bounds
    placesOf name c (tagsOf (drawing records bounds style)) =
      placesOf name c (tagsOf (surroundings style f)) ++ placesOf name c (tagsOf (boxGroup f records)) ++
        placesOf name c (tagsOf (labels f records)) := by
  intro f
  obtain ⟨attributes, -, htags⟩ := exists_tagsOf_drawing records bounds style
  rw [htags, placesOf_element hname, placesOf_append, placesOf_append]

/-- The lines without a class are the grid; the marks of the records and their labels are those of
    their classes. Each stands where its shape is. -/
structure Shows (f : Frame Float) (records : List (Record Float)) (tags : List Token) : Prop where
  gridLines : placesOf "line" none tags = f.gridLines.map Segment.attributes
  areas : placesOf "rect" (some "box") tags =
    ((boxes f records).map Box.area).map Rectangle.attributes
  medianLines : placesOf "line" (some "median") tags =
    ((boxes f records).map Box.medianLine).map Segment.attributes
  whiskerLines : placesOf "line" (some "whisker") tags =
    ((boxes f records).flatMap Box.whiskerLines).map Segment.attributes
  capLines : placesOf "line" (some "cap") tags =
    ((boxes f records).flatMap Box.capLines).map Segment.attributes
  labelPoints : placesOf "text" (some "label") tags =
    (f.labelPoints records.length).map Point.attributes

theorem shows_drawing (records : List (Record Float)) (bounds : Bounds Float) (style : Style Float) :
    Shows (Frame.ofStyle style records.length bounds) records
      (tagsOf (drawing records bounds style)) := by
  let f := Frame.ofStyle style records.length bounds
  have hbefore : ∀ name c, c ∉ ["x-title"] →
      placesOf name (some c) (tagsOf (surroundings style f)) = [] := fun name c hc =>
    placesOf_eq_nil fun t ht => .inr (class_ne_of_fits (fits_surroundings style f) hc t ht)
  -- a kind of mark is told by the marks of one record
  have hmarks {name c : String} (hname : name ∉ ["svg", "g", "text"]) (hc : c ∉ ["x-title"])
      {γ : Type} {shapes : Box Float → List γ} {attributes : γ → List Attribute}
      (h : ∀ b ∈ boxes f records, placesOf name (some c) (marks b) = (shapes b).map attributes) :
      placesOf name (some c) (tagsOf (drawing records bounds style)) =
        ((boxes f records).flatMap shapes).map attributes := by
    simp only [List.mem_cons, List.not_mem_nil, or_false, not_or] at hname
    obtain ⟨hsvg, hgroup, htext⟩ := hname
    rw [placesOf_drawing (Ne.symm hsvg), hbefore name c hc, placesOf_boxGroup (Ne.symm hgroup),
      placesOf_labels_of_ne (Ne.symm htext), List.nil_append, List.append_nil]
    exact placesOf_flatten_map h
  have harea : ∀ b ∈ boxes f records, placesOf "rect" (some "box") (marks b) =
      [b.area].map Rectangle.attributes := fun b _ => rfl
  have hmedian : ∀ b ∈ boxes f records, placesOf "line" (some "median") (marks b) =
      [b.medianLine].map Segment.attributes := fun b _ => rfl
  refine ⟨?_, ?_, ?_, hmarks (by decide) (by decide) fun b _ => rfl,
    hmarks (by decide) (by decide) fun b _ => rfl, ?_⟩
  · rw [placesOf_drawing (by decide), placesOf_surroundings,
      placesOf_boxGroup_eq_nil (by decide) fun b => rfl, placesOf_labels_of_ne (by decide),
      List.append_nil, List.append_nil]
  · rw [hmarks (by decide) (by decide) harea, ← List.map_eq_flatMap]
  · rw [hmarks (by decide) (by decide) hmedian, ← List.map_eq_flatMap]
  · rw [placesOf_drawing (by decide), hbefore "text" "label" (by decide),
      placesOf_boxGroup_eq_nil (by decide) fun b => rfl, placesOf_labels, List.nil_append,
      List.nil_append]

/-- What stands where in the written drawing: reading it finds the shapes of the plot, of each kind
    in the order of the ticks or of the records, and no more of a kind. -/
theorem shows_renderPlot (records : List (Record Float)) (bounds : Bounds Float)
    (style : Style Float) :
    ∃ layout, read (renderPlot records bounds style).toList = some layout ∧
      Shows (Frame.ofStyle style records.length bounds) records layout.tags := by
  refine ⟨_, read_renderPlot records bounds style, ?_⟩
  rw [tags_outline]
  exact shows_drawing records bounds style

end Drawing

end LatencyPlot
