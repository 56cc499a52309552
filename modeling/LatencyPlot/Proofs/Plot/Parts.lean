/-
  LatencyPlot.Proofs.Plot.Parts

  The parts of a drawing by their tags: what is drawn before the boxes, the
  group of the boxes, and the labels. Of each part it is told that it is sound,
  which classes there are in it, that its tags nest, and how many of a class
  there are.
-/
import LatencyPlot.Plot.Drawing
import LatencyPlot.Proofs.Markup.Elements

namespace LatencyPlot

open Markup

namespace Drawing

/-! ## Parts -/

/-- What is drawn before the boxes. -/
def surroundings (style : Style Float) (f : Frame Float) : List Token :=
  clip f ++ background style f ++ title style ++ grid f ++ yTitle style f ++ xTitle style f

/-- A drawing is its root, with what is drawn before the boxes, their group, and the labels in it.
    -/
theorem drawing_eq (records : List (Record Float)) (bounds : Bounds Float) (style : Style Float) :
    let f := Frame.ofStyle style records.length bounds
    drawing records bounds style = root style ++ (surroundings style f ++ (boxGroup f records ++
      (labels f records ++ line [.closing "svg"]))) := by
  intro f
  simp only [drawing, surroundings, List.append_assoc, f]

/-- The tags of the marks of a record. -/
def marks (b : Box Float) : List Token := tagsOf (box b)

/-- The classes of the marks of a record, in their order. -/
def markClasses : List String := ["whisker", "cap", "whisker", "cap", "box", "median"]

/-- Whether a token is sound, no group, and of no class but some. -/
def fits (classes : List String) (t : Token) : Bool :=
  t.isSound && t.name? != some "g" && t.class?.all classes.contains

/-- The marks of a record are of six classes, whatever its numbers. -/
theorem class_marks (b : Box Float) : (marks b).map Token.class? = markClasses.map some := rfl

/-! ## Fitting tokens -/

theorem fits_background (style : Style Float) (f : Frame Float) :
    (clip f).all (fits ["x-title"]) = true ∧
      (background style f).all (fits ["x-title"]) = true := by
  constructor <;>
    simp +decide [clip, background, line, emptyLine, lineEnd, coordinate, rectangle, fits,
      Token.isSound, Token.name?, Token.class?, classOf]

theorem fits_titles (style : Style Float) (f : Frame Float) :
    (title style).all (fits ["x-title"]) = true ∧ (yTitle style f).all (fits ["x-title"]) = true ∧
      (xTitle style f).all (fits ["x-title"]) = true := by
  simp only [title, yTitle, xTitle, unlessEmpty]
  refine ⟨?_, ?_, ?_⟩ <;> split <;>
    simp +decide [textLine, line, lineEnd, place, font, turned, coordinate, fits, Token.isSound,
      Token.name?, Token.class?, classOf]

theorem fits_gridLine (f : Frame Float) (v : Float) :
    (gridLine f v).all (fits ["x-title"]) = true := by
  simp +decide [gridLine, emptyLine, textLine, line, lineEnd, segment, place, font, coordinate,
    fits, Token.isSound, Token.name?, Token.class?, classOf]

/-- Before the boxes only the title of the horizontal axis has a class. -/
theorem fits_surroundings (style : Style Float) (f : Frame Float) :
    (surroundings style f).all (fits ["x-title"]) = true := by
  have hgrid : (grid f).all (fits ["x-title"]) = true := by
    rw [grid, List.all_flatMap, List.all_eq_true]
    exact fun v _ => fits_gridLine f v
  obtain ⟨hclip, hbackground⟩ := fits_background style f
  obtain ⟨htitle, hy, hx⟩ := fits_titles style f
  simp only [surroundings, List.all_append, hclip, hbackground, htitle, hgrid, hy, hx,
    Bool.and_true]

theorem fits_box (b : Box Float) : (box b).all (fits markClasses) = true := by
  simp +decide [box, Box.whiskers, whisker, emptyLine, line, lineEnd, segment, rectangle,
    coordinate, fits, Token.isSound, Token.name?, Token.class?, classOf]

theorem fits_label (f : Frame Float) (n i : Nat) (r : Record Float) :
    (label f n i r).all (fits ["label"]) = true := by
  rw [label]
  cases isRotated n <;>
    simp +decide [textLine, line, lineEnd, place, font, turned, coordinate, fits, Token.isSound,
      Token.name?, Token.class?, classOf]

/-- Among the boxes there are only marks. -/
theorem fits_boxes (f : Frame Float) (records : List (Record Float)) :
    ((boxes f records).flatMap box).all (fits markClasses) = true := by
  rw [List.all_flatMap, List.all_eq_true]
  exact fun b _ => fits_box b

/-- Among the labels there are only labels. -/
theorem fits_labels (f : Frame Float) (records : List (Record Float)) :
    (labels f records).all (fits ["label"]) = true := by
  rw [labels, List.all_flatten, List.all_eq_true]
  intro part hpart
  obtain ⟨i, hi, rfl⟩ := List.mem_mapIdx.mp hpart
  exact fits_label f records.length i _

/-- Fitting tokens are sound. -/
theorem isSound_of_fits {classes : List String} {tokens : List Token}
    (h : tokens.all (fits classes) = true) : tokens.all Token.isSound = true := by
  rw [List.all_eq_true] at h ⊢
  intro t ht
  have hfits := h t ht
  rw [fits, Bool.and_eq_true, Bool.and_eq_true] at hfits
  exact hfits.1.1

/-- Fitting tags begin and end no group. -/
theorem name_ne_of_fits {classes : List String} {tokens : List Token}
    (h : tokens.all (fits classes) = true) : ∀ t ∈ tagsOf tokens, t.name? ≠ some "g" := by
  intro t ht
  have hfits := List.all_eq_true.mp h t (List.mem_of_mem_filter ht)
  rw [fits, Bool.and_eq_true, Bool.and_eq_true] at hfits
  exact bne_iff_ne.mp hfits.1.2

/-- Fitting tags are of no other class. -/
theorem class_ne_of_fits {classes : List String} {tokens : List Token}
    (h : tokens.all (fits classes) = true) {c : String} (hc : c ∉ classes) :
    ∀ t ∈ tagsOf tokens, t.class? ≠ some c := by
  intro t ht hclass
  have hfits := List.all_eq_true.mp h t (List.mem_of_mem_filter ht)
  rw [fits, Bool.and_eq_true, hclass] at hfits
  exact hc (by simpa using hfits.2)

/-- Of other classes there is none. -/
theorem countClass_of_fits {classes : List String} {tokens : List Token}
    (h : tokens.all (fits classes) = true) {c : String} (hc : c ∉ classes) :
    countClass c (tagsOf tokens) = 0 := by
  rw [countClass, List.countP_eq_zero]
  intro t ht
  simpa using class_ne_of_fits h hc t ht

/-- Whatever texts are given to it, a drawing is written soundly. -/
theorem isSound_drawing (records : List (Record Float)) (bounds : Bounds Float)
    (style : Style Float) : (drawing records bounds style).all Token.isSound = true := by
  have hroot : (root style).all Token.isSound = true := by
    simp +decide [root, line, lineEnd, coordinate, Token.isSound]
  have hbox := isSound_of_fits (fits_boxes (Frame.ofStyle style records.length bounds) records)
  simp only [drawing_eq, boxGroup, List.all_append, hroot, hbox,
    isSound_of_fits (fits_surroundings style _), isSound_of_fits (fits_labels _ records)]
  decide

/-! ## Tags -/

theorem exists_eq_tagsOf_label {f : Frame Float} {n : Nat} {records : List (Record Float)}
    {part : List Token}
    (h : part ∈ (records.mapIdx fun i r => label f n i r).map tagsOf) :
    ∃ i r, part = tagsOf (label f n i r) := by
  obtain ⟨tokens, htokens, rfl⟩ := List.mem_map.mp h
  obtain ⟨i, hi, rfl⟩ := List.mem_mapIdx.mp htokens
  exact ⟨i, _, rfl⟩

theorem tagsOf_boxes (f : Frame Float) (records : List (Record Float)) :
    tagsOf ((boxes f records).flatMap box) = ((boxes f records).map marks).flatten := by
  rw [List.flatMap_def, tagsOf_flatten, List.map_map]
  rfl

/-- The group of the boxes is one element around their marks. -/
theorem tagsOf_boxGroup (f : Frame Float) (records : List (Record Float)) :
    tagsOf (boxGroup f records) =
      .opening "g" [⟨"clip-path", "url(#plot-area)"⟩] ::
        (((boxes f records).map marks).flatten ++ [.closing "g"]) := by
  rw [boxGroup, tagsOf_append, tagsOf_append, tagsOf_line, tagsOf_line, tagsOf_boxes]
  rfl

/-- The tags of a drawing: its root, what is drawn before the boxes, their group, their labels. -/
theorem exists_tagsOf_drawing (records : List (Record Float)) (bounds : Bounds Float)
    (style : Style Float) :
    let f := Frame.ofStyle style records.length bounds
    ∃ attributes, classOf attributes = none ∧ tagsOf (drawing records bounds style) =
      .opening "svg" attributes :: (tagsOf (surroundings style f) ++ tagsOf (boxGroup f records) ++
        tagsOf (labels f records) ++ [.closing "svg"]) := by
  intro f
  obtain ⟨attributes, hclass, hroot⟩ : ∃ attributes, classOf attributes = none ∧
      tagsOf (root style) = [.opening "svg" attributes] := by
    rw [root, tagsOf_line]
    exact ⟨_, rfl, rfl⟩
  refine ⟨attributes, hclass, ?_⟩
  rw [drawing_eq, tagsOf_append, tagsOf_append, tagsOf_append, tagsOf_append, hroot, tagsOf_line]
  simp only [List.append_assoc]
  rfl

/-! ## Nesting -/

theorem nested_unlessEmpty {text : String} {tokens : List Token} (h : Nested (tagsOf tokens)) :
    Nested (tagsOf (unlessEmpty text tokens)) := by
  rw [unlessEmpty]
  split
  · exact .nil
  · exact h

/-- What is drawn before the boxes opens no element that it does not close. -/
theorem nested_surroundings (style : Style Float) (f : Frame Float) :
    Nested (tagsOf (surroundings style f)) := by
  have hclip : Nested (tagsOf (clip f)) := by
    rw [clip, tagsOf_line]
    exact .element "defs" [] (.element "clipPath" _ (.empty "rect" _ .nil) .nil) .nil
  have hbackground : Nested (tagsOf (background style f)) := by
    rw [background, tagsOf_append]
    exact (nested_emptyLine _ _).append (nested_emptyLine _ _)
  have hgrid : Nested (tagsOf (grid f)) := by
    rw [grid, List.flatMap_def, tagsOf_flatten, List.map_map]
    refine .flatten fun part hpart => ?_
    obtain ⟨v, -, rfl⟩ := List.mem_map.mp hpart
    rw [Function.comp_apply, gridLine, tagsOf_append]
    exact (nested_emptyLine _ _).append (nested_textLine _ _ _)
  have htitle : Nested (tagsOf (title style)) := nested_unlessEmpty (nested_textLine _ _ _)
  have hy : Nested (tagsOf (yTitle style f)) := nested_unlessEmpty (nested_textLine _ _ _)
  have hx : Nested (tagsOf (xTitle style f)) := nested_unlessEmpty (nested_textLine _ _ _)
  simp only [surroundings, tagsOf_append]
  exact ((((hclip.append hbackground).append htitle).append hgrid).append hy).append hx

theorem nested_marks (b : Box Float) : Nested (marks b) := by
  have hwhisker : ∀ w, Nested (tagsOf (whisker b w)) := by
    intro w
    rw [whisker, tagsOf_append]
    exact (nested_emptyLine _ _).append (nested_emptyLine _ _)
  rw [marks, box, tagsOf_append, tagsOf_append, List.flatMap_def, tagsOf_flatten, List.map_map]
  refine ((Nested.flatten fun part hpart => ?_).append (nested_emptyLine _ _)).append
    (nested_emptyLine _ _)
  obtain ⟨w, -, rfl⟩ := List.mem_map.mp hpart
  exact hwhisker w

/-- The group is closed after the marks. -/
theorem nested_boxGroup (f : Frame Float) (records : List (Record Float)) :
    Nested (tagsOf (boxGroup f records)) := by
  rw [tagsOf_boxGroup]
  refine .element "g" _ (.flatten fun part hpart => ?_) .nil
  obtain ⟨b, -, rfl⟩ := List.mem_map.mp hpart
  exact nested_marks b

theorem nested_labels (f : Frame Float) (records : List (Record Float)) :
    Nested (tagsOf (labels f records)) := by
  rw [labels, tagsOf_flatten]
  refine .flatten fun part hpart => ?_
  obtain ⟨i, r, rfl⟩ := exists_eq_tagsOf_label hpart
  exact nested_textLine _ _ _

/-! ## Counts -/

theorem countClass_marks (c : String) (b : Box Float) :
    countClass c (marks b) = markClasses.count c := by
  rw [countClass_eq_count, class_marks, List.count, List.countP_map]
  exact List.countP_congr fun other _ => by simp

/-- In the group each record has its marks once. -/
theorem countClass_boxGroup (c : String) (f : Frame Float) (records : List (Record Float)) :
    countClass c (tagsOf (boxGroup f records)) = records.length * markClasses.count c := by
  have hmarks : countClass c ((boxes f records).map marks).flatten =
      records.length * markClasses.count c := by
    rw [countClass_flatten (k := markClasses.count c)]
    · rw [List.length_map, boxes, List.length_mapIdx]
    · intro part hpart
      obtain ⟨b, -, rfl⟩ := List.mem_map.mp hpart
      exact countClass_marks c b
  rw [tagsOf_boxGroup, countClass, List.countP_cons, List.countP_append]
  rw [countClass] at hmarks
  simpa [Token.class?, classOf] using hmarks

theorem class_label (f : Frame Float) (n i : Nat) (r : Record Float) :
    (tagsOf (label f n i r)).map Token.class? = [some "label", none] := by
  rw [label, tagsOf_textLine]
  cases isRotated n <;> rfl

/-- Each record has one label. -/
theorem countClass_labels (c : String) (f : Frame Float) (records : List (Record Float)) :
    countClass c (tagsOf (labels f records)) = records.length * ["label"].count c := by
  rw [labels, tagsOf_flatten, countClass_flatten (k := ["label"].count c)]
  · rw [List.length_map, List.length_mapIdx]
  · intro part hpart
    obtain ⟨i, r, rfl⟩ := exists_eq_tagsOf_label hpart
    rw [countClass_eq_count, class_label]
    simp [List.count_cons]

/-- There are as many elements of a class as the records have marks and labels of it. -/
theorem countClass_drawing {c : String} (hc : c ≠ "x-title") (records : List (Record Float))
    (bounds : Bounds Float) (style : Style Float) :
    countClass c (tagsOf (drawing records bounds style)) =
      records.length * (markClasses ++ ["label"]).count c := by
  obtain ⟨attributes, hclass, htags⟩ := exists_tagsOf_drawing records bounds style
  have hbefore := countClass_of_fits (fits_surroundings style
    (Frame.ofStyle style records.length bounds)) (show c ∉ ["x-title"] by simpa using hc)
  have hroot : countClass c [.opening "svg" attributes] = 0 := by
    simp [countClass, Token.class?, hclass]
  have hend : countClass c [.closing "svg"] = 0 := by simp [countClass, Token.class?]
  rw [htags, ← List.singleton_append]
  simp only [countClass_append, hroot, hbefore, countClass_boxGroup, countClass_labels, hend,
    List.count_append, Nat.mul_add, Nat.zero_add, Nat.add_zero]

end Drawing

end LatencyPlot
