/-
  LatencyPlot.Proofs.Plot.Structure

  How the drawing of a plot reads, whatever its labels and titles hold. There
  is one root; the marks of the records stand in one group, six to a record and
  in the order of the records, and no other mark of their kinds is anywhere; and
  the texts are the title, the ticks, the titles of the axes and the labels, in
  this order. Nothing but the numbers decides on the tags.
-/
import LatencyPlot.Proofs.Plot.Parts

namespace LatencyPlot

open Markup

namespace Drawing

variable {style style' : Style Float} {f : Frame Float} {records records' : List (Record Float)}

/-! ## Texts -/

/-- A text, if it is not empty. -/
def shown (text : String) : List String := if text.isEmpty then [] else [text]

/-- A title that is empty is left out, and any other one is one element. -/
theorem elementsOf_unlessEmpty_append (text : String) (attributes : List Attribute)
    (rest : List Token) :
    elementsOf "text" (unlessEmpty text (textLine "text" attributes text) ++ rest) =
      (shown text).map (.holding (classOf attributes)) ++ elementsOf "text" rest := by
  rw [unlessEmpty, shown]
  split
  · rfl
  · exact elementsOf_textLine_append "text" attributes text rest

/-- Each tick of the grid is an element with its number. -/
theorem elementsOf_grid_append (f : Frame Float) (rest : List Token) :
    elementsOf "text" (grid f ++ rest) =
      f.ticks.map (fun v => .holding none (tickText v)) ++ elementsOf "text" rest := by
  rw [grid]
  induction f.ticks with
  | nil => rfl
  | cons v ticks ih =>
    rw [List.flatMap_cons, List.append_assoc, gridLine, List.append_assoc,
      elementsOf_emptyLine_append (by decide), elementsOf_textLine_append, ih]
    rfl

/-- There is no text among the marks. -/
theorem elementsOf_boxes_append (bs : List (Box Float)) (rest : List Token) :
    elementsOf "text" (bs.flatMap box ++ rest) = elementsOf "text" rest := by
  induction bs with
  | nil => rfl
  | cons b bs ih =>
    have hbox : ∀ rest, elementsOf "text" (box b ++ rest) = elementsOf "text" rest := by
      intro rest
      simp only [box, Box.whiskers, whisker, List.flatMap_cons, List.flatMap_nil, List.append_assoc,
        List.nil_append]
      repeat rw [elementsOf_emptyLine_append (by decide)]
    rw [List.flatMap_cons, List.append_assoc, hbox, ih]

theorem elementsOf_label_append (f : Frame Float) (n i : Nat) (r : Record Float)
    (rest : List Token) :
    elementsOf "text" (label f n i r ++ rest) =
      .holding (some "label") r.label :: elementsOf "text" rest := by
  rw [label, elementsOf_textLine_append]
  cases isRotated n <;> rfl

/-- Each label is an element of its class, in the order of the records. -/
theorem elementsOf_labels_append (f : Frame Float) (records : List (Record Float))
    (rest : List Token) :
    elementsOf "text" (labels f records ++ rest) =
      records.map (fun r => .holding (some "label") r.label) ++ elementsOf "text" rest := by
  -- the labels that are left have numbers of their own
  have hfrom : ∀ number : Nat → Nat, elementsOf "text"
      ((records.mapIdx fun i r => label f records.length (number i) r).flatten ++ rest) =
        records.map (fun r => .holding (some "label") r.label) ++ elementsOf "text" rest := by
    generalize records.length = n
    induction records with
    | nil => exact fun _ => rfl
    | cons r records ih =>
      intro number
      rw [List.mapIdx_cons, List.flatten_cons, List.append_assoc, elementsOf_label_append,
        ih fun i => number (i + 1)]
      rfl
  exact hfrom id

/-- The texts of a drawing, each with the class of its element. -/
def texts (f : Frame Float) (style : Style Float) (records : List (Record Float)) :
    List (Option String × String) :=
  (shown style.title).map (none, ·) ++ f.ticks.map (fun v => (none, tickText v)) ++
    (shown style.yLabel).map (none, ·) ++ (shown style.xLabel).map (some "x-title", ·) ++
    records.map fun r => (some "label", r.label)

/-- An element of a class that holds a text. -/
def elementOf (t : Option String × String) : Element := .holding t.1 t.2

/-- The texts before the boxes are those of a drawing without records. -/
theorem elementsOf_surroundings_append (style : Style Float) (f : Frame Float)
    (rest : List Token) :
    elementsOf "text" (surroundings style f ++ rest) =
      (texts f style []).map elementOf ++ elementsOf "text" rest := by
  simp only [surroundings, texts, List.append_assoc, List.map_nil, List.map_append, List.map_map,
    List.nil_append]
  rw [clip, elementsOf_line_append (by simp [Token.name?]), background, List.append_assoc,
    elementsOf_emptyLine_append (by decide), elementsOf_emptyLine_append (by decide), title,
    elementsOf_unlessEmpty_append, elementsOf_grid_append, yTitle, elementsOf_unlessEmpty_append,
    xTitle, elementsOf_unlessEmpty_append]
  rfl

/-- The elements of a drawing that hold texts, in their order. -/
theorem elementsOf_drawing (records : List (Record Float)) (bounds : Bounds Float)
    (style : Style Float) :
    elementsOf "text" (drawing records bounds style) =
      (texts (Frame.ofStyle style records.length bounds) style records).map elementOf := by
  have hend : elementsOf "text" (line [.closing "svg"] ++ []) = [] :=
    elementsOf_line_append (by simp [Token.name?]) []
  rw [List.append_nil] at hend
  rw [drawing_eq, root, elementsOf_line_append (by simp [Token.name?]),
    elementsOf_surroundings_append, boxGroup, List.append_assoc, List.append_assoc,
    elementsOf_line_append (by simp [Token.name?]), elementsOf_boxes_append,
    elementsOf_line_append (by simp [Token.name?]), elementsOf_labels_append, hend]
  simp only [texts, List.map_nil, List.append_nil, List.map_append, List.map_map]
  rfl

/-! ## Tags and numbers -/

/-- Two styles that differ in their titles at most, and not in which of them are left out. -/
structure SameLayout (style style' : Style Float) : Prop where
  width : style.width = style'.width
  height : style.height = style'.height
  title : style.title.isEmpty = style'.title.isEmpty
  xLabel : style.xLabel.isEmpty = style'.xLabel.isEmpty
  yLabel : style.yLabel.isEmpty = style'.yLabel.isEmpty

/-- Titles move the plot area only by being there or not. -/
theorem SameLayout.frame_eq (h : SameLayout style style') (n : Nat) (bounds : Bounds Float) :
    Frame.ofStyle style n bounds = Frame.ofStyle style' n bounds := by
  simp only [Frame.ofStyle, Frame.bottomMargin, h.width, h.height, h.title, h.xLabel]

/-- A title that is left out has no tags, and the tags of any other one do not depend on it. -/
theorem tagsOf_unlessEmpty_textLine {text text' : String} (h : text.isEmpty = text'.isEmpty)
    (attributes : List Attribute) :
    tagsOf (unlessEmpty text (textLine "text" attributes text)) =
      tagsOf (unlessEmpty text' (textLine "text" attributes text')) := by
  rw [unlessEmpty, unlessEmpty, h]
  split
  · rfl
  · rw [tagsOf_textLine, tagsOf_textLine]

theorem tagsOf_surroundings_congr (h : SameLayout style style') (f : Frame Float) :
    tagsOf (surroundings style f) = tagsOf (surroundings style' f) := by
  have htitle : tagsOf (title style) = tagsOf (title style') := by
    rw [title, title, h.width]
    exact tagsOf_unlessEmpty_textLine h.title _
  have hy : tagsOf (yTitle style f) = tagsOf (yTitle style' f) :=
    tagsOf_unlessEmpty_textLine h.yLabel _
  have hx : tagsOf (xTitle style f) = tagsOf (xTitle style' f) := by
    rw [xTitle, xTitle, h.height]
    exact tagsOf_unlessEmpty_textLine h.xLabel _
  have hbackground : background style f = background style' f := by
    rw [background, background, h.width, h.height]
  simp only [surroundings, tagsOf_append, htitle, hy, hx, hbackground]

/-- Boxes depend on the bounds of the records alone. -/
theorem boxes_congr (h : records.map Record.bounds = records'.map Record.bounds)
    (f : Frame Float) : boxes f records = boxes f records' := by
  have hlength : records.length = records'.length := by
    simpa using congrArg List.length h
  rw [boxes, boxes]
  apply List.ext_getElem
  · rw [List.length_mapIdx, List.length_mapIdx, hlength]
  · intro i hi hi'
    rw [List.length_mapIdx] at hi hi'
    have hbounds : records[i].bounds = records'[i].bounds := by
      have hget := List.getElem_of_eq h (by simpa using hi)
      simpa using hget
    simp only [Record.bounds, List.cons.injEq, and_true] at hbounds
    obtain ⟨hlow, hp25, hmedian, hp75, hhigh⟩ := hbounds
    simp only [List.getElem_mapIdx, Box.ofRecord, hlength, hlow, hp25, hmedian, hp75, hhigh]

/-- The tags of labels depend on their number alone. -/
theorem tagsOf_labels_congr (h : records.length = records'.length) (f : Frame Float) :
    tagsOf (labels f records) = tagsOf (labels f records') := by
  rw [labels, labels, tagsOf_flatten, tagsOf_flatten]
  congr 1
  apply List.ext_getElem
  · simp only [List.length_map, List.length_mapIdx, h]
  · intro i hi hi'
    -- the text of a label is no part of its tags
    simp only [List.getElem_map, List.getElem_mapIdx, label, tagsOf_textLine, h]

/-- The tags of a drawing depend on its numbers and on which titles it has. -/
theorem tagsOf_drawing_congr (h : SameLayout style style')
    (hrecords : records.map Record.bounds = records'.map Record.bounds) (bounds : Bounds Float) :
    tagsOf (drawing records bounds style) = tagsOf (drawing records' bounds style') := by
  have hlength : records.length = records'.length := by
    simpa using congrArg List.length hrecords
  have hroot : root style = root style' := by rw [root, root, h.width, h.height]
  simp only [drawing_eq, tagsOf_append, hroot, h.frame_eq, hlength, tagsOf_surroundings_congr h,
    tagsOf_boxGroup, boxes_congr hrecords, tagsOf_labels_congr hlength]

/-! ## The whole drawing -/

/-- The tags nest in one element of a name. -/
def HasRoot (name : String) (tags : List Token) : Prop :=
  ∃ attributes inner, Nested inner ∧
    tags = .opening name attributes :: (inner ++ [.closing name])

/-- One group, clipped to the plot area, holds the marks of the records, record by record, and no
    text; what stands outside it is no mark and no other group. -/
def GroupsMarks (f : Frame Float) (records : List (Record Float)) (tags : List Token) : Prop :=
  ∃ before inside after,
    tags = before ++ .opening "g" [⟨"clip-path", "url(#plot-area)"⟩] ::
      (inside ++ .closing "g" :: after) ∧
    inside = ((boxes f records).map marks).flatten ∧
    (∀ t ∈ inside, t.name? ≠ some "g" ∧ t.name? ≠ some "text") ∧
    ∀ t ∈ before ++ after, t.name? ≠ some "g" ∧ ∀ c ∈ markClasses, t.class? ≠ some c

/-- How a drawing of some records reads. -/
structure Reads (f : Frame Float) (style : Style Float) (records : List (Record Float))
    (layout : Layout Token) : Prop where
  /-- Nothing stands before the root. -/
  lead : layout.lead = []
  root : HasRoot "svg" layout.tags
  boxCount : countClass "box" layout.tags = records.length
  medianCount : countClass "median" layout.tags = records.length
  whiskerCount : countClass "whisker" layout.tags = 2 * records.length
  capCount : countClass "cap" layout.tags = 2 * records.length
  labelCount : countClass "label" layout.tags = records.length
  group : GroupsMarks f records layout.tags
  /-- Each record has two whiskers with their caps, then a box, then a median. -/
  classes : ∀ b ∈ boxes f records, (marks b).map Token.class? = markClasses.map some
  /-- The texts are those that were meant, each alone in its element. -/
  content : (elements "text" layout.chunks).map (fun e => (e.class?, e.text?)) =
    (texts f style records).map fun (c, text) => (c, some text.toList)

theorem lead_outline_drawing (records : List (Record Float)) (bounds : Bounds Float)
    (style : Style Float) : (outline (drawing records bounds style)).lead = [] := by
  rw [drawing_eq]
  rfl

/-- A drawing is one element, and its tags nest. -/
theorem hasRoot_drawing (records : List (Record Float)) (bounds : Bounds Float)
    (style : Style Float) : HasRoot "svg" (tagsOf (drawing records bounds style)) := by
  obtain ⟨attributes, -, htags⟩ := exists_tagsOf_drawing records bounds style
  refine ⟨attributes, _, ?_, htags⟩
  exact ((nested_surroundings style _).append (nested_boxGroup _ records)).append
    (nested_labels _ records)

theorem name_ne_text_of_mem_marks {b : Box Float} : ∀ t ∈ marks b, t.name? ≠ some "text" := by
  have hnames : (marks b).map Token.name? =
    [some "line", some "line", some "line", some "line", some "rect", some "line"] := rfl
  intro t ht heq
  have hmem : some "text" ∈ (marks b).map Token.name? := List.mem_map.mpr ⟨t, ht, heq⟩
  rw [hnames] at hmem
  revert hmem
  decide

/-- The marks of a drawing, and nothing else, stand in its one group. -/
theorem groupsMarks_drawing (records : List (Record Float)) (bounds : Bounds Float)
    (style : Style Float) :
    GroupsMarks (Frame.ofStyle style records.length bounds) records
      (tagsOf (drawing records bounds style)) := by
  let f := Frame.ofStyle style records.length bounds
  obtain ⟨attributes, hclass, htags⟩ := exists_tagsOf_drawing records bounds style
  have hbefore := fits_surroundings style f
  have hafter := fits_labels f records
  refine ⟨.opening "svg" attributes :: tagsOf (surroundings style f), _,
    tagsOf (labels f records) ++ [.closing "svg"], ?_, rfl, ?_, ?_⟩
  · rw [htags, tagsOf_boxGroup]
    simp only [List.cons_append, List.append_assoc, List.nil_append, f]
  · intro t ht
    rw [← tagsOf_boxes] at ht
    refine ⟨name_ne_of_fits (fits_boxes f records) t ht, ?_⟩
    rw [tagsOf_boxes, List.mem_flatten] at ht
    obtain ⟨part, hpart, hmem⟩ := ht
    obtain ⟨b, -, rfl⟩ := List.mem_map.mp hpart
    exact name_ne_text_of_mem_marks t hmem
  · have hmarks : ∀ c ∈ markClasses, c ∉ ["x-title"] ∧ c ∉ ["label"] := by decide
    intro t ht
    rw [List.mem_append, List.mem_cons, List.mem_append, List.mem_singleton] at ht
    -- the root, what is drawn before the boxes, the labels, and the end of the root
    rcases ht with (rfl | ht) | ht | rfl
    · refine ⟨by simp [Token.name?], fun c _ hc => ?_⟩
      rw [Token.class?, hclass] at hc
      cases hc
    · exact ⟨name_ne_of_fits hbefore t ht,
        fun c hc => class_ne_of_fits hbefore (hmarks c hc).1 t ht⟩
    · exact ⟨name_ne_of_fits hafter t ht,
        fun c hc => class_ne_of_fits hafter (hmarks c hc).2 t ht⟩
    · exact ⟨by simp [Token.name?], fun c _ hc => by cases hc⟩

/-- A drawing reads as it ought to. -/
theorem reads_outline (records : List (Record Float)) (bounds : Bounds Float)
    (style : Style Float) :
    Reads (Frame.ofStyle style records.length bounds) style records
      (outline (drawing records bounds style)) := by
  have htags := tags_outline (drawing records bounds style)
  have hcount : ∀ c, c ≠ "x-title" → countClass c (outline (drawing records bounds style)).tags =
      records.length * (markClasses ++ ["label"]).count c := by
    intro c hc
    rw [htags, countClass_drawing hc]
  refine ⟨lead_outline_drawing records bounds style, ?_, ?_, ?_, ?_, ?_, ?_, ?_,
    fun b _ => class_marks b, ?_⟩
  · rw [htags]
    exact hasRoot_drawing records bounds style
  · exact (hcount "box" (by decide)).trans (Nat.mul_one _)
  · exact (hcount "median" (by decide)).trans (Nat.mul_one _)
  · exact (hcount "whisker" (by decide)).trans (Nat.mul_comm _ 2)
  · exact (hcount "cap" (by decide)).trans (Nat.mul_comm _ 2)
  · exact (hcount "label" (by decide)).trans (Nat.mul_one _)
  · rw [htags]
    exact groupsMarks_drawing records bounds style
  · have hread : ∀ t, (fun e : Element => (e.class?, e.text?)) (elementOf t) =
        (t.1, some t.2.toList) := fun t => congrArg (t.1, ·) (Element.text?_holding t.1 t.2)
    show (elementsOf "text" (drawing records bounds style)).map _ = _
    rw [elementsOf_drawing, List.map_map]
    exact List.map_congr_left fun t _ => hread t

/-- The text of a drawing can be read, and is read as its tokens say. -/
theorem read_renderPlot (records : List (Record Float)) (bounds : Bounds Float)
    (style : Style Float) :
    read (renderPlot records bounds style).toList =
      some (outline (drawing records bounds style)) :=
  read_render (isSound_drawing records bounds style)

end Drawing

/-- **A plot is one well-formed drawing, whatever its labels and titles hold.** It reads as `Reads`
    says, and a plot of the same numbers has the same tags, with the same attributes, whatever other
    labels and titles it has. -/
theorem renderPlot_reads (records : List (Record Float)) (bounds : Bounds Float)
    (style : Style Float) :
    (∃ layout, read (renderPlot records bounds style).toList = some layout ∧
      Drawing.Reads (Frame.ofStyle style records.length bounds) style records layout) ∧
    ∀ records' style', records.map Record.bounds = records'.map Record.bounds →
      Drawing.SameLayout style style' →
      (read (renderPlot records bounds style).toList).map Layout.tags =
        (read (renderPlot records' bounds style').toList).map Layout.tags := by
  constructor
  · exact ⟨_, Drawing.read_renderPlot records bounds style,
      Drawing.reads_outline records bounds style⟩
  · intro records' style' hrecords hstyle
    rw [Drawing.read_renderPlot, Drawing.read_renderPlot, Option.map_some, Option.map_some,
      tags_outline, tags_outline, Drawing.tagsOf_drawing_congr hstyle hrecords]

/-- Markup in a title and a label changes no tag. -/
theorem renderPlot_reads_markup :
    let r : Record Float := ⟨"a", 1.0, 2.0, 3.0, 4.0, 5.0, 1⟩
    let style : Style Float := ⟨900.0, 500.0, "t", "", "y"⟩
    Drawing.SameLayout style { style with title := "</svg>" } ∧
    (read (renderPlot [r] ⟨2.0, 5.0⟩ style).toList).map Layout.tags =
      (read (renderPlot [{ r with label := "<g class=\"box\">" }] ⟨2.0, 5.0⟩
        { style with title := "</svg>" }).toList).map Layout.tags := by
  intro r style
  have hstyle : Drawing.SameLayout style { style with title := "</svg>" } :=
    ⟨rfl, rfl, by decide, rfl, rfl⟩
  exact ⟨hstyle, (renderPlot_reads [r] ⟨2.0, 5.0⟩ style).2 _ _ rfl hstyle⟩

end LatencyPlot
