/-
  LatencyPlot.Proofs.Plot.Legal

  Which drawings are documents. A drawing has legal characters of its own only,
  so it is a document iff its titles and the labels of its records are legal.
  A label is made of characters of the input, and the input may hold any: what
  is not legal there goes through the reader and the escaping as it is.
-/
import LatencyPlot.Plot.Portable
import LatencyPlot.Proofs.Axis.TickText
import LatencyPlot.Proofs.Markup.Legal
import LatencyPlot.Proofs.Plot.Parts
import LatencyPlot.Proofs.Table.Origin

namespace LatencyPlot

open Markup

namespace Drawing

variable {style : Style Float} {f : Frame Float}

/-! ## Attributes -/

theorem isLegalText_plain (x : Float) : isLegalText (Number.plain x) = true :=
  isLegalText_of_isNumeral (Number.isNumeral_of_mem_plain x)

theorem isLegal_coordinate {name : String} (h : isLegalText name = true) (x : Float) :
    (coordinate name x).isLegal = true := by
  rw [Attribute.isLegal, coordinate, h, isLegalText_plain]
  rfl

theorem all_rectangle (x y width height : Float) :
    (rectangle x y width height).all Attribute.isLegal = true := by
  simp +decide [rectangle, isLegal_coordinate]

theorem all_segment (x1 y1 x2 y2 : Float) :
    (segment x1 y1 x2 y2).all Attribute.isLegal = true := by
  simp +decide [segment, isLegal_coordinate]

theorem all_place (x y : Float) : (place x y).all Attribute.isLegal = true := by
  simp +decide [place, isLegal_coordinate]

theorem isLegal_turned {angle : String} (h : isLegalText angle = true) (x y : Float) :
    (turned angle x y).isLegal = true := by
  simp +decide [turned, Attribute.isLegal, isLegalText_append, isLegalText_plain, h]

theorem all_font {size colour anchor : String}
    (h : isLegalText size && isLegalText colour && isLegalText anchor) :
    (font size colour anchor).all Attribute.isLegal = true := by
  simp only [Bool.and_eq_true] at h
  simp +decide [font, Attribute.isLegal, h]

/-! ## Parts -/

theorem all_unlessEmpty {text : String} {attributes : List Attribute}
    (h : attributes.all Attribute.isLegal = true) :
    (unlessEmpty text (textLine "text" attributes text)).all Token.isLegal = isLegalText text := by
  rw [unlessEmpty]
  split
  · next hempty =>
    rw [String.isEmpty_iff.mp hempty]
    rfl
  · rw [all_textLine (by decide), h, Bool.true_and]

theorem all_root (style : Style Float) : (root style).all Token.isLegal = true := by
  simp +decide [root, all_line, Token.isLegal, Attribute.isLegal_mk, coordinate, isLegalText_plain,
    isLegalText_append]

theorem all_surroundings (style : Style Float) (f : Frame Float) :
    (surroundings style f).all Token.isLegal =
      (isLegalText style.title && isLegalText style.yLabel && isLegalText style.xLabel) := by
  have hclip : (clip f).all Token.isLegal = true := by
    simp +decide [clip, all_line, Token.isLegal, all_rectangle]
  have hbackground : (background style f).all Token.isLegal = true := by
    simp +decide [background, all_emptyLine, all_rectangle, isLegal_coordinate, Attribute.isLegal_mk]
  have hgrid : (grid f).all Token.isLegal = true := by
    rw [grid, List.all_flatMap, List.all_eq_true]
    intro v _
    have htext : isLegalText (tickText v) = true :=
      isLegalText_of_isNumeral (isNumeral_of_mem_tickText v)
    simp +decide [gridLine, all_emptyLine, all_textLine, all_segment, all_place, all_font,
      Attribute.isLegal_mk, htext]
  have htitle : (title style).all Token.isLegal = isLegalText style.title :=
    all_unlessEmpty (by simp +decide [all_place, all_font])
  have hy : (yTitle style f).all Token.isLegal = isLegalText style.yLabel :=
    all_unlessEmpty (by simp +decide [all_place, all_font, isLegal_turned])
  have hx : (xTitle style f).all Token.isLegal = isLegalText style.xLabel :=
    all_unlessEmpty (by simp +decide [all_place, all_font, Attribute.isLegal_mk])
  simp only [surroundings, List.all_append, hclip, hbackground, hgrid, htitle, hy, hx,
    Bool.true_and, Bool.and_true]

theorem all_boxGroup (f : Frame Float) (records : List (Record Float)) :
    (boxGroup f records).all Token.isLegal = true := by
  have hbox (b : Box Float) : (box b).all Token.isLegal = true := by
    simp +decide [box, Box.whiskers, whisker, all_emptyLine, all_segment, all_rectangle,
      Attribute.isLegal_mk]
  have hboxes : ((boxes f records).flatMap box).all Token.isLegal = true := by
    rw [List.all_flatMap, List.all_eq_true]
    exact fun b _ => hbox b
  simp +decide [boxGroup, all_line, hboxes, Token.isLegal, Attribute.isLegal_mk]

theorem all_label (f : Frame Float) (n i : Nat) (r : Record Float) :
    (label f n i r).all Token.isLegal = isLegalText r.label := by
  rw [label, all_textLine (by decide)]
  cases isRotated n <;> simp +decide [all_place, all_font, isLegal_turned, Attribute.isLegal_mk]

theorem all_labels (f : Frame Float) (records : List (Record Float)) :
    (labels f records).all Token.isLegal = records.all fun r => isLegalText r.label := by
  rw [labels, List.all_flatten]
  -- the number of a label is no text of it
  suffices hfrom : ∀ number : Nat → Nat,
      (records.mapIdx fun i r => label f records.length (number i) r).all
        (·.all Token.isLegal) = records.all fun r => isLegalText r.label from hfrom id
  generalize records.length = n
  induction records with
  | nil => exact fun _ => rfl
  | cons r records ih =>
    intro number
    rw [List.mapIdx_cons, List.all_cons, List.all_cons, all_label, ih fun i => number (i + 1)]

/-! ## The whole drawing -/

/-- The texts of a drawing that are given to it. -/
def givenTexts (style : Style Float) (records : List (Record Float)) : List String :=
  style.title :: style.yLabel :: style.xLabel :: records.map Record.label

theorem all_drawing (records : List (Record Float)) (bounds : Bounds Float)
    (style : Style Float) :
    (drawing records bounds style).all Token.isLegal =
      (givenTexts style records).all isLegalText := by
  have hend : (line [.closing "svg"]).all Token.isLegal = true := by decide
  simp only [drawing_eq, List.all_append, all_root, all_surroundings, all_boxGroup, all_labels,
    hend, givenTexts, List.all_cons, List.all_map, Bool.true_and, Bool.and_true, Bool.and_assoc]
  rfl

/-- All characters of a drawing are legal iff those of the texts that are given to it are. -/
theorem isLegal_renderPlot_iff (records : List (Record Float)) (bounds : Bounds Float)
    (style : Style Float) :
    (∀ c ∈ (renderPlot records bounds style).toList, isLegal c = true) ↔
      ∀ s ∈ givenTexts style records, ∀ c ∈ s.toList, isLegal c = true := by
  rw [← List.all_eq_true, renderPlot, all_render, all_drawing, List.all_eq_true]
  simp only [isLegalText_iff]

/-- A drawing is given an illegal character only to hold one. -/
theorem exists_illegal_renderPlot {records : List (Record Float)} {style : Style Float}
    (h : ∃ s ∈ givenTexts style records, ∃ c ∈ s.toList, isLegal c = false)
    (bounds : Bounds Float) :
    ∃ c ∈ (renderPlot records bounds style).toList, isLegal c = false := by
  obtain ⟨s, hs, c, hc, hillegal⟩ := h
  by_contra hnone
  have hlegal : ∀ c ∈ (renderPlot records bounds style).toList, isLegal c = true := by
    simpa using hnone
  have hgiven := (isLegal_renderPlot_iff records bounds style).mp hlegal s hs c hc
  rw [hillegal] at hgiven
  cases hgiven

end Drawing

open Drawing (givenTexts)

/-- **Which plots of an input are documents.** All characters of a drawing are legal iff those of
    its titles and of the labels of its records are; of a drawing with any other one no converter
    makes a portable document. The labels come from the input: where the text of the input and the
    titles are legal, so is the drawing. -/
theorem renderPlot_legal {header : Bool} {stream : Except StreamError (List UInt8)}
    {records : List (Record Float)} (hread : readRecords header stream = .ok records)
    {converter : Portable.Converter} (hconverter : converter.IsStrict) (bounds : Bounds Float)
    (style : Style Float) :
    let drawing := renderPlot records bounds style
    ((∀ c ∈ drawing.toList, isLegal c = true) ↔
      ∀ s ∈ givenTexts style records, ∀ c ∈ s.toList, isLegal c = true) ∧
    ((∃ s ∈ givenTexts style records, ∃ c ∈ s.toList, isLegal c = false) →
      ∃ reason, converter drawing = .error (.unreadable reason)) ∧
    ∃ text : String, stream = .ok text.toUTF8.toList ∧
      ((∀ s ∈ [text, style.title, style.yLabel, style.xLabel], ∀ c ∈ s.toList,
        isLegal c = true) → ∀ c ∈ drawing.toList, isLegal c = true) := by
  intro drawing
  have hdrawing := Drawing.isLegal_renderPlot_iff records bounds style
  refine ⟨hdrawing, fun h => hconverter drawing (Drawing.exists_illegal_renderPlot h bounds), ?_⟩
  obtain ⟨text, hstream, hlabels, -⟩ := origin_of_readRecords hread
  refine ⟨text, hstream, fun hlegal => hdrawing.mpr fun s hs => ?_⟩
  obtain ⟨htext, htitles⟩ := List.forall_mem_cons.mp hlegal
  rw [givenTexts, List.mem_cons, List.mem_cons, List.mem_cons, List.mem_map] at hs
  rcases hs with rfl | rfl | rfl | ⟨r, hr, rfl⟩
  · exact htitles _ (by simp)
  · exact htitles _ (by simp)
  · exact htitles _ (by simp)
  · exact fun c hc => htext c (hlabels r hr c hc)

/-- The record of a text with markup in its label. -/
theorem renderPlot_legal_markup :
    readRecords false (.ok "'<a>',1,2,3,4,5\n".toUTF8.toList) =
        .ok [⟨"<a>", 1, 2, 3, 4, 5, 1⟩] ∧
      Portable.standIn.IsStrict ∧
      ∀ c ∈ (renderPlot [⟨"<a>", 1, 2, 3, 4, 5, 1⟩] ⟨2, 5⟩
        ⟨900, 500, "a & b", "", ""⟩).toList, isLegal c = true := by
  have hread : readRecords false (.ok "'<a>',1,2,3,4,5\n".toUTF8.toList) =
      .ok [⟨"<a>", 1, 2, 3, 4, 5, 1⟩] := by
    rw [readRecords_toUTF8]
    rfl
  refine ⟨hread, Portable.isStrict_standIn, ?_⟩
  have hlegal := renderPlot_legal hread Portable.isStrict_standIn ⟨2, 5⟩
    ⟨900, 500, "a & b", "", ""⟩
  exact hlegal.1.mpr (by simp [givenTexts, isLegal])

/-- A control character in a label goes through: the input is read, the drawing holds the character,
    and no converter takes the drawing. -/
theorem renderPlot_illegal_label :
    readRecords false (.ok "'\x01',1,2,3,4,5\n".toUTF8.toList) =
        .ok [⟨"\x01", 1, 2, 3, 4, 5, 1⟩] ∧
      ∃ bounds, Bounds.ofRecords [⟨"\x01", 1, 2, 3, 4, 5, 1⟩] = .ok bounds ∧
        let drawing := renderPlot [⟨"\x01", 1, 2, 3, 4, 5, 1⟩] bounds ⟨900, 500, "", "", ""⟩
        (∃ c ∈ drawing.toList, isLegal c = false) ∧
          ∀ converter : Portable.Converter, converter.IsStrict →
            ∃ reason, converter drawing = .error (.unreadable reason) := by
  have hgiven : ∃ s ∈ givenTexts ⟨900, 500, "", "", ""⟩ [⟨"\x01", 1, 2, 3, 4, 5, 1⟩],
      ∃ c ∈ s.toList, isLegal c = false :=
    ⟨"\x01", by simp [givenTexts], '\x01', by decide, by decide⟩
  refine ⟨?_, _, rfl, ?_⟩
  · rw [readRecords_toUTF8]
    rfl
  · intro drawing
    have hillegal : ∃ c ∈ drawing.toList, isLegal c = false :=
      Drawing.exists_illegal_renderPlot hgiven _
    exact ⟨hillegal, fun converter hconverter => hconverter drawing hillegal⟩

end LatencyPlot
