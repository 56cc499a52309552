/-
  LatencyPlot.Proofs.Run.Agreement

  The outputs of a run that succeeds tell of the same records. The page holds
  the drawing that is written by itself as well; both have one entry for each
  record of the input, in one stable order of these, and the same title.
-/
import LatencyPlot.Proofs.Page.Structure
import LatencyPlot.Proofs.Plot.Structure
import LatencyPlot.Proofs.Record.Sorting
import LatencyPlot.Proofs.Run.Outcome

namespace LatencyPlot

open Markup

/-- Of the texts of a drawing the labels alone have their class. -/
theorem Drawing.filter_label_texts (f : Frame Float) (style : Style Float)
    (records : List (Record Float)) :
    ((texts f style records).map elementOf).filter (·.class? == some "label") =
      records.map fun r => .holding (some "label") r.label := by
  have hothers : ((texts f style []).map elementOf).filter (·.class? == some "label") = [] := by
    rw [List.filter_eq_nil_iff]
    intro e he
    simp only [texts, List.map_append, List.map_map, List.mem_append, List.mem_map] at he
    rcases he with (((⟨t, -, rfl⟩ | ⟨v, -, rfl⟩) | ⟨t, -, rfl⟩) | ⟨t, -, rfl⟩) | ⟨r, hr, -⟩
    · simp [elementOf, Element.holding]
    · simp [elementOf, Element.holding]
    · simp [elementOf, Element.holding]
    · simp [elementOf, Element.holding]
    · cases hr
  have hlabels : (records.map fun r => Element.holding (some "label") r.label).filter
      (·.class? == some "label") = records.map fun r => .holding (some "label") r.label := by
    rw [List.filter_eq_self]
    intro e he
    obtain ⟨r, -, rfl⟩ := List.mem_map.mp he
    rfl
  have hsplit : (texts f style records).map elementOf = (texts f style []).map elementOf ++
      records.map fun r => .holding (some "label") r.label := by
    simp only [texts, List.map_append, List.map_map, List.map_nil, List.append_nil]
    rfl
  rw [hsplit, List.filter_append, hothers, hlabels, List.nil_append]

theorem Bounds.ne_nil_of_ofRecords {records : List (Record Float)} {bounds : Bounds Float}
    (h : ofRecords records = .ok bounds) : records ≠ [] := by
  rintro rfl
  cases h

namespace Session

open Command (Arguments)
open Storage

variable {a : Arguments}

/-! ## Agreement -/

/-- A page, as it reads above its drawing and below it, and a drawing tell of the same records, in
    the same order. -/
structure TellsSame (a : Arguments) (records sorted : List (Record Float))
    (above below drawing : Layout Token) : Prop where
  order : StableSort a.sortBy records sorted
  nonempty : 1 ≤ records.length
  boxCount : countClass "box" drawing.tags = records.length
  rowCount : (rows below.chunks).tail.length = records.length
  runCount : ∃ written, elements "div" above.chunks =
      [⟨some "meta", some written⟩, ⟨some "plot", none⟩] ∧
    Page.runCount? written = some records.length
  labels : (elements "text" drawing.chunks).filter (·.class? == some "label") =
    sorted.map fun r => .holding (some "label") r.label
  entries : List.Forall₂ Page.RowReads sorted (rows below.chunks).tail
  title : elements "title" above.chunks = [.holding none (titleOf a)]
  heading : elements "h1" above.chunks = [.holding none (titleOf a)]
  /-- The title comes before all other texts of the drawing, if it is not empty. -/
  texts : ∃ f, elements "text" drawing.chunks =
    (Drawing.texts f { styleOf a with title := titleOf a } sorted).map Drawing.elementOf

theorem tellsSame_of_reads {records sorted : List (Record Float)} {bounds : Bounds Float} {p : Page}
    (hsort : StableSort a.sortBy records sorted) (hnonempty : 1 ≤ records.length)
    (htitle : p.title = titleOf a) (hrecords : p.records = sorted) :
    TellsSame a records sorted p.above p.below (outline (drawing sorted bounds (styleOf a))) := by
  have hlength : sorted.length = records.length := hsort.perm.length_eq
  have htexts := Drawing.elementsOf_drawing sorted bounds (styleOf a)
  have htable : (rows p.below.chunks).tail = sorted.map Page.rowOf := by
    rw [p.rows_below, hrecords]
    rfl
  have hrowCount : (rows p.below.chunks).tail.length = records.length := by
    rw [htable, List.length_map, hlength]
  refine ⟨hsort, hnonempty, ?_, hrowCount, ?_, ?_, ?_, ?_, ?_, _, htexts⟩
  · exact (Drawing.reads_outline sorted bounds (styleOf a)).boxCount.trans hlength
  · obtain ⟨written, hdiv, hcount⟩ := p.reads.runs
    exact ⟨written, hdiv, hrowCount ▸ hcount⟩
  · exact (congrArg _ htexts).trans (Drawing.filter_label_texts _ _ sorted)
  · rw [htable, List.forall₂_map_right_iff, List.forall₂_same]
    exact fun r _ => Page.rowReads_rowOf r
  · rw [← htitle]
    exact p.reads.title
  · rw [← htitle]
    exact p.reads.heading

/-- The outputs that a run leaves in a store agree with one another and with the input. -/
def OutputsAgree (a : Arguments) (converter : Portable.Converter) (before after : Store) : Prop :=
  ∃ stream records sorted page drawing above below layout,
    Source.read a.input (before.read a.input) = .ok stream ∧
    readRecords a.header stream = .ok records ∧
    after.read (pageOf a) = .ok page.toUTF8.toList ∧
    (∀ path, a.svg = some path → after.read path = .ok drawing.toUTF8.toList) ∧
    (∀ path, a.pdf = some path →
      ∃ content, converter drawing = .ok content ∧ after.read path = .ok content) ∧
    Page.Encloses page drawing above below ∧ read drawing.toList = some layout ∧
    TellsSame a records sorted above below layout

/-- The page for some records, as a run makes it. -/
def pageFor (a : Arguments) (records : List (Record Float)) (bounds : Bounds Float) : Page :=
  ⟨titleOf a, a.input, renderPlot records bounds (styleOf a), records, bounds⟩

theorem pageText_figureOf (a : Arguments) (records : List (Record Float)) (bounds : Bounds Float) :
    pageText a (figureOf a records bounds) = Page.render (pageFor a records bounds) := rfl

/-- **All outputs of a run that succeeds tell of the same records.** The page holds the drawing that
    is written by itself, and that the converter is given. -/
theorem run_outputs_agree (stats : Bool) (a : Arguments) (system : System)
    (hapart : WritesApart a system.store) (hsuccess : exitStatus (outcome stats a system) = 0) :
    OutputsAgree a system.converter system.store (machineAfter stats a system).store := by
  obtain ⟨figure, outputs, hprep, hall, hwritten⟩ := exists_outputs_of_success hsuccess
  obtain ⟨-, records, ⟨stream, hstream, hread⟩, bounds, hbounds, rfl⟩ := prepare_eq_ok_iff.mp hprep
  have hpage := hapart.read_page hall hwritten
  have hsort : StableSort a.sortBy records (sortRecords a.sortBy records) :=
    stableSort_sortRecords a.sortBy records
  generalize sortRecords a.sortBy records = sorted at *
  rw [pageText_figureOf] at hpage
  have hnonempty : 1 ≤ records.length := by
    rw [← hsort.perm.length_eq]
    exact List.length_pos_of_ne_nil (Bounds.ne_nil_of_ofRecords hbounds)
  refine ⟨stream, records, sorted, _, renderPlot sorted bounds (styleOf a), _, _,
    outline (drawing sorted bounds (styleOf a)), hstream, hread, hpage, ?_, ?_,
    (pageFor a sorted bounds).reads.parts, ?_, ?_⟩
  · exact fun path hsvg => hapart.read_drawing hall hwritten hsvg
  · exact fun path hpdf => hapart.read_portable hall hwritten hpdf
  · exact Drawing.read_renderPlot sorted bounds (styleOf a)
  · exact tellsSame_of_reads hsort hnonempty rfl rfl

theorem run_outputs_agree_csv :
    let a := drawingArguments "runs.csv"
    let system := oneRunSystem "runs.csv"
    WritesApart a system.store ∧ exitStatus (outcome true a system) = 0 ∧
      OutputsAgree a system.converter system.store (machineAfter true a system).store := by
  intro a system
  have hdiffer : (system.store.target "runs.html").toOption ≠
      (system.store.target "../runs.svg").toOption := by decide +kernel
  have hpaths : requestedPaths a = ["runs.html", "../runs.svg"] := by decide +kernel
  have hapart : WritesApart a system.store := by
    rw [WritesApart, hpaths, List.pairwise_pair]
    intro location hpage hdrawing
    rw [hpage, hdrawing] at hdiffer
    exact hdiffer rfl
  have hsuccess : exitStatus (outcome true a system) = 0 := by decide +kernel
  exact ⟨hapart, hsuccess, run_outputs_agree true _ _ hapart hsuccess⟩

end Session

end LatencyPlot
