/-
  LatencyPlot.Proofs.Page.Structure

  How a page reads around its drawing, whatever its title, its source and its
  labels hold. The drawing stands in the page as it is; above it are the title
  and the line about the source, below it the table, with one row for each
  record. Which records are out of order is all that decides on the tags.
-/
import LatencyPlot.Page
import LatencyPlot.Proofs.Markup.Elements
import LatencyPlot.Proofs.Number.Written
import Mathlib.Data.List.Forall2

namespace LatencyPlot

open Markup

namespace Page

/-! ## Parts -/

/-- What stands in a page before the drawing. -/
def aboveTokens (p : Page) : List Token :=
  line [.verbatim "<!DOCTYPE html>"] ++ line [.opening "html" [⟨"lang", "en"⟩]] ++ p.head ++
    line [.opening "body" []] ++ textLine "h1" [] p.title ++ p.summary ++
    line [.opening "div" [⟨"class", "plot"⟩]]

/-- What stands in a page behind the drawing. -/
def belowTokens (p : Page) : List Token :=
  line [.closing "div"] ++ table p.records ++ line [.closing "body"] ++ line [.closing "html"]

theorem tokens_eq (p : Page) : p.tokens = p.aboveTokens ++ .verbatim p.plot :: p.belowTokens := by
  simp only [tokens, body, figure, aboveTokens, belowTokens, List.append_assoc,
    List.cons_append, List.nil_append]

/-- The text of the drawing goes into the page unescaped, between what is written above and below
    it. -/
theorem toList_render (p : Page) :
    (render p).toList =
      p.aboveTokens.flatMap Token.chars ++ p.plot.toList ++ p.belowTokens.flatMap Token.chars := by
  rw [render, Markup.render, String.toList_ofList, tokens_eq, List.flatMap_append,
    List.flatMap_cons, List.append_assoc]
  rfl

/-- How a page reads above the drawing. -/
def above (p : Page) : Layout Token := outline p.aboveTokens

/-- How a page reads below the drawing. -/
def below (p : Page) : Layout Token := outline p.belowTokens

/-! ## Soundness -/

/-- The rules of the style sheet hold no angle bracket that could begin a tag. -/
theorem isSound_styleSheet :
    (styleSheet.flatMap fun rule => line [.verbatim rule]).all Token.isSound = true := by
  decide +kernel

theorem isSound_head (p : Page) : p.head.all Token.isSound = true := by
  simp only [head, List.all_append, isSound_styleSheet]
  simp +decide [line, lineEnd, emptyLine, textLine, Token.isSound]

/-- The texts that are given to a page cannot make its tags unsound, as they are escaped. -/
theorem isSound_aboveTokens (p : Page) : p.aboveTokens.all Token.isSound = true := by
  simp only [aboveTokens, List.all_append, isSound_head]
  simp +decide [summary, line, lineEnd, textLine, Token.isSound]

theorem isSound_row (r : Record Float) : (row r).all Token.isSound = true := by
  unfold row
  cases r.isMonotonic <;> simp +decide [line, lineEnd, cell, Record.bounds, Token.isSound]

theorem isSound_belowTokens (p : Page) : p.belowTokens.all Token.isSound = true := by
  have hrows : (p.records.flatMap row).all Token.isSound = true := by
    rw [List.all_flatMap, List.all_eq_true]
    exact fun r _ => isSound_row r
  simp only [belowTokens, table, List.all_append, hrows]
  decide

/-! ## Tags -/

/-- Above the drawing all pages have the same tags. -/
theorem tagsOf_aboveTokens (p p' : Page) : tagsOf p.aboveTokens = tagsOf p'.aboveTokens := by
  simp only [aboveTokens, head, summary, tagsOf_append, tagsOf_line, tagsOf_textLine]
  rfl

/-- Only the class of a row depends on its record. -/
theorem tagsOf_row (r : Record Float) :
    tagsOf (row r) = .opening "tr" (if r.isMonotonic then [] else [⟨"class", "odd"⟩]) ::
      ((List.replicate 6 [Token.opening "td" [], .closing "td"]).flatten ++ [.closing "tr"]) := by
  rw [row, tagsOf_line]
  rfl

/-- Below the drawing two pages differ in the classes of their rows at most. -/
theorem tagsOf_belowTokens_congr {p p' : Page}
    (h : p.records.map Record.isMonotonic = p'.records.map Record.isMonotonic) :
    tagsOf p.belowTokens = tagsOf p'.belowTokens := by
  have hrows : ∀ records : List (Record Float), tagsOf (records.flatMap row) =
      ((records.map Record.isMonotonic).map fun inOrder =>
        .opening "tr" (if inOrder then [] else [⟨"class", "odd"⟩]) ::
          ((List.replicate 6 [Token.opening "td" [], .closing "td"]).flatten ++
            [.closing "tr"])).flatten := by
    intro records
    rw [List.flatMap_def, tagsOf_flatten, List.map_map, List.map_map]
    exact congrArg List.flatten (List.map_congr_left fun r _ => tagsOf_row r)
  simp only [belowTokens, table, tagsOf_append, hrows, h]

/-! ## The table -/

/-- The row of a record, as it reads. -/
def rowOf (r : Record Float) : Row :=
  ⟨if r.isMonotonic then none else some "odd",
    .holding none r.label :: r.bounds.map fun v => .holding none (Number.fixed 4 v)⟩

/-- Each cell of a row is an element, with its own content. -/
theorem elementsOf_cells (contents : List String) :
    elementsOf "td" (contents.flatMap cell) = contents.map (.holding none) := by
  induction contents with
  | nil => rfl
  | cons content rest ih =>
    have htext : ∀ t ∈ [Token.text content], t.isTag = false := by simp [Token.isTag]
    have hcell := elementsOf_element_append htext "td" [] (rest.flatMap cell)
    rw [ih] at hcell
    simpa [cell, Token.chars, Element.holding, classOf] using hcell

/-- The row of a record is read as one row, whatever follows it. -/
theorem rowsOf_row_append (r : Record Float) (rest : List Token) :
    rowsOf (row r ++ rest) = rowOf r :: rowsOf rest := by
  let contents := r.label :: r.bounds.map (Number.fixed 4)
  have hcells : cell r.label ++ r.bounds.flatMap (fun v => cell (Number.fixed 4 v)) =
      contents.flatMap cell := by
    rw [List.flatMap_cons, List.flatMap_map]
  have hinner : ∀ t ∈ contents.flatMap cell, t.name? ≠ some "tr" := by
    intro t ht
    obtain ⟨content, -, hmem⟩ := List.mem_flatMap.mp ht
    simp only [cell, List.mem_cons, List.not_mem_nil, or_false] at hmem
    rcases hmem with rfl | rfl | rfl <;> simp [Token.name?]
  rw [row, hcells, rowsOf_rowLine_append hinner, elementsOf_cells, rowOf]
  cases r.isMonotonic <;> simp [classOf, contents]

/-- The rows of a table are those of its records, in their order. -/
theorem rowsOf_records_append (records : List (Record Float)) (rest : List Token) :
    rowsOf (records.flatMap row ++ rest) = records.map rowOf ++ rowsOf rest := by
  induction records with
  | nil => rfl
  | cons r records ih =>
    rw [List.flatMap_cons, List.append_assoc, rowsOf_row_append, ih]
    rfl

/-- The heading of the table is a row without a class, and without cells for numbers. -/
theorem rowsOf_tableHeading_append (rest : List Token) :
    rowsOf (tableHeading ++ rest) = ⟨none, []⟩ :: rowsOf rest := by
  let inner := ["Run", "Min", "25%", "Median", "75%", "Max"].flatMap headingCell
  have hrow : ∀ t ∈ inner, t.name? ≠ some "tr" := by decide
  have hcell : elementsOf "td" inner = [] := by decide
  rw [tableHeading, rowsOf_rowLine_append hrow, hcell]
  rfl

/-- Below the drawing there is one table, with a row for each record behind its heading. -/
theorem rows_below (p : Page) : rows p.below.chunks = ⟨none, []⟩ :: p.records.map rowOf := by
  show rowsOf p.belowTokens = _
  rw [belowTokens, table]
  simp only [List.append_assoc]
  rw [rowsOf_append_of_ne (by decide), rowsOf_append_of_ne (by decide), rowsOf_tableHeading_append,
    rowsOf_records_append]
  have hend : rowsOf (line [.closing "table"] ++ (line [.closing "body"] ++
      line [.closing "html"])) = [] := by decide
  rw [hend, List.append_nil]

/-! ## The heading -/

/-- Of all that the head of a page holds the title is the one element with a text. -/
theorem elementsOf_head_append {name : String} (hname : name ∉ ["head", "meta", "style"])
    (p : Page) (rest : List Token) :
    elementsOf name (p.head ++ rest) =
      (if "title" = name then [.holding none p.title] else []) ++ elementsOf name rest := by
  simp only [List.mem_cons, List.not_mem_nil, or_false, not_or] at hname
  obtain ⟨hhead, hmeta, hstyle⟩ := hname
  have hrules : ∀ t ∈ styleSheet.flatMap (fun rule => line [.verbatim rule]),
      t.name? ≠ some name := by
    intro t ht
    obtain ⟨rule, -, hmem⟩ := List.mem_flatMap.mp ht
    simp only [line, lineEnd, List.cons_append, List.nil_append, List.mem_cons, List.not_mem_nil,
      or_false] at hmem
    rcases hmem with rfl | rfl <;> simp [Token.name?]
  have htitle := elementsOf_textLine_append_ite name "title" [] p.title
  rw [head]
  simp only [List.append_assoc]
  rw [elementsOf_line_append (by simp [Token.name?, Ne.symm hhead]),
    elementsOf_emptyLine_append (Ne.symm hmeta), elementsOf_emptyLine_append (Ne.symm hmeta),
    htitle, elementsOf_line_append (by simp [Token.name?, Ne.symm hstyle]),
    elementsOf_append_of_ne hrules,
    elementsOf_line_append (by simp [Token.name?, Ne.symm hstyle]),
    elementsOf_line_append (by simp [Token.name?, Ne.symm hhead])]
  rfl

/-- The tokens of the line about the source, between its tags. -/
def summaryTokens (p : Page) : List Token :=
  [.text "Source: ", .text p.source, .verbatim " &middot; ",
    .text (toString p.records.length), .text " runs", .verbatim " &middot; ",
    .text "y-axis ", .text (tickText p.bounds.min), .text " to ", .text (tickText p.bounds.max)]

/-- What is written in the line about the source. -/
def summaryText (p : Page) : List Char := p.summaryTokens.flatMap Token.chars

theorem summary_eq (p : Page) :
    p.summary =
      line (.opening "div" [⟨"class", "meta"⟩] :: (p.summaryTokens ++ [.closing "div"])) :=
  rfl

/-- There is no tag in the line about the source. -/
theorem isTag_of_mem_summaryTokens (p : Page) : ∀ t ∈ p.summaryTokens, t.isTag = false := by
  simp [summaryTokens, Token.isTag]

theorem name?_of_mem_summaryTokens (p : Page) : ∀ t ∈ p.summaryTokens, t.name? = none := by
  simp [summaryTokens, Token.name?]

/-- The line about the source is one element, with what is written in it. -/
theorem elementsOf_summary_append (p : Page) (rest : List Token) :
    elementsOf "div" (p.summary ++ rest) =
      ⟨some "meta", some p.summaryText⟩ :: elementsOf "div" rest := by
  have hend : elementsOf "div" (lineEnd :: rest) = elementsOf "div" rest :=
    elementsOf_cons_of_not_tag rfl "div" rest
  have helement := elementsOf_element_append (isTag_of_mem_summaryTokens p) "div"
    [⟨"class", "meta"⟩] (lineEnd :: rest)
  rw [hend] at helement
  rw [summary_eq, line]
  simpa [classOf, summaryText] using helement

/-- It holds no element of another name. -/
theorem elementsOf_summary_append_of_ne {name : String} (h : name ≠ "div") (p : Page)
    (rest : List Token) : elementsOf name (p.summary ++ rest) = elementsOf name rest := by
  rw [summary_eq]
  refine elementsOf_line_append ?_ rest
  intro t ht
  rw [List.mem_cons, List.mem_append, List.mem_singleton] at ht
  rcases ht with rfl | ht | rfl
  · simp [Token.name?, Ne.symm h]
  · simp [name?_of_mem_summaryTokens p t ht]
  · simp [Token.name?, Ne.symm h]

/-! ## The number of runs -/

/-- What stands behind the first dot in the middle of a line. -/
def behindDot : List Char → List Char
  | '&' :: 'm' :: 'i' :: 'd' :: 'd' :: 'o' :: 't' :: ';' :: cs => cs
  | _ :: cs => behindDot cs
  | [] => []

/-- The number of runs that the line about the source tells. -/
def runCount? (written : List Char) : Option Nat :=
  match behindDot written with
  | ' ' :: cs =>
    let digits := cs.takeWhile Char.isDigit
    if digits ≠ [] ∧ " runs &middot; ".toList <+: cs.dropWhile Char.isDigit then
      some (Nat.ofDigitChars 10 digits 0)
    else none
  | _ => none

theorem behindDot_cons_of_ne {c : Char} (h : c ≠ '&') (cs : List Char) :
    behindDot (c :: cs) = behindDot cs := by
  rw [behindDot]
  simp_all

/-- An escaped character is never read as the dot, or as a part of it. -/
theorem behindDot_escapeChar_append (c : Char) (cs : List Char) :
    behindDot (escapeChar c ++ cs) = behindDot cs := by
  rw [escapeChar]
  -- no reference begins like the dot
  split
  · simp [behindDot]
  split
  · simp [behindDot]
  split
  · simp [behindDot]
  split
  · simp [behindDot]
  split
  · simp [behindDot]
  · next hamp _ _ _ _ => exact behindDot_cons_of_ne hamp cs

/-- The first dot in a line stands behind all that is escaped before it. -/
theorem behindDot_escape_append (s cs : List Char) :
    behindDot (escape s ++ cs) = behindDot cs := by
  rw [escape]
  induction s with
  | nil => rfl
  | cons c s ih => rw [List.flatMap_cons, List.append_assoc, behindDot_escapeChar_append, ih]

theorem toList_toString (n : Nat) : (toString n).toList = Nat.toDigits 10 n := by
  rw [Nat.toString_eq_repr, Nat.repr_eq_ofList_toDigits, String.toList_ofList]

/-- The number of runs is read back from between the two dots, whatever stands around them. -/
theorem runCount?_append (before : List Char) (n : Nat) (rest : List Char) :
    runCount? (escape before ++ (" &middot; ".toList ++ (Nat.toDigits 10 n ++
      (" runs &middot; ".toList ++ rest)))) = some n := by
  have hall : ∀ c ∈ Nat.toDigits 10 n, c.isDigit = true :=
    fun c hc => Nat.isDigit_of_mem_toDigits (by decide) (by decide) hc
  have hne : Nat.toDigits 10 n ≠ [] := Nat.toDigits_ne_nil
  have hdot : ∀ cs, behindDot (" &middot; ".toList ++ cs) = ' ' :: cs := fun cs => by
    simp [behindDot]
  -- the digits end where the word behind them begins
  have htake : (Nat.toDigits 10 n ++ (" runs &middot; ".toList ++ rest)).takeWhile Char.isDigit =
      Nat.toDigits 10 n := by
    rw [List.takeWhile_append_of_pos hall]
    simp
  have hdrop : (Nat.toDigits 10 n ++ (" runs &middot; ".toList ++ rest)).dropWhile Char.isDigit =
      " runs &middot; ".toList ++ rest := by
    rw [List.dropWhile_append_of_pos hall]
    simp
  simp only [runCount?, behindDot_escape_append, hdot, htake, hdrop, hne, ne_eq, not_false_eq_true,
    List.prefix_append, and_self, if_true, Nat.ofDigitChars_ten_toDigits]

/-- What the line about the source tells: the source, the number of runs, and the axis. -/
theorem summaryText_eq (p : Page) : p.summaryText =
    escape ("Source: ".toList ++ p.source.toList) ++ (" &middot; ".toList ++
      (Nat.toDigits 10 p.records.length ++ (" runs &middot; ".toList ++
        (escape "y-axis ".toList ++ (escape (tickText p.bounds.min).toList ++
          (escape " to ".toList ++ escape (tickText p.bounds.max).toList)))))) := by
  have hcount : escape (toString p.records.length).toList = Nat.toDigits 10 p.records.length := by
    rw [toList_toString]
    exact escape_of_isNumeral Number.isNumeral_of_mem_toDigits
  have hruns : escape " runs".toList ++ " &middot; ".toList = " runs &middot; ".toList := by
    decide +kernel
  rw [← hruns, ← hcount]
  simp only [summaryText, summaryTokens, List.flatMap_cons, List.flatMap_nil, Token.chars,
    escape_append, List.append_assoc, List.append_nil]

theorem runCount?_summaryText (p : Page) : runCount? p.summaryText = some p.records.length := by
  rw [summaryText_eq, runCount?_append]

/-! ## The whole page -/

/-- Above the drawing the title, the heading and two divisions are all the elements of their names.
    -/
theorem elementsOf_aboveTokens {name : String}
    (hname : name ∉ ["html", "head", "meta", "style", "body"]) (p : Page) :
    elementsOf name p.aboveTokens =
      (if "title" = name then [.holding none p.title] else []) ++
      (if "h1" = name then [.holding none p.title] else []) ++
      (if "div" = name then [⟨some "meta", some p.summaryText⟩, ⟨some "plot", none⟩] else []) := by
  have hsubset : ["head", "meta", "style"] ⊆ ["html", "head", "meta", "style", "body"] := by decide
  have hhead : name ∉ ["head", "meta", "style"] := fun hmem => hname (hsubset hmem)
  have hhtml : "html" ≠ name := fun heq => hname (by simp [← heq])
  have hbody : "body" ≠ name := fun heq => hname (by simp [← heq])
  have hheading := elementsOf_textLine_append_ite name "h1" [] p.title
  have hdiv : elementsOf name (p.summary ++ line [.opening "div" [⟨"class", "plot"⟩]]) =
      if "div" = name then [⟨some "meta", some p.summaryText⟩, ⟨some "plot", none⟩] else [] := by
    split
    · next heq =>
      subst heq
      rw [elementsOf_summary_append]
      rfl
    · next hne =>
      rw [elementsOf_summary_append_of_ne (Ne.symm hne), ← List.append_nil (line _),
        elementsOf_line_append (by simp [Token.name?, hne])]
      rfl
  simp only [aboveTokens, List.append_assoc]
  rw [elementsOf_line_append (by simp [Token.name?]),
    elementsOf_line_append (by simp [Token.name?, hhtml]), elementsOf_head_append hhead,
    elementsOf_line_append (by simp [Token.name?, hbody]), hheading, hdiv]
  rfl

/-- How the row of a record reads: its first cell stands for the label, the others are the numbers
    as they are written. -/
structure RowReads (r : Record Float) (row : Row) : Prop where
  odd : row.class? = some "odd" ↔ r.isMonotonic = false
  cells : ∃ first others, row.cells = first :: others ∧ first.text? = some r.label.toList ∧
    others.map Element.written? = r.bounds.map fun v => some (Number.fixed 4 v).toList

/-- The text of a page holds a drawing as it is, on the lines between the two tags of an element;
    so the page reads above it, and so below it. -/
def Encloses (page drawing : String) (above below : Layout Token) : Prop :=
  ∃ before after, page.toList = before ++ drawing.toList ++ after ∧
    "<div class=\"plot\">\n".toList <:+ before ∧ "</div>\n".toList <+: after ∧
    read before = some above ∧ read after = some below

/-- How a page reads above its drawing and below it. -/
structure Reads (p : Page) (above below : Layout Token) : Prop where
  parts : Encloses (render p) p.plot above below
  title : elements "title" above.chunks = [.holding none p.title]
  heading : elements "h1" above.chunks = [.holding none p.title]
  /-- Behind its heading the table has a row for each record, in their order. -/
  table : ∃ entries, rows below.chunks = ⟨none, []⟩ :: entries ∧
    List.Forall₂ RowReads p.records entries
  /-- The line about the source tells how many rows these are. -/
  runs : ∃ written,
    elements "div" above.chunks = [⟨some "meta", some written⟩, ⟨some "plot", none⟩] ∧
    runCount? written = some (rows below.chunks).tail.length

/-- The row of a record reads as it ought to. -/
theorem rowReads_rowOf (r : Record Float) : RowReads r (rowOf r) where
  odd := by
    rw [rowOf]
    cases r.isMonotonic <;> simp
  cells := by
    refine ⟨_, _, rfl, Element.text?_holding none r.label, ?_⟩
    rw [List.map_map]
    refine List.map_congr_left fun v _ => congrArg some ?_
    exact escape_of_isNumeral (Number.isNumeral_of_mem_fixed 4 v)

theorem suffix_above (p : Page) :
    "<div class=\"plot\">\n".toList <:+ p.aboveTokens.flatMap Token.chars := by
  rw [aboveTokens, List.flatMap_append]
  have hline : (line [.opening "div" [⟨"class", "plot"⟩]]).flatMap Token.chars =
    "<div class=\"plot\">\n".toList := by decide +kernel
  rw [hline]
  exact List.suffix_append _ _

theorem prefix_below (p : Page) : "</div>\n".toList <+: p.belowTokens.flatMap Token.chars := by
  have hline : (line [.closing "div"]).flatMap Token.chars = "</div>\n".toList := by decide +kernel
  rw [belowTokens, List.append_assoc, List.append_assoc, List.flatMap_append, hline]
  exact List.prefix_append _ _

theorem read_above (p : Page) : read (p.aboveTokens.flatMap Token.chars) = some p.above := by
  have hread := read_render p.isSound_aboveTokens
  rwa [Markup.render, String.toList_ofList] at hread

theorem read_below (p : Page) : read (p.belowTokens.flatMap Token.chars) = some p.below := by
  have hread := read_render p.isSound_belowTokens
  rwa [Markup.render, String.toList_ofList] at hread

/-- A page reads as it ought to, above its drawing and below it. -/
theorem reads (p : Page) : p.Reads p.above p.below where
  parts := ⟨_, _, p.toList_render, p.suffix_above, p.prefix_below, p.read_above, p.read_below⟩
  title := (elementsOf_aboveTokens (by decide) p).trans (by simp)
  heading := (elementsOf_aboveTokens (by decide) p).trans (by simp)
  table := by
    refine ⟨_, p.rows_below, ?_⟩
    rw [List.forall₂_map_right_iff, List.forall₂_same]
    exact fun r _ => rowReads_rowOf r
  runs := by
    refine ⟨p.summaryText, (elementsOf_aboveTokens (by decide) p).trans (by simp), ?_⟩
    rw [runCount?_summaryText, rows_below, List.tail_cons, List.length_map]

/-- **A page is a faithful table around its drawing, whatever its texts hold.** It reads as `Reads`
    says, and the tags above and below the drawing are those of every page with records of which
    the same are out of order. -/
theorem render_reads (p : Page) :
    p.Reads p.above p.below ∧
    ∀ p' : Page, p.records.map Record.isMonotonic = p'.records.map Record.isMonotonic →
      p.above.tags = p'.above.tags ∧ p.below.tags = p'.below.tags := by
  refine ⟨p.reads, fun p' h => ?_⟩
  rw [above, above, below, below, tags_outline, tags_outline, tags_outline, tags_outline]
  exact ⟨tagsOf_aboveTokens p p', tagsOf_belowTokens_congr h⟩

/-- Markup in the title, the source and a label changes no tag. -/
theorem render_reads_markup :
    let r : Record Float := ⟨"a", 1.0, 2.0, 3.0, 4.0, 5.0, 1⟩
    let p : Page := ⟨"t", "runs.csv", "", [r], ⟨2.0, 5.0⟩⟩
    let p' : Page := ⟨"</title>", "<b>", "", [{ r with label := "</td>" }], ⟨2.0, 5.0⟩⟩
    p.records.map Record.isMonotonic = p'.records.map Record.isMonotonic ∧
      p.above.tags = p'.above.tags ∧ p.below.tags = p'.below.tags := by
  intro r p p'
  have hflags : p.records.map Record.isMonotonic = p'.records.map Record.isMonotonic := rfl
  exact ⟨hflags, (render_reads p).2 p' hflags⟩

end Page

end LatencyPlot
