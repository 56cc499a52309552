/-
  LatencyPlot.Proofs.Plot.Coordinates

  The numbers in the attributes of a drawing. The input holds finite numbers
  only, but the sides of the canvas may be infinite, and latencies near the
  greatest double overflow when they are subtracted. Where neither is the case,
  every number of the drawing is the decimal text of a finite double.
-/
import LatencyPlot.Command.Line
import LatencyPlot.Proofs.Number.Reading
import LatencyPlot.Proofs.Number.Written
import LatencyPlot.Proofs.Plot.Reach
import LatencyPlot.Proofs.Plot.Structure
import LatencyPlot.Proofs.Table.Origin
import LatencyPlot.Run.Session

namespace LatencyPlot

open Number (Denotes Within Whole decimalValue?)

namespace Number

/-- The text of a finite double in the form for attributes. -/
def IsFiniteText (word : List Char) : Prop := ∃ x : Float, x.isFinite = true ∧ word = (plain x).toList

theorem IsFiniteText.isSome_decimalValue? {word : List Char} (h : IsFiniteText word) :
    (decimalValue? word).isSome = true := by
  obtain ⟨x, hx, rfl⟩ := h
  exact isSome_decimalValue?_plain hx

/-- The texts of some doubles. -/
def plainWords (xs : List Float) : List (List Char) := xs.map fun x => (plain x).toList

theorem not_mem_plainWords {c : Char} (hc : isNumeral c = false) (xs : List Float) :
    ∀ word ∈ plainWords xs, c ∉ word := by
  intro word hword hmem
  obtain ⟨x, -, rfl⟩ := List.mem_map.mp hword
  rw [isNumeral_of_mem_plain x c hmem] at hc
  cases hc

/-- Blanks between numbers part them. -/
theorem splitOn_plainWords {xs : List Float} (hne : xs ≠ []) :
    ([' '].intercalate (plainWords xs)).splitOn ' ' = plainWords xs :=
  List.splitOn_intercalate ' ' (not_mem_plainWords (by decide) xs) (by simpa [plainWords] using hne)

theorem isFiniteText_of_mem_plainWords {xs : List Float} (h : ∀ x ∈ xs, x.isFinite = true) :
    ∀ word ∈ plainWords xs, IsFiniteText word := by
  intro word hword
  obtain ⟨x, hx, rfl⟩ := List.mem_map.mp hword
  exact ⟨x, h x hx, rfl⟩

end Number

open Number (IsFiniteText plainWords not_mem_plainWords splitOn_plainWords
  isFiniteText_of_mem_plainWords)

namespace Markup

/-! ## Numeric attributes -/

/-- The attributes that numbers are the whole value of. -/
def numericNames : List String := ["width", "height", "viewBox", "x", "y", "x1", "y1", "x2", "y2"]

/-- The numbers in an attribute, as they are written: those of a turn stand in brackets, and what is
    not numeric has none. -/
def Attribute.numbers (a : Attribute) : List (List Char) :=
  if a.name = "transform" then
    (((a.value.toList.dropWhile (· ≠ '(')).drop 1).takeWhile (· ≠ ')')).splitOn ' '
  else if a.name ∈ numericNames then a.value.toList.splitOn ' '
  else []

/-- The numbers in the attributes of a tag. -/
def Token.numbers : Token → List (List Char)
  | .opening _ attributes | .empty _ attributes => attributes.flatMap Attribute.numbers
  | _ => []

/-- An attribute whose numbers are all finite. -/
def Attribute.IsFinite (a : Attribute) : Prop := ∀ word ∈ a.numbers, IsFiniteText word

/-- A token whose numbers are all finite. -/
def Token.IsFinite (t : Token) : Prop := ∀ word ∈ t.numbers, IsFiniteText word

theorem Attribute.isFinite_of_not_mem {name value : String} (h : name ∉ "transform" :: numericNames) :
    (Attribute.mk name value).IsFinite := by
  rw [List.mem_cons, not_or] at h
  rw [IsFinite, numbers, if_neg h.1, if_neg h.2]
  exact List.forall_mem_nil _

theorem Attribute.isFinite_of_words {name value : String} (hname : name ∈ numericNames)
    (xs : List Float) (hne : xs ≠ []) (hvalue : value.toList = [' '].intercalate (plainWords xs))
    (h : ∀ x ∈ xs, x.isFinite = true) : (Attribute.mk name value).IsFinite := by
  have hturn : name ≠ "transform" := by
    rintro rfl
    revert hname
    decide
  rw [IsFinite, numbers, if_neg hturn, if_pos hname, hvalue, splitOn_plainWords hne]
  exact isFiniteText_of_mem_plainWords h

theorem Token.isFinite_iff {name : String} {attributes : List Attribute} {t : Token}
    (h : t = .opening name attributes ∨ t = .empty name attributes) :
    t.IsFinite ↔ ∀ a ∈ attributes, a.IsFinite := by
  rcases h with rfl | rfl <;> exact List.forall_mem_flatMap

theorem forall_line {tokens : List Token} :
    (∀ t ∈ line tokens, t.IsFinite) ↔ ∀ t ∈ tokens, t.IsFinite := by
  have hend : lineEnd.IsFinite := List.forall_mem_nil _
  rw [line, List.forall_mem_append, List.forall_mem_singleton, and_iff_left hend]

theorem forall_emptyLine {name : String} {attributes : List Attribute} :
    (∀ t ∈ emptyLine name attributes, t.IsFinite) ↔ ∀ a ∈ attributes, a.IsFinite := by
  rw [emptyLine, forall_line, List.forall_mem_singleton, Token.isFinite_iff (.inr rfl)]

theorem forall_textLine {name content : String} {attributes : List Attribute} :
    (∀ t ∈ textLine name attributes content, t.IsFinite) ↔ ∀ a ∈ attributes, a.IsFinite := by
  have htext : (Token.text content).IsFinite := List.forall_mem_nil _
  have hclosing : (Token.closing name).IsFinite := List.forall_mem_nil _
  rw [textLine, forall_line, List.forall_mem_cons, Token.isFinite_iff (.inl rfl),
    List.forall_mem_cons, List.forall_mem_singleton]
  exact and_iff_left ⟨htext, hclosing⟩

end Markup

open Markup

namespace Drawing

variable {style : Style Float} {f : Frame Float} {a b k : ℤ}

/-! ## Attributes -/

theorem isFinite_coordinate {name : String} (h : name ∈ numericNames) {x : Float}
    (hx : x.isFinite = true) : (coordinate name x).IsFinite :=
  Attribute.isFinite_of_words h [x] (List.cons_ne_nil x []) (by simp [plainWords])
    (List.forall_mem_singleton.mpr hx)

theorem forall_rectangle {x y width height : Float} (hx : x.isFinite = true)
    (hy : y.isFinite = true) (hwidth : width.isFinite = true) (hheight : height.isFinite = true) :
    ∀ a ∈ rectangle x y width height, a.IsFinite := by
  simp +decide [rectangle, isFinite_coordinate, hx, hy, hwidth, hheight]

theorem forall_segment {x1 y1 x2 y2 : Float} (hx1 : x1.isFinite = true) (hy1 : y1.isFinite = true)
    (hx2 : x2.isFinite = true) (hy2 : y2.isFinite = true) :
    ∀ a ∈ segment x1 y1 x2 y2, a.IsFinite := by
  simp +decide [segment, isFinite_coordinate, hx1, hy1, hx2, hy2]

theorem forall_place {x y : Float} (hx : x.isFinite = true) (hy : y.isFinite = true) :
    ∀ a ∈ place x y, a.IsFinite := by
  simp +decide [place, isFinite_coordinate, hx, hy]

theorem forall_font (size colour anchor : String) : ∀ a ∈ font size colour anchor, a.IsFinite := by
  simp +decide [font, Attribute.isFinite_of_not_mem]

theorem isFinite_turned {angle x y : Float} (h : ∀ z ∈ [angle, x, y], z.isFinite = true) :
    (turned (Number.plain angle) x y).IsFinite := by
  have hvalue : (turned (Number.plain angle) x y).value.toList =
      "rotate".toList ++ '(' :: ([' '].intercalate (plainWords [angle, x, y]) ++ [')']) := by
    simp [turned, plainWords]
  have hinner : ∀ c ∈ [' '].intercalate (plainWords [angle, x, y]), decide (c ≠ ')') = true := by
    have hwords := not_mem_plainWords (show Number.isNumeral ')' = false by decide) [angle, x, y]
    simp only [plainWords, List.map_cons, List.map_nil, List.forall_mem_cons] at hwords
    intro c hc
    rw [decide_eq_true_iff]
    rintro rfl
    simp [plainWords, hwords] at hc
  have hname : (turned (Number.plain angle) x y).name = "transform" := rfl
  have houter : ∀ c ∈ "rotate".toList, decide (c ≠ '(') = true := by simp
  rw [Attribute.IsFinite, Attribute.numbers, if_pos hname, hvalue,
    List.dropWhile_append_of_pos houter, List.dropWhile_cons_of_neg (by decide), List.drop_one,
    List.tail_cons, List.takeWhile_append_of_pos hinner, List.takeWhile_cons_of_neg (by decide),
    List.append_nil, splitOn_plainWords (List.cons_ne_nil _ _)]
  exact isFiniteText_of_mem_plainWords h

/-! ## Parts -/

theorem forall_unlessEmpty {text : String} {attributes : List Attribute}
    (h : ∀ a ∈ attributes, a.IsFinite) :
    ∀ t ∈ unlessEmpty text (textLine "text" attributes text), t.IsFinite := by
  rw [unlessEmpty]
  split
  · exact List.forall_mem_nil _
  · exact forall_textLine.mpr h

theorem forall_root (hwidth : style.width.isFinite = true) (hheight : style.height.isFinite = true) :
    ∀ t ∈ root style, t.IsFinite := by
  have hzero : Number.plain 0.0 = "0" := by decide +kernel
  have hview : (Attribute.mk "viewBox"
      ("0 0 " ++ Number.plain style.width ++ " " ++ Number.plain style.height)).IsFinite := by
    refine Attribute.isFinite_of_words (by decide) [0.0, 0.0, style.width, style.height]
      (List.cons_ne_nil _ _) (by simp [plainWords, hzero]) ?_
    simp only [List.forall_mem_cons]
    exact ⟨rfl, rfl, hwidth, hheight, List.forall_mem_nil _⟩
  rw [root, forall_line, List.forall_mem_singleton, Token.isFinite_iff (.inl rfl)]
  simp +decide [isFinite_coordinate, Attribute.isFinite_of_not_mem, hwidth, hheight, hview]

theorem forall_background (hwidth : style.width.isFinite = true)
    (hheight : style.height.isFinite = true) (h : f.Reaches a b) :
    (∀ t ∈ clip f, t.IsFinite) ∧ ∀ t ∈ background style f, t.IsFinite := by
  have harea := forall_rectangle h.left.isFinite h.top.isFinite h.width.isFinite h.height.isFinite
  constructor
  · rw [clip, forall_line]
    simp only [List.forall_mem_cons]
    have hpath : (Attribute.mk "id" "plot-area").IsFinite :=
      Attribute.isFinite_of_not_mem (by decide)
    exact ⟨(Token.isFinite_iff (.inl rfl)).mpr (List.forall_mem_nil _),
      (Token.isFinite_iff (.inl rfl)).mpr (List.forall_mem_singleton.mpr hpath),
      (Token.isFinite_iff (.inr rfl)).mpr harea, List.forall_mem_nil _, List.forall_mem_nil _,
      List.forall_mem_nil _⟩
  · rw [background, List.forall_mem_append, forall_emptyLine, forall_emptyLine,
      List.forall_mem_append]
    refine ⟨?_, harea, ?_⟩
    · simp +decide [isFinite_coordinate, Attribute.isFinite_of_not_mem, hwidth, hheight]
    · simp +decide [Attribute.isFinite_of_not_mem]

theorem forall_grid (h : f.Reaches a b) (ha : 0 ≤ a) (hb : 6 ≤ b) (hab : a + b ≤ 920) :
    ∀ t ∈ grid f, t.IsFinite := by
  have hright : Within (b + 1) (f.left + f.width) :=
    (h.left.mono hb).add h.width ⟨by omega, by omega⟩
  have hfive : Within 6 5.0 :=
    Number.within_literal (by norm_num) ⟨by norm_num, by norm_num⟩ (by norm_num)
  have hbeside : Within 7 (f.left - 5.0) := h.left.sub hfive ⟨by norm_num, by norm_num⟩
  rw [grid, List.forall_mem_flatMap]
  intro v hv
  have hy := (h.y (h.ticks ha (by omega) v hv) ha (by omega) hb (by omega)).isFinite
  rw [gridLine, List.forall_mem_append, forall_emptyLine, forall_textLine]
  simp only [List.forall_mem_append]
  refine ⟨⟨forall_segment h.left.isFinite hy hright.isFinite hy, ?_⟩,
    ⟨forall_place hbeside.isFinite hy, forall_font _ _ _⟩, ?_⟩
  · simp +decide [Attribute.isFinite_of_not_mem]
  · simp +decide [Attribute.isFinite_of_not_mem]

theorem forall_titles (hwidth : Within b style.width) (hheight : Within b style.height)
    (h : f.Reaches a b) (hb : 6 ≤ b) (hb' : b ≤ 920) :
    (∀ t ∈ title style, t.IsFinite) ∧ (∀ t ∈ yTitle style f, t.IsFinite) ∧
      ∀ t ∈ xTitle style f, t.IsFinite := by
  have h44 : Within 6 44.0 :=
    Number.within_literal (by norm_num) ⟨by norm_num, by norm_num⟩ (by norm_num)
  have h12 : Within 6 12.0 :=
    Number.within_literal (by norm_num) ⟨by norm_num, by norm_num⟩ (by norm_num)
  have hmiddle {x y : Float} (hx : Within 6 x) (hy : Within b y) : Within (b + 1) (x + y / 2.0) :=
    (hx.mono hb).add (hy.div_two (by omega) (by omega)) ⟨by omega, by omega⟩
  have hbeside : Within 7 (f.left - 44.0) := h.left.sub h44 ⟨by norm_num, by norm_num⟩
  have hbelow : Within (b + 1) (style.height - 12.0) :=
    hheight.sub (h12.mono hb) ⟨by omega, by omega⟩
  have hupright : Number.plain (-90.0) = "-90" := by decide +kernel
  refine ⟨forall_unlessEmpty ?_, forall_unlessEmpty ?_, forall_unlessEmpty ?_⟩
  · rw [List.forall_mem_append]
    exact ⟨forall_place (hwidth.div_two (by omega) (by omega)).isFinite rfl, forall_font _ _ _⟩
  · have hy := (hmiddle h.top h.height).isFinite
    simp only [List.forall_mem_append, List.forall_mem_singleton]
    refine ⟨⟨forall_place hbeside.isFinite hy, forall_font _ _ _⟩, ?_⟩
    rw [← hupright]
    refine isFinite_turned ?_
    simp only [List.forall_mem_cons]
    exact ⟨rfl, hbeside.isFinite, hy, List.forall_mem_nil _⟩
  · rw [List.forall_mem_append, List.forall_mem_cons]
    exact ⟨⟨Attribute.isFinite_of_not_mem (by decide),
      forall_place (hmiddle h.left h.width).isFinite hbelow.isFinite⟩, forall_font _ _ _⟩

/-! ## Boxes and labels -/

/-- A mark with a class, its place and its paint. -/
theorem forall_mark {name c : String} {place paint : List Attribute}
    (hplace : ∀ a ∈ place, a.IsFinite) (hpaint : ∀ a ∈ paint, a.IsFinite) :
    ∀ t ∈ emptyLine name (⟨"class", c⟩ :: place ++ paint), t.IsFinite := by
  rw [forall_emptyLine, List.forall_mem_append, List.forall_mem_cons]
  exact ⟨⟨Attribute.isFinite_of_not_mem (by decide), hplace⟩, hpaint⟩

theorem forall_whisker {bx : Box Float} (h : bx.IsWithin k) (hk : 0 ≤ k) (hk' : k ≤ 1000)
    {w : Whisker Float} (hedge : w.edge.isFinite = true) (hextreme : w.extreme.isFinite = true) :
    ∀ t ∈ whisker bx w, t.IsFinite := by
  have hcentre := h.centre.isFinite
  have hstroke : ∀ a ∈ [Attribute.mk "stroke" "#333", ⟨"stroke-width", "1"⟩], a.IsFinite := by
    simp +decide [Attribute.isFinite_of_not_mem]
  exact List.forall_mem_append.mpr
    ⟨forall_mark (forall_segment hcentre hedge hcentre hextreme) hstroke,
      forall_mark (forall_segment (h.capLeft hk (by omega)).isFinite hextreme
        (h.capRight hk (by omega)).isFinite hextreme) hstroke⟩

theorem forall_box {bx : Box Float} (h : bx.IsWithin k) (hk : 0 ≤ k) (hk' : k ≤ 1000) :
    ∀ t ∈ box bx, t.IsFinite := by
  have hleft := (h.left hk (by omega)).isFinite
  have hrectangle := forall_rectangle hleft h.top.isFinite h.width.isFinite
    (h.height hk (by omega)).isFinite
  have hmedian := forall_segment hleft h.yMedian.isFinite (h.right hk (by omega)).isFinite
    h.yMedian.isFinite
  simp only [box, Box.whiskers, List.forall_mem_append, List.forall_mem_flatMap,
    List.forall_mem_cons]
  refine ⟨⟨⟨forall_whisker h hk hk' h.yP25.isFinite h.yLow.isFinite,
    forall_whisker h hk hk' h.yP75.isFinite h.yHigh.isFinite, List.forall_mem_nil _⟩,
    forall_mark hrectangle ?_⟩, forall_mark hmedian ?_⟩
  · simp +decide [Attribute.isFinite_of_not_mem]
  · simp +decide [Attribute.isFinite_of_not_mem]

variable {records : List (Record Float)}

theorem forall_boxGroup (h : f.Reaches a b) (hn : records.length < 2 ^ 64)
    (hrecords : ∀ r ∈ records, r.IsWithin a) (ha : 0 ≤ a) (hb : 6 ≤ b) (hab : a + b ≤ 920) :
    ∀ t ∈ boxGroup f records, t.IsFinite := by
  have hgroup : (Attribute.mk "clip-path" "url(#plot-area)").IsFinite :=
    Attribute.isFinite_of_not_mem (by decide)
  simp only [boxGroup, List.forall_mem_append, forall_line, List.forall_mem_singleton,
    List.forall_mem_flatMap]
  refine ⟨⟨(Token.isFinite_iff (.inl rfl)).mpr (List.forall_mem_singleton.mpr hgroup), ?_⟩,
    List.forall_mem_nil _⟩
  intro bx hbx
  obtain ⟨i, hi, rfl⟩ := List.mem_mapIdx.mp hbx
  exact forall_box (h.box hi hn (hrecords _ (List.getElem_mem hi)) ha hb hab) (by omega) (by omega)

theorem forall_labels (h : f.Reaches a b) (hn : records.length < 2 ^ 64) (hb : 6 ≤ b)
    (hb' : b ≤ 920) : ∀ t ∈ labels f records, t.IsFinite := by
  have hsixteen : Within 6 16.0 :=
    Number.within_literal (by norm_num) ⟨by norm_num, by norm_num⟩ (by norm_num)
  have hbase : Within (b + 1) (f.top + f.height) :=
    (h.top.mono hb).add h.height ⟨by omega, by omega⟩
  have hy : Within (b + 2) (f.top + f.height + 16.0) :=
    (hbase.add (hsixteen.mono (by omega)) ⟨by omega, by omega⟩).mono (by omega)
  have hangle : Number.plain (-40.0) = "-40" := by decide +kernel
  rw [labels, List.forall_mem_flatten]
  intro tokens htokens
  obtain ⟨i, hi, rfl⟩ := List.mem_mapIdx.mp htokens
  have hx := (h.centre hi hn (by omega) (by omega)).isFinite
  have hturned : (turned "-40" (f.centre records.length i) (f.top + f.height + 16.0)).IsFinite := by
    rw [← hangle]
    refine isFinite_turned ?_
    simp only [List.forall_mem_cons]
    exact ⟨rfl, hx, hy.isFinite, List.forall_mem_nil _⟩
  rw [label, forall_textLine, List.forall_mem_append, List.forall_mem_cons]
  refine ⟨⟨Attribute.isFinite_of_not_mem (by decide), forall_place hx hy.isFinite⟩, ?_⟩
  split
  · exact List.forall_mem_append.mpr ⟨forall_font _ _ _, List.forall_mem_singleton.mpr hturned⟩
  · exact forall_font _ _ _

/-! ## The whole drawing -/

theorem forall_drawing {bounds : Bounds Float} (hwidth : Within b style.width)
    (hheight : Within b style.height) (hmin : Whole a bounds.min) (hmax : Whole a bounds.max)
    (hn : records.length < 2 ^ 64) (hrecords : ∀ r ∈ records, r.IsWithin a) (ha : 0 ≤ a)
    (hb : 0 ≤ b) (hab : a + b ≤ 910) : ∀ t ∈ drawing records bounds style, t.IsFinite := by
  have h : (Frame.ofStyle style records.length bounds).Reaches a (b + 9) :=
    Frame.reaches_ofStyle hwidth hheight hmin hmax hb (by omega) records.length
  obtain ⟨hclip, hbackground⟩ := forall_background hwidth.isFinite hheight.isFinite h
  obtain ⟨htitle, hy, hx⟩ := forall_titles (hwidth.mono (by omega)) (hheight.mono (by omega)) h
    (by omega) (by omega)
  have hgrid := forall_grid h ha (by omega) (by omega)
  have hend : ∀ t ∈ line [Token.closing "svg"], t.IsFinite :=
    forall_line.mpr (List.forall_mem_singleton.mpr (List.forall_mem_nil _))
  simp only [drawing_eq, surroundings, List.forall_mem_append]
  exact ⟨forall_root hwidth.isFinite hheight.isFinite,
    ⟨⟨⟨⟨⟨hclip, hbackground⟩, htitle⟩, hgrid⟩, hy⟩, hx⟩,
    forall_boxGroup h hn hrecords ha (by omega) (by omega),
    forall_labels h hn (by omega) (by omega), hend⟩

end Drawing

/-- **The numbers of a drawing are numbers.** On a canvas with finite sides, and where the latencies
    times the sides are well within the range of doubles, the plot of an input reads as a document in
    which every number of every attribute is the decimal text of a finite double: never an infinity,
    and never what is no number. The latencies are finite because no others are read; of the sides
    it has to be asked. There are to be fewer records than a machine word counts. -/
theorem renderPlot_numbers {header : Bool} {stream : Except StreamError (List UInt8)}
    {records : List (Record Float)} (hread : readRecords header stream = .ok records)
    (hne : records ≠ []) (hn : records.length < 2 ^ 64) {a b : ℤ} (ha : 0 ≤ a) (hb : 0 ≤ b)
    (hab : a + b ≤ 900)
    (hlatencies : ∀ r ∈ records, ∀ x ∈ r.bounds, ∀ q, Denotes x q → |q| ≤ 2 ^ a)
    (style : Style Float) (hwidth : Within b style.width) (hheight : Within b style.height) :
    ∃ bounds layout, Bounds.ofRecords records = .ok bounds ∧
      read (renderPlot records bounds style).toList = some layout ∧
      ∀ t ∈ layout.tags, ∀ word ∈ t.numbers,
        IsFiniteText word ∧ (decimalValue? word).isSome = true := by
  obtain ⟨-, -, -, hfinite⟩ := origin_of_readRecords hread
  have hrecords : ∀ r ∈ records, r.IsWithin a := by
    intro r hr x hx
    obtain ⟨q, hq⟩ := Number.isFinite_iff.mp (hfinite r hr x hx)
    exact ⟨q, hq, hlatencies r hr x hx q hq⟩
  obtain ⟨bounds, hbounds, hmin, hmax⟩ :=
    Bounds.exists_whole_within hne hrecords ha (by omega)
  have htokens := Drawing.forall_drawing hwidth hheight hmin hmax hn
    (fun r hr x hx => (hrecords r hr x hx).mono (by omega)) (by omega) hb (by omega)
  refine ⟨bounds, _, hbounds, Drawing.read_renderPlot records bounds style, ?_⟩
  rw [tags_outline]
  intro t ht word hword
  have htext := htokens t (List.mem_of_mem_filter ht) word hword
  exact ⟨htext, htext.isSome_decimalValue?⟩

/-- One run with small latencies. -/
def oneRecord : List (Record Float) := [⟨"a", 1, 2, 3, 4, 5, 1⟩]

theorem readRecords_oneRecord :
    readRecords false (.ok "'a',1,2,3,4,5\n".toUTF8.toList) = .ok oneRecord := by
  rw [readRecords_toUTF8]
  rfl

/-- The numbers of a plot of one run on a canvas of the default size. -/
theorem renderPlot_numbers_default :
    ∃ bounds layout, Bounds.ofRecords oneRecord = .ok bounds ∧
      read (renderPlot oneRecord bounds ⟨900, 500, "", "", ""⟩).toList = some layout ∧
      ∀ t ∈ layout.tags, ∀ word ∈ t.numbers,
        IsFiniteText word ∧ (decimalValue? word).isSome = true := by
  have hdenotes : ∀ x ∈ ([1, 2, 3, 4, 5] : List Float), ∃ n : ℕ, n ≤ 8 ∧ Denotes x n := by
    simp only [List.forall_mem_cons]
    exact ⟨⟨1, by norm_num, Number.denotes_ofNat (by norm_num)⟩,
      ⟨2, by norm_num, Number.denotes_ofNat (by norm_num)⟩,
      ⟨3, by norm_num, Number.denotes_ofNat (by norm_num)⟩,
      ⟨4, by norm_num, Number.denotes_ofNat (by norm_num)⟩,
      ⟨5, by norm_num, Number.denotes_ofNat (by norm_num)⟩, List.forall_mem_nil _⟩
  have hlatencies : ∀ r ∈ oneRecord, ∀ x ∈ r.bounds, ∀ q, Denotes x q → |q| ≤ 2 ^ (3 : ℤ) := by
    intro r hr x hx q hq
    obtain rfl := List.mem_singleton.mp hr
    obtain ⟨n, hn, hdenoted⟩ := hdenotes x hx
    rw [hq.unique hdenoted, Nat.abs_cast]
    exact_mod_cast hn
  have hwidth : Within 10 900 := Number.within_ofNat ⟨by norm_num, by norm_num⟩ (by norm_num)
  have hheight : Within 10 500 := Number.within_ofNat ⟨by norm_num, by norm_num⟩ (by norm_num)
  exact renderPlot_numbers readRecords_oneRecord (List.cons_ne_nil _ _) (by decide) (by norm_num)
    (by norm_num) (by norm_num) hlatencies ⟨900, 500, "", "", ""⟩ hwidth hheight

/-- An infinite width passes the check of the size, and the drawing tells it. -/
theorem renderPlot_infinite :
    readRecords false (.ok "'a',1,2,3,4,5\n".toUTF8.toList) = .ok oneRecord ∧
      ∃ arguments bounds layout,
        Command.parse ["a.csv", "--no-open", "--width", "inf"] = .ok arguments ∧
        Session.hasSize arguments = true ∧ Bounds.ofRecords oneRecord = .ok bounds ∧
        read (renderPlot oneRecord bounds (Session.styleOf arguments)).toList = some layout ∧
        ∃ t ∈ layout.tags, ∃ word ∈ t.numbers, word = "inf".toList ∧ decimalValue? word = none := by
  refine ⟨readRecords_oneRecord, _, _, _, rfl, ?_, rfl, Drawing.read_renderPlot _ _ _, ?_⟩
  · decide +kernel
  · rw [tags_outline, Drawing.drawing_eq, tagsOf_append, Drawing.root, tagsOf_line]
    exact ⟨_, List.mem_append_left _ List.mem_cons_self, "inf".toList, by decide +kernel, rfl,
      by decide⟩

end LatencyPlot
