/-
  LatencyPlot.Proofs.Table.Layout

  Rows as they are written: some fields with commas between them, plainly or as a
  tuple, with blanks around every field and around the parentheses (`Layout`).
  The record of a row is the one that its first six bodies say, read at the
  places they have there (`Layout.read_eq_ok_iff`), if each of them is read as
  one field. In a row that gives a record they all are, unless its label is torn
  (`Layout.isWhole_of_read`), which costs it its commas (`Layout.label_of_torn`).
-/
import LatencyPlot.Proofs.Table.Blanks
import LatencyPlot.Proofs.Table.Torn

namespace LatencyPlot.Table

open Text (isBlank trim trimStart trimEnd)

/-! ## Rows as they are written -/

/-- What stands around the fields of a row. -/
inductive Enclosure where
  /-- Nothing. -/
  | plain
  /-- Parentheses. -/
  | closed (before after : List Char) (hbefore : IsPadding before) (hafter : IsPadding after)
  /-- Parentheses and a comma. -/
  | comma (before gap after : List Char) (hbefore : IsPadding before) (hgap : IsPadding gap)
      (hafter : IsPadding after)

/-- A row: a label, at least five other fields, and what stands around them. -/
structure Layout where
  label : Cell
  others : List Cell
  enclosure : Enclosure
  five_le : 5 ≤ others.length

namespace Layout

/-- All fields of a row. -/
def cells (w : Layout) : List Cell := w.label :: w.others

/-- The bodies of the fields of a row. -/
def bodies (w : Layout) : List Body := w.cells.map Cell.body

/-- A row as it is written. -/
def chars (w : Layout) : List Char :=
  match w.enclosure with
  | .plain => joined w.cells
  | .closed before after _ _ => before ++ '(' :: (joined w.cells ++ ')' :: after)
  | .comma before gap after _ _ _ =>
    before ++ '(' :: (joined w.cells ++ ')' :: (gap ++ ',' :: after))

/-- The text of a row. -/
def text (w : Layout) : String := String.ofList w.chars

/-- Where the body of the label stands. Blanks at the start of a line are trimmed, so only those
    behind a parenthesis move it. -/
def labelPlace (w : Layout) : Place :=
  match w.enclosure with
  | .plain => .first
  | _ => if w.label.before = [] then .first else .inside

/-- What is read from the first six bodies. -/
def readings (w : Layout) : List (List Char) :=
  w.label.body.reading w.labelPlace :: (w.others.take 5).map fun c => c.body.reading c.place

/-- Whether each of the first six bodies is read as one field. -/
def IsWhole (w : Layout) : Prop :=
  w.label.body.IsWhole w.labelPlace ∧ ∀ c ∈ w.others.take 5, c.body.IsWhole c.place

/-- Whether a row is a tuple only if it is written as one. -/
def IsProper (w : Layout) : Prop :=
  w.enclosure = .plain → ¬ ∃ body, IsTuple body (joined w.cells)

end Layout

/-! ## Its fields -/

theorem Body.isBlank_head {b : Body} {c : Char} {rest : List Char} (h : b.chars = c :: rest) :
    isBlank c = false := by
  cases b with
  | bare text trimmed inside quote =>
    rcases Text.trim_eq_nil_or_cons text with hnil | ⟨d, ds, hd, hcons⟩
    · rw [trimmed] at hnil
      rw [Body.chars, hnil] at h
      cases h
    · rw [trimmed] at hcons
      rw [Body.chars, hcons] at h
      rw [← (List.cons.inj h).1]
      exact hd
  | quoted text line =>
    rw [← (List.cons.inj h).1]
    decide

/-- Of a row that is trimmed the first field loses the blanks in front of its body. -/
theorem trim_cell (c : Cell) (rest : List Char) :
    ∃ after, IsPadding after ∧
      trim (c.chars ++ ',' :: rest) = c.body.chars ++ (after ++ ',' :: trimEnd rest) := by
  have hcomma : isBlank ',' = false := by decide
  have hchars (after : List Char) : c.body.chars ++ (after ++ ',' :: rest) =
      (c.body.chars ++ after) ++ ',' :: rest := (List.append_assoc ..).symm
  have hstart : ∃ after, IsPadding after ∧
      trimStart (c.chars ++ ',' :: rest) = c.body.chars ++ (after ++ ',' :: rest) := by
    rw [Cell.chars, List.append_assoc, Text.trimStart_append c.before_padding.isBlank,
      List.append_assoc]
    cases hbody : c.body.chars with
    | nil =>
      -- an empty body lets the trimming go on to the comma
      refine ⟨[], List.forall_mem_nil _, ?_⟩
      rw [List.nil_append, Text.trimStart_append c.after_padding.isBlank,
        Text.trimStart_cons_of_not_blank hcomma]
      rfl
    | cons d ds =>
      exact ⟨c.after, c.after_padding,
        Text.trimStart_cons_of_not_blank (Body.isBlank_head hbody) _⟩
  obtain ⟨after, hafter, htrim⟩ := hstart
  refine ⟨after, hafter, ?_⟩
  rw [trim, htrim, hchars, Text.trimEnd_append_cons hcomma, List.append_assoc]

namespace Layout

variable (w : Layout)

theorem joined_cells : joined w.cells = w.label.chars ++ ',' :: joined w.others := by
  have hfive := w.five_le
  rw [cells, joined_cons]
  cases hothers : w.others with
  | nil =>
    rw [hothers] at hfive
    cases hfive
  | cons c cells => rfl

/-- Of a tuple the row stays as it is written. -/
theorem content_of_tuple (h : w.enclosure ≠ .plain) : content w.chars = joined w.cells := by
  cases hform : w.enclosure with
  | plain => exact absurd hform h
  | closed before after hbefore hafter =>
    have hchars : w.chars = before ++ '(' :: (joined w.cells ++ ')' :: after) := by
      simp only [chars, hform]
    rw [hchars]
    exact content_of_isTuple (isTuple_closed hbefore.isBlank _ hafter.isBlank)
  | comma before gap after hbefore hgap hafter =>
    have hchars : w.chars = before ++ '(' :: (joined w.cells ++ ')' :: (gap ++ ',' :: after)) := by
      simp only [chars, hform]
    rw [hchars]
    exact content_of_isTuple (isTuple_comma hbefore.isBlank _ hgap.isBlank hafter.isBlank)

theorem labelPlace_of_plain (h : w.enclosure = .plain) : w.labelPlace = .first := by
  simp only [labelPlace, h]

theorem labelPlace_of_tuple (h : w.enclosure ≠ .plain) :
    w.labelPlace = if w.label.before = [] then .first else .inside := by
  cases hform : w.enclosure with
  | plain => exact absurd hform h
  | closed => simp only [labelPlace, hform]
  | comma => simp only [labelPlace, hform]

/-- The label of a row is its first field, if it is read as one. -/
theorem fields_label (hproper : w.IsProper) (hlabel : w.label.body.IsWhole w.labelPlace) :
    (fields (content w.chars)).map unquote =
      w.label.body.reading w.labelPlace :: (fieldsFrom .opening (joined w.others)).map unquote := by
  by_cases hform : w.enclosure = .plain
  · -- a row by itself is trimmed, so its label stands at its start
    have hchars : w.chars = joined w.cells := by simp only [chars, hform]
    obtain ⟨after, hafter, htrim⟩ := trim_cell w.label (joined w.others)
    rw [hchars, content_of_not_isTuple (hproper hform), joined_cells, htrim,
      w.labelPlace_of_plain hform, fields_first w.label.body hafter, map_unquote_fieldsFrom_trimEnd]
  · rw [w.content_of_tuple hform, joined_cells]
    rw [w.labelPlace_of_tuple hform] at hlabel ⊢
    by_cases hbefore : w.label.before = []
    · rw [if_pos hbefore, Cell.chars, hbefore, List.nil_append, List.append_assoc]
      exact fields_first w.label.body w.label.after_padding (joined w.others)
    · rw [if_neg hbefore] at hlabel ⊢
      exact fields_inside w.label hbefore hlabel (joined w.others)

/-- The fields of a row read as its first six bodies do, and there may be more. -/
theorem fields_content (hproper : w.IsProper) (hwhole : w.IsWhole) :
    ∃ more, (fields (content w.chars)).map unquote = w.readings ++ more := by
  obtain ⟨more, hmore⟩ := fieldsFrom_joined w.five_le hwhole.2
  refine ⟨more, ?_⟩
  rw [readings, List.cons_append, ← hmore]
  exact w.fields_label hproper hwhole.1

/-- A label that is not read as one field is torn. -/
theorem fields_torn (hlabel : ¬ w.label.body.IsWhole w.labelPlace) :
    ∃ text line more, w.label.body = .quoted text line ∧
      (fields (content w.chars)).map unquote = unquote (torn w.label.before text) :: more ∧
      (more = [] ∨ ',' ∈ text) := by
  have htuple : w.enclosure ≠ .plain := by
    intro hform
    rw [w.labelPlace_of_plain hform] at hlabel
    exact hlabel (by cases w.label.body <;> trivial)
  rw [w.labelPlace_of_tuple htuple] at hlabel
  have hbefore : w.label.before ≠ [] := by
    intro hnil
    rw [if_pos hnil] at hlabel
    exact hlabel (by cases w.label.body <;> trivial)
  rw [if_neg hbefore] at hlabel
  obtain ⟨text, line, more, hbody, hfields, hmore⟩ :=
    fieldsFrom_torn w.label hbefore hlabel (',' :: joined w.others)
  refine ⟨text, line, more.map unquote, hbody, ?_, hmore.imp_left fun hnil => by rw [hnil]; rfl⟩
  rw [w.content_of_tuple htuple, joined_cells, map_unquote_fields_of_padded _ hbefore, hfields,
    List.map_cons]

end Layout

/-! ## Its record -/

/-- Whether a record is the one that the values of a row say. -/
structure Says (values : List (List Char)) (r : Record Float) : Prop where
  label_eq : values[0]?.map String.ofList = some r.label
  value_eq : ∀ c : Column, values[c.place]?.bind Number.readFinite? = some (c.value r)

theorem holds_iff_told {line : Nat} {fs : List (List Char)} {r : Record Float} :
    Holds line fs r ↔ r.line = line ∧ Says (fs.map unquote) r := by
  have hlabel : (fs.map unquote)[0]?.map String.ofList =
      fs[0]?.map fun field => String.ofList (unquote field) := by
    rw [List.getElem?_map, Option.map_map]
    rfl
  have hvalue (c : Column) : (fs.map unquote)[c.place]?.bind Number.readFinite? = some (c.value r) ↔
      ∃ field, fs[c.place]? = some field ∧
        Number.readFinite? (unquote field) = some (c.value r) := by
    rw [List.getElem?_map, Option.bind_map, Option.bind_eq_some_iff]
    rfl
  constructor
  · intro h
    exact ⟨h.line_eq, hlabel.trans h.label_eq, fun c => (hvalue c).mpr (h.value_eq c)⟩
  · rintro ⟨hline, htold⟩
    exact ⟨hline, hlabel.symm.trans htold.label_eq, fun c => (hvalue c).mp (htold.value_eq c)⟩

/-- Six values say it all. -/
theorem told_append_iff {values more : List (List Char)} (h : values.length = 6) {r : Record Float} :
    Says (values ++ more) r ↔ Says values r := by
  have hget (i : Nat) (hi : i ≤ 5) : (values ++ more)[i]? = values[i]? :=
    List.getElem?_append_left (by omega)
  constructor
  · rintro ⟨hlabel, hvalue⟩
    refine ⟨by rw [← hlabel, hget 0 (by omega)], fun c => ?_⟩
    rw [← hvalue c, hget c.place c.place_le_five.2]
  · rintro ⟨hlabel, hvalue⟩
    refine ⟨by rw [← hlabel, hget 0 (by omega)], fun c => ?_⟩
    rw [← hvalue c, hget c.place c.place_le_five.2]

/-- The number of its line is not said. -/
theorem Says.withLine {values : List (List Char)} {r : Record Float} (h : Says values r)
    (line : Nat) : Says values { r with line } :=
  ⟨h.label_eq, fun c => (h.value_eq c).trans (by cases c <;> rfl)⟩

theorem Layout.length_readings (w : Layout) : w.readings.length = 6 := by
  have hfive := w.five_le
  rw [readings, List.length_cons, List.length_map, List.length_take]
  omega

/-- **A row gives the record that its readings say.** -/
theorem Layout.read_eq_ok_iff (w : Layout) (hproper : w.IsProper) (hwhole : w.IsWhole)
    {number : Nat} {r : Record Float} :
    Line.read number w.chars = .row (.ok r) ↔ r.line = number ∧ Says w.readings r := by
  obtain ⟨more, hmore⟩ := w.fields_content hproper hwhole
  rw [Line.read_eq_ok_iff, holds_iff_told, hmore, told_append_iff w.length_readings]

/-- A row that gives a record has whole bodies, if its label is read as one field. -/
theorem Layout.isWhole_of_read (w : Layout) (hproper : w.IsProper)
    (hlabel : w.label.body.IsWhole w.labelPlace) {number : Nat} {r : Record Float}
    (h : Line.read number w.chars = .row (.ok r)) : w.IsWhole := by
  refine ⟨hlabel, isWhole_of_reads fun i hi => ?_⟩
  obtain ⟨-, htold⟩ := holds_iff_told.mp (Line.read_eq_ok_iff.mp h)
  obtain ⟨column, hcolumn⟩ := Column.exists_place_eq hi
  have hvalue := htold.value_eq column
  rw [w.fields_label hproper hlabel, hcolumn, List.getElem?_cons_succ] at hvalue
  rw [hvalue]
  exact Option.some_ne_none _

/-- A torn label loses its commas. -/
theorem Layout.label_of_torn (w : Layout) (hlabel : ¬ w.label.body.IsWhole w.labelPlace)
    {number : Nat} {r : Record Float} (h : Line.read number w.chars = .row (.ok r)) :
    ∃ text line, w.label.body = .quoted text line ∧ ',' ∈ text ∧ ',' ∉ r.label.toList := by
  obtain ⟨text, line, more, hbody, hfields, hmore⟩ := w.fields_torn hlabel
  obtain ⟨-, htold⟩ := holds_iff_told.mp (Line.read_eq_ok_iff.mp h)
  rw [hfields] at htold
  refine ⟨text, line, hbody, hmore.resolve_left ?_, ?_⟩
  · -- a record has more fields than its label
    rintro rfl
    have hvalue := htold.value_eq .low
    cases hvalue
  · rw [← Option.some.inj htold.label_eq, String.toList_ofList]
    exact not_mem_unquote_torn w.label.before_padding text

/-- A label that is read as one field keeps its commas. -/
theorem Layout.mem_label (w : Layout) (hproper : w.IsProper) {text : List Char} {line : '\n' ∉ text}
    (hbody : w.label.body = .quoted text line) (hlabel : w.label.body.IsWhole w.labelPlace)
    (hcomma : ',' ∈ text) {number : Nat} {r : Record Float}
    (h : Line.read number w.chars = .row (.ok r)) : ',' ∈ r.label.toList := by
  obtain ⟨-, htold⟩ := holds_iff_told.mp (Line.read_eq_ok_iff.mp h)
  rw [w.fields_label hproper hlabel] at htold
  rw [← Option.some.inj htold.label_eq, String.toList_ofList]
  rw [hbody] at hlabel ⊢
  have hmem : ',' ∈ unquote text := mem_unquote hcomma (by decide) (by decide) (by decide)
  cases hplace : w.labelPlace with
  | first => exact hmem
  | start => exact hmem
  | inside =>
    rw [hplace] at hlabel
    exact absurd rfl (hlabel ',' hcomma).1

end LatencyPlot.Table
