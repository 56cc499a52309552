/-
  LatencyPlot.Proofs.Table.Header

  Reading a table with a header. A table is its rows, read one after another
  until one fails, and with a header the first of them is left out
  (`readLines_eq`). On the text itself, that row is as good as an empty line
  (`FirstRow.read_eq`): nothing else moves, no other row is passed over, and what
  the row holds does not matter. `readRecords_header` says both of a text in
  UTF-8.
-/
import LatencyPlot.Proofs.Table.FirstError
import LatencyPlot.Proofs.Text.Lines
import LatencyPlot.Proofs.Text.Trim

namespace LatencyPlot.Table

/-! ## Rows one after another -/

/-- Reads a row with its number. -/
def readRow (r : List Char × Nat) : Except RowError (Record Float) :=
  row r.2 (fields (content r.1))

/-- The rows that are read: all, or those behind the first one if it is a header. -/
def rowsRead (header : Bool) (rows : List (List Char × Nat)) : List (List Char × Nat) :=
  if header then rows.tail else rows

@[simp] theorem rowsRead_true (rows : List (List Char × Nat)) : rowsRead true rows = rows.tail :=
  rfl

@[simp] theorem rowsRead_false (rows : List (List Char × Nat)) : rowsRead false rows = rows := rfl

/-- **A table is read row by row**, without the first row if that is a header. Other lines only
    count. -/
theorem readLines_eq (header : Bool) (number : Nat) (lines : List (List Char)) :
    readLines header number lines = (rowsRead header (rowsFrom number lines)).mapM readRow := by
  -- The header may be used up on the way, so the induction is for both values of it.
  induction lines generalizing header number with
  | nil => cases header <;> rfl
  | cons text rest ih =>
    by_cases hrow : IsRow text
    · rw [rowsFrom_cons_of_isRow hrow]
      cases header with
      | true =>
        rw [readLines_cons_header hrow, ih, rowsRead_false, rowsRead_true, List.tail_cons]
      | false =>
        rw [readLines_cons_of_isRow hrow, ih, rowsRead_false, rowsRead_false, List.mapM_cons,
          readRow]
        cases row number (fields (content text)) with
        | error e => rfl
        | ok r => cases (rowsFrom (number + 1) rest).mapM readRow <;> rfl
    · rw [readLines_cons_of_not_isRow hrow, rowsFrom_cons_of_not_isRow hrow, ih]

theorem rowsFrom_eq_nil {lines : List (List Char)} (h : ∀ line ∈ lines, ¬ IsRow line)
    (number : Nat) : rowsFrom number lines = [] := by
  rw [rowsFrom, List.filter_eq_nil_iff]
  rintro ⟨line, n⟩ hmem
  rw [decide_eq_true_iff]
  exact h line (List.fst_mem_of_mem_zipIdx hmem)

/-- Lines that are no rows only count. -/
theorem readLines_append_of_not_isRow {before : List (List Char)}
    (h : ∀ line ∈ before, ¬ IsRow line) (header : Bool) (number : Nat) (after : List (List Char)) :
    readLines header number (before ++ after) =
      readLines header (number + before.length) after := by
  rw [readLines_eq, readLines_eq, rowsFrom, List.zipIdx_append, List.filter_append]
  have hnone := rowsFrom_eq_nil h number
  rw [rowsFrom] at hnone
  rw [hnone, List.nil_append, rowsFrom]

/-! ## The first row in the text -/

/-- Lines may be read one for another that are the same without blanks around them. -/
theorem readLines_cons_congr {a b : List Char} (h : Text.trim a = Text.trim b) (header : Bool)
    (number : Nat) (after : List (List Char)) :
    readLines header number (a :: after) = readLines header number (b :: after) :=
  readLines_congr (Line.read_congr (content_congr h)) header number [] after

theorem not_isRow_nil : ¬ IsRow [] := fun h => h.1 rfl

/-- What follows a line in a text leads to the same further lines whatever the line is, be it
    empty. -/
theorem exists_lines_of_followsLine {after : List Char} (h : Text.FollowsLine after) :
    ∃ more, ∀ line, '\n' ∉ line → ∀ header number,
      readLines header number (Text.lines (line ++ after)) =
        readLines header number (line :: more) := by
  rcases h with rfl | ⟨rest, rfl⟩ | ⟨rest, rfl⟩
  · refine ⟨[], fun line hline header number => ?_⟩
    rw [List.append_nil]
    by_cases hne : line = []
    · -- an empty text has no line at all, which reads like an empty one
      rw [hne, readLines_cons_of_not_isRow not_isRow_nil]
      rfl
    · rw [Text.lines_of_not_mem hne hline]
  · refine ⟨Text.lines rest, fun line hline header number => ?_⟩
    rw [Text.lines_append_cons hline]
    exact readLines_cons_congr (Text.trim_withoutReturn line) header number _
  · refine ⟨Text.lines rest, fun line hline header number => ?_⟩
    have hreturn : '\n' ∉ line ++ ['\r'] := by simp [hline]
    rw [List.append_cons, Text.lines_append_cons hreturn]
    refine readLines_cons_congr ?_ header number _
    rw [Text.trim_withoutReturn, Text.trim_append_return]

/-- The place of the first row in a text: behind whole lines that are no rows, and in front of the
    end of its line. -/
structure FirstRow (text before line after : String) : Prop where
  text_eq : text = before ++ line ++ after
  ends : before = "" ∨ before.toList.getLast? = some '\n'
  none_before : ∀ other ∈ Text.lines before.toList, ¬ IsRow other
  isRow : IsRow line.toList
  not_mem : '\n' ∉ line.toList
  follows : Text.FollowsLine after.toList

/-- With a header the first row is as good as an empty line. -/
theorem FirstRow.read_eq {text before line after : String} (h : FirstRow text before line after) :
    read true text = read false (before ++ after) := by
  obtain ⟨rfl, hends, hnone, hrow, hline, hfollows⟩ := h
  obtain ⟨more, hmore⟩ := exists_lines_of_followsLine hfollows
  have hbefore : before.toList = [] ∨ before.toList.getLast? = some '\n' :=
    hends.imp_left fun hnil => by rw [hnil]; rfl
  have hlines (header : Bool) (cs : List Char) :
      readLines header 1 (Text.lines (before.toList ++ cs)) =
        readLines header (1 + (Text.lines before.toList).length) (Text.lines cs) := by
    rw [lines_append_of_ends hbefore, readLines_append_of_not_isRow hnone]
  rw [read, read, String.toList_append, String.toList_append, String.toList_append,
    List.append_assoc, hlines, hlines]
  generalize 1 + (Text.lines before.toList).length = number
  calc readLines true number (Text.lines (line.toList ++ after.toList))
      = readLines true number (line.toList :: more) := hmore _ hline true number
    _ = readLines false (number + 1) more := readLines_cons_header hrow number more
    _ = readLines false number ([] :: more) :=
        (readLines_cons_of_not_isRow not_isRow_nil false number more).symm
    _ = readLines false number (Text.lines after.toList) :=
        (hmore [] List.not_mem_nil false number).symm

/-- A text with a row has a first one. -/
theorem exists_firstRow {text : String} (h : ∃ line ∈ Text.lines text.toList, IsRow line) :
    ∃ before line after, FirstRow text before line after := by
  obtain ⟨line, hmem, hrow⟩ := h
  obtain ⟨first, hfirst⟩ : ∃ first, (Text.lines text.toList).find?
      (fun line => decide (IsRow line)) = some first := by
    rw [← Option.isSome_iff_exists, List.find?_isSome]
    exact ⟨line, hmem, decide_eq_true hrow⟩
  rw [List.find?_eq_some_iff_append] at hfirst
  obtain ⟨hisRow, lines, others, hlines, hnone⟩ := hfirst
  obtain ⟨front, rest, htext, hfront, hends, hline, hrest⟩ := Text.exists_of_lines_eq hlines
  refine ⟨String.ofList front, String.ofList first, String.ofList rest, ?_, ?_, ?_, ?_, ?_, ?_⟩
  · rw [← String.ofList_append, ← String.ofList_append, ← htext, String.ofList_toList]
  · rw [String.toList_ofList]
    exact hends.imp_left fun hnil => by rw [hnil]
  · intro other hother
    rw [String.toList_ofList, hfront] at hother
    simpa using hnone other hother
  · rw [String.toList_ofList]
    exact of_decide_eq_true hisRow
  · rwa [String.toList_ofList]
  · rwa [String.toList_ofList]

/-! ## Texts -/

/-- **What a header means.** With a header a text is read as the text is without one in which the
    first row gives way to an empty line, whatever that row holds: all records, their lines and the
    error are the same. So it is where the text has a row; where it has none, there are no records
    with a header and without one. In all this a table is its rows, read one after another, and a
    header takes away the first of them: no other line, and no other error. -/
theorem readRecords_header (text : String) :
    (∀ before line after, FirstRow text before line after →
      readRecords true (.ok text.toUTF8.toList) =
        readRecords false (.ok (before ++ after).toUTF8.toList)) ∧
    ((∃ line ∈ Text.lines text.toList, IsRow line) →
      ∃ before line after, FirstRow text before line after) ∧
    ((∀ line ∈ Text.lines text.toList, ¬ IsRow line) →
      ∀ header, readRecords header (.ok text.toUTF8.toList) = .ok []) ∧
    ∀ header, readRecords header (.ok text.toUTF8.toList) =
      ((rowsRead header (rowsFrom 1 (Text.lines text.toList))).mapM readRow).mapError .row := by
  have hread (header : Bool) : readRecords header (.ok text.toUTF8.toList) =
      ((rowsRead header (rowsFrom 1 (Text.lines text.toList))).mapM readRow).mapError .row := by
    rw [readRecords_toUTF8, read, readLines_eq]
  refine ⟨?_, exists_firstRow, ?_, hread⟩
  · intro before line after hfirst
    rw [readRecords_toUTF8, readRecords_toUTF8, hfirst.read_eq]
  · intro hnone header
    rw [hread, rowsFrom_eq_nil hnone]
    cases header <;> rfl

/-- The comment is not the header, and the header, which is no record, hides nothing behind it. -/
example : read true "# note\nlabel,q1\n'x',1\n" = .error (.tooFewFields 3 2) := rfl

end LatencyPlot.Table
