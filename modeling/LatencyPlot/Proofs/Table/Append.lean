/-
  LatencyPlot.Proofs.Table.Append

  Reading one text after another. The reading of a table carries two things from
  line to line, the number of the next line and whether a header row is still to
  be left out:

    * lines that are numbered from further on give the same records and the same
      error, moved down by as many lines (`readLines_shift`);
    * after some lines a header row is still to be left out iff none of them was a
      row (`readLines_append`).

  Hence the law of two texts, `readRecords_append`.
-/
import LatencyPlot.Proofs.Table.Outcome
import LatencyPlot.Proofs.Text.Bytes

namespace LatencyPlot

/-- The record, moved down by `k` lines. -/
def Record.shift {α : Type} (k : Nat) (r : Record α) : Record α := { r with line := r.line + k }

namespace Table

/-- The error, moved down by `k` lines. -/
def RowError.shift (k : Nat) : RowError → RowError
  | .tooFewFields line found => .tooFewFields (line + k) found
  | .invalidNumber line column value => .invalidNumber (line + k) column value

/-- What is read, moved down by `k` lines. -/
def shift (k : Nat) : Except RowError (List (Record Float)) → Except RowError (List (Record Float))
  | .error e => .error (e.shift k)
  | .ok records => .ok (records.map (·.shift k))

/-! ## The number of the first line -/

theorem Holds.shift {line : Nat} {fs : List (List Char)} {r : Record Float} (k : Nat)
    (h : Holds line fs r) : Holds (line + k) fs (r.shift k) where
  line_eq := congrArg (· + k) h.line_eq
  label_eq := h.label_eq
  value_eq c := by
    obtain ⟨field, hfield, hread⟩ := h.value_eq c
    refine ⟨field, hfield, hread.trans ?_⟩
    cases c <;> rfl

theorem Complains.shift {line : Nat} {fs : List (List Char)} {e : RowError} (k : Nat)
    (h : Complains line fs e) : Complains (line + k) fs (e.shift k) := by
  cases h with
  | tooFewFields h => exact .tooFewFields h
  | invalidNumber h hfield hbad hleft => exact .invalidNumber h hfield hbad hleft

/-- The number of a row only shows in what is said of it. -/
theorem row_add (line k : Nat) (fs : List (List Char)) :
    row (line + k) fs =
      match row line fs with
      | .ok r => .ok (r.shift k)
      | .error e => .error (e.shift k) := by
  cases h : row line fs with
  | ok r => exact row_eq_ok_iff.mpr ((row_eq_ok_iff.mp h).shift k)
  | error e => exact row_eq_error_iff.mpr ((row_eq_error_iff.mp h).shift k)

/-! ## One more line -/

theorem readLines_cons_of_not_isRow {text : List Char} (h : ¬ IsRow text) (header : Bool)
    (number : Nat) (rest : List (List Char)) :
    readLines header number (text :: rest) = readLines header (number + 1) rest := by
  rw [readLines, Line.read_eq, if_neg h]

theorem readLines_cons_header {text : List Char} (h : IsRow text) (number : Nat)
    (rest : List (List Char)) :
    readLines true number (text :: rest) = readLines false (number + 1) rest := by
  rw [readLines, Line.read_eq, if_pos h]
  rfl

theorem readLines_cons_of_isRow {text : List Char} (h : IsRow text) (number : Nat)
    (rest : List (List Char)) :
    readLines false number (text :: rest) =
      match row number (fields (content text)) with
      | .error e => .error e
      | .ok r => (readLines false (number + 1) rest).map (r :: ·) := by
  rw [readLines, Line.read_eq, if_pos h]
  rfl

/-! ## All lines -/

/-- A line may be put for another that is read alike at every number. -/
theorem readLines_congr {a b : List Char} (h : ∀ number, Line.read number a = Line.read number b)
    (header : Bool) (number : Nat) (before after : List (List Char)) :
    readLines header number (before ++ a :: after) =
      readLines header number (before ++ b :: after) := by
  induction before generalizing header number with
  | nil => rw [List.nil_append, List.nil_append, readLines, readLines, h]
  | cons line before ih =>
    rw [List.cons_append, List.cons_append, readLines, readLines]
    cases Line.read number line with
    | pass => exact ih header (number + 1)
    | row outcome => simp only [ih false (number + 1)]

/-- Lines that are numbered from further on say the same further down. -/
theorem readLines_shift (header : Bool) (number k : Nat) (lines : List (List Char)) :
    readLines header (number + k) lines = shift k (readLines header number lines) := by
  -- The header may be used up on the way, so the induction is for both values of it.
  induction lines generalizing header number with
  | nil => rfl
  | cons text rest ih =>
    have hnext (h : Bool) :
        readLines h (number + k + 1) rest = shift k (readLines h (number + 1) rest) := by
      rw [Nat.add_right_comm]
      exact ih h (number + 1)
    by_cases hrow : IsRow text
    · cases header with
      | true => rw [readLines_cons_header hrow, readLines_cons_header hrow, hnext]
      | false =>
        rw [readLines_cons_of_isRow hrow, readLines_cons_of_isRow hrow, hnext, row_add]
        cases row number (fields (content text)) with
        | error e => rfl
        | ok r =>
          cases readLines false (number + 1) rest with
          | error e => rfl
          | ok records => rfl
    · rw [readLines_cons_of_not_isRow hrow, readLines_cons_of_not_isRow hrow, hnext]

/-- Whether a header row is still to be left out after some lines: none of them was a row. -/
def headerAfter (header : Bool) (lines : List (List Char)) : Bool :=
  header && lines.all fun text => !decide (IsRow text)

/-- After some lines the reading goes on with the next number, and with a header row to leave out if
    it is still to come. -/
theorem readLines_append (header : Bool) (number : Nat) (before after : List (List Char)) :
    readLines header number (before ++ after) =
      match readLines header number before with
      | .error e => .error e
      | .ok records =>
        (readLines (headerAfter header before) (number + before.length) after).map
          (records ++ ·) := by
  simp only [headerAfter]
  -- Number and header are those of the next line; the errors of `before` end both readings alike.
  induction before generalizing header number with
  | nil =>
    simp only [List.nil_append, List.all_nil, Bool.and_true, List.length_nil, Nat.add_zero, readLines]
    cases readLines header number after with
    | error e => rfl
    | ok records => rfl
  | cons text rest ih =>
    have hlength : number + (text :: rest).length = number + 1 + rest.length := by
      rw [List.length_cons]
      omega
    rw [List.cons_append, hlength, List.all_cons]
    by_cases hrow : IsRow text
    · simp only [hrow, decide_true, Bool.not_true, Bool.false_and, Bool.and_false]
      cases header with
      | true =>
        rw [readLines_cons_header hrow, readLines_cons_header hrow, ih false (number + 1),
          Bool.false_and]
      | false =>
        rw [readLines_cons_of_isRow hrow, readLines_cons_of_isRow hrow, ih false (number + 1),
          Bool.false_and]
        cases row number (fields (content text)) with
        | error e => rfl
        | ok r =>
          cases readLines false (number + 1) rest with
          | error e => rfl
          | ok records =>
            cases readLines false (number + 1 + rest.length) after with
            | error e => rfl
            | ok more => rfl
    · simp only [hrow, decide_false, Bool.not_false, Bool.true_and]
      rw [readLines_cons_of_not_isRow hrow, readLines_cons_of_not_isRow hrow, ih header (number + 1)]

/-- A text that ends with a line feed, or is empty, keeps its lines to itself. -/
theorem lines_append_of_ends {a : List Char} (ha : a = [] ∨ a.getLast? = some '\n')
    (b : List Char) : Text.lines (a ++ b) = Text.lines a ++ Text.lines b := by
  rcases ha with rfl | ha
  · rfl
  · -- the line feed at the end of `a` parts its pieces from those of `b`
    obtain ⟨init, rfl⟩ := List.getLast?_eq_some_iff.mp ha
    rw [List.append_assoc, List.singleton_append]
    exact Text.lines_append init b

theorem read_append_of_ends (header : Bool) {a : String} (b : String)
    (ha : a = "" ∨ a.toList.getLast? = some '\n') :
    read header (a ++ b) =
      match read header a with
      | .error e => .error e
      | .ok records =>
        (shift (Text.lines a.toList).length
          (read (headerAfter header (Text.lines a.toList)) b)).map (records ++ ·) := by
  have hends : a.toList = [] ∨ a.toList.getLast? = some '\n' := by
    rcases ha with rfl | ha
    · exact .inl rfl
    · exact .inr ha
  simp only [read]
  rw [String.toList_append, lines_append_of_ends hends, readLines_append, readLines_shift]

end Table

/-- The error, moved down by `k` lines. An error of the whole stream stands on no line. -/
def ReadError.shift (k : Nat) : ReadError → ReadError
  | .row cause => .row (cause.shift k)
  | .stream cause => .stream cause

/-- **Two texts one after the other.** What is wrong with the first one is wrong with both; else
    the second one is read as it would be by itself, further down, and without its first row if
    the first text has not used up the header. -/
theorem readRecords_append (header : Bool) (a b : String)
    (ha : a = "" ∨ a.toList.getLast? = some '\n') :
    readRecords header (.ok (a.toUTF8.toList ++ b.toUTF8.toList)) =
      match readRecords header (.ok a.toUTF8.toList) with
      | .error e => .error e
      | .ok records =>
        match readRecords (Table.headerAfter header (Text.lines a.toList))
            (.ok b.toUTF8.toList) with
        | .error e => .error (e.shift (Text.lines a.toList).length)
        | .ok more => .ok (records ++ more.map (·.shift (Text.lines a.toList).length)) := by
  rw [← Text.toList_toUTF8_append]
  simp only [readRecords_toUTF8]
  rw [Table.read_append_of_ends header b ha]
  cases Table.read header a with
  | error e => rfl
  | ok records =>
    cases Table.read (Table.headerAfter header (Text.lines a.toList)) b with
    | error e => rfl
    | ok more => rfl

/-- A header above a blank line: the row after them is a row, and is the third line. -/
theorem readRecords_append_header :
    ("label,q1\n\n" = "" ∨ "label,q1\n\n".toList.getLast? = some '\n') ∧
      readRecords true (.ok ("label,q1\n\n".toUTF8.toList ++ "'a',1\n".toUTF8.toList)) =
        .error (.row (.tooFewFields 3 2)) := by
  refine ⟨by decide, ?_⟩
  rw [readRecords_append true "label,q1\n\n" "'a',1\n" (by decide)]
  simp only [readRecords_toUTF8]
  rfl

end LatencyPlot
