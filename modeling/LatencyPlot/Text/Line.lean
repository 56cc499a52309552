/-
  LatencyPlot.Text.Line

  The lines of a text. A line ends at a line feed, and a carriage return just
  before that belongs to the line end; what follows the last line feed is a
  line as it is, unless it is empty.
-/

namespace LatencyPlot.Text

/-- A text without the carriage return it may end in. -/
def withoutReturn (piece : List Char) : List Char :=
  if piece.getLast? = some '\r' then piece.dropLast else piece

/-- The lines that the pieces of a text between its line feeds are. The last piece has no line feed
    behind it. -/
def linesOf : List (List Char) → List (List Char)
  | [] => []
  | [last] => if last = [] then [] else [last]
  | piece :: next :: rest => withoutReturn piece :: linesOf (next :: rest)

/-- The lines of a text. -/
def lines (text : List Char) : List (List Char) := linesOf (text.splitOn '\n')

/-- Pieces with others behind them are lines that have ended. -/
theorem linesOf_append {after : List (List Char)} (h : after ≠ []) (before : List (List Char)) :
    linesOf (before ++ after) = before.map withoutReturn ++ linesOf after := by
  induction before with
  | nil => rfl
  | cons piece before ih =>
    rw [List.cons_append, List.map_cons, List.cons_append, ← ih]
    -- something follows the piece, so it is not the last one
    cases hrest : before ++ after with
    | nil => exact absurd (List.append_eq_nil_iff.mp hrest).2 h
    | cons next rest => rfl

/-- A line feed divides the lines before it from those after it. -/
theorem lines_append (a b : List Char) :
    lines (a ++ '\n' :: b) = lines (a ++ ['\n']) ++ lines b := by
  have hend : (a ++ ['\n']).splitOn '\n' = a.splitOn '\n' ++ [[]] :=
    List.splitOn_append_cons_self a []
  -- in front of the line feed all lines have ended
  rw [lines, lines, lines, List.splitOn_append_cons_self, hend,
    linesOf_append (List.splitOn_ne_nil '\n' b), linesOf_append (List.cons_ne_nil [] [])]
  exact (congrArg (· ++ linesOf (b.splitOn '\n')) (List.append_nil _)).symm

end LatencyPlot.Text
