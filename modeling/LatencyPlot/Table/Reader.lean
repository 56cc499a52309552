/-
  LatencyPlot.Table.Reader

  The records of a table, in the order of its lines. Blank lines are passed
  over, and so is a line that begins with a hash mark, unless it holds a whole
  record. A row may be written as a tuple, with parentheses around it and a
  comma after it. The first row that is no record ends the reading.
-/
import LatencyPlot.Table.Row
import LatencyPlot.Text.Line

namespace LatencyPlot.Table

/-! ## One line -/

/-- The text without the comma it may end in. -/
def withoutComma (cs : List Char) : List Char :=
  if cs.getLast? = some ',' then cs.dropLast else cs

/-- What stands between the parentheses of a tuple. -/
def tupleBody? (cs : List Char) : Option (List Char) :=
  match cs with
  | '(' :: rest => if rest.getLast? = some ')' then some rest.dropLast else none
  | _ => none

/-- The text of a line that is split into fields: the body of a tuple, else the whole line
    without blanks around it. -/
def content (line : List Char) : List Char :=
  let cs := Text.trim line
  (tupleBody? (Text.trimEnd (withoutComma cs))).getD cs

/-- What a line contributes. -/
inductive Line where
  /-- A blank line, or a comment. -/
  | pass
  /-- A row, read or not. -/
  | row (outcome : Except RowError (Record Float))

/-- Reads one line. -/
def Line.read (number : Nat) (text : List Char) : Line :=
  let cs := content text
  if cs = [] then .pass
  else match Table.row number (fields cs) with
    | .ok r => .row (.ok r)
    | .error e => if cs.head? = some '#' then .pass else .row (.error e)

/-! ## All lines -/

/-- The records of lines that are numbered from `number` on. With `header` the first row is left
    out, whatever it holds. -/
def readLines (header : Bool) (number : Nat) :
    List (List Char) → Except RowError (List (Record Float))
  | [] => .ok []
  | line :: rest =>
    match Line.read number line with
    | .pass => readLines header (number + 1) rest
    | .row outcome =>
      if header then readLines false (number + 1) rest
      else match outcome with
        | .error e => .error e
        | .ok r => (readLines false (number + 1) rest).map (r :: ·)

/-- The records of a text. -/
def read (header : Bool) (text : String) : Except RowError (List (Record Float)) :=
  readLines header 1 (Text.lines text.toList)

end LatencyPlot.Table
