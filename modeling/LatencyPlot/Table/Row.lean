/-
  LatencyPlot.Table.Row

  A row as a record: a label and five finite numbers; further fields are
  ignored. A value may stand between quotes of either kind even where the
  field does not begin with them.
-/
import LatencyPlot.Table.Field
import LatencyPlot.Number.Reader
import LatencyPlot.Record
import LatencyPlot.Text.Quoted

namespace LatencyPlot.Table

/-- The numeric columns of a row. -/
inductive Column where
  | low
  | p25
  | median
  | p75
  | high
  deriving DecidableEq, Repr

/-- The name of a column in messages: the quarter that begins, or ends, at the boundary. -/
def Column.name : Column → String
  | .low => "q1_start"
  | .p25 => "q2_start"
  | .median => "q3_start"
  | .p75 => "q4_start"
  | .high => "q4_end"

/-- Why a row is no record. -/
inductive RowError where
  | tooFewFields (line : Nat) (found : Nat)
  | invalidNumber (line : Nat) (column : Column) (value : String)
  deriving DecidableEq, Repr

/-- The message of a row error. -/
def RowError.message : RowError → String
  | .tooFewFields line found =>
    "line " ++ toString line ++ ": expected 6 fields (label and 5 percentiles), found " ++
      toString found
  | .invalidNumber line column value =>
    "line " ++ toString line ++ ": field " ++ column.name ++ " is not a finite number: " ++
      Text.quoted value

/-- Whether a text of two or more characters begins and ends with `q`. -/
def isEnclosedBy (q : Char) (cs : List Char) : Bool :=
  2 ≤ cs.length && cs.head? == some q && cs.getLast? == some q

/-- The text without blanks around it and without one pair of enclosing quotes. -/
def unquote (field : List Char) : List Char :=
  let cs := Text.trim field
  if isEnclosedBy '\'' cs || isEnclosedBy '"' cs then cs.tail.dropLast else cs

/-- The number in a field. -/
def number (line : Nat) (column : Column) (field : List Char) : Except RowError Float :=
  let cs := unquote field
  match Number.readFinite? cs with
  | some x => .ok x
  | none => .error (.invalidNumber line column (String.ofList cs))

/-- The record that the fields of a row make up. The leftmost column that is no finite number is
    the one reported. -/
def row (line : Nat) : List (List Char) → Except RowError (Record Float)
  | label :: low :: p25 :: median :: p75 :: high :: _ => do
    let low ← number line .low low
    let p25 ← number line .p25 p25
    let median ← number line .median median
    let p75 ← number line .p75 p75
    let high ← number line .high high
    return { label := String.ofList (unquote label), low, p25, median, p75, high, line }
  | fields => .error (.tooFewFields line fields.length)

end LatencyPlot.Table
