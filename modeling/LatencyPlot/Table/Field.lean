/-
  LatencyPlot.Table.Field

  The fields of one row. Commas divide fields. A field that begins with a
  single quote is quoted: commas in it are text, and a quote in it is written
  twice. What follows the closing quote up to the next comma is text as well.
  The row ends at a carriage return or a line feed outside quotes.
-/
import LatencyPlot.Text.Blank

namespace LatencyPlot.Table

/-- Where the reading of a field stands. -/
inductive FieldState where
  /-- At its first character. -/
  | opening
  /-- Outside quotes. -/
  | bare
  /-- Inside quotes. -/
  | quoted
  /-- After a quote inside quotes. -/
  | closing
  deriving DecidableEq

/-- What a character does to the field it stands in. -/
inductive FieldStep where
  /-- It is text of the field. -/
  | keep (next : FieldState)
  /-- It is a quote that is not text. -/
  | skip (next : FieldState)
  /-- It ends the field. -/
  | divide
  /-- It ends the row. -/
  | finish

/-- Whether a character ends a row. -/
def isRowEnd (c : Char) : Bool := c == '\r' || c == '\n'

/-- The effect of a character outside quotes. -/
def outsideStep (c : Char) : FieldStep :=
  if c = ',' then .divide else if isRowEnd c then .finish else .keep .bare

/-- The effect of a character in a state. -/
def fieldStep : FieldState → Char → FieldStep
  | .opening, c => if c = '\'' then .skip .quoted else outsideStep c
  | .bare, c => outsideStep c
  | .quoted, c => if c = '\'' then .skip .closing else .keep .quoted
  | .closing, c => if c = '\'' then .keep .quoted else outsideStep c

/-- Puts a character in front of the first field. -/
def push (c : Char) : List (List Char) → List (List Char)
  | [] => [[c]]
  | field :: more => (c :: field) :: more

/-- The fields from a state on; there is always at least one. -/
def fieldsFrom : FieldState → List Char → List (List Char)
  | _, [] => [[]]
  | state, c :: cs =>
    match fieldStep state c with
    | .keep next => push c (fieldsFrom next cs)
    | .skip next => fieldsFrom next cs
    | .divide => [] :: fieldsFrom .opening cs
    | .finish => [[]]

/-- A text without the byte order mark it may begin with. -/
def withoutMark : List Char → List Char
  | c :: cs => if c = '\uFEFF' then cs else c :: cs
  | [] => []

/-- The fields of the first row of a text, without the blanks around them. Row ends before the
    row are passed over; a text with nothing else has no fields. -/
def fields (text : List Char) : List (List Char) :=
  match (withoutMark text).dropWhile isRowEnd with
  | [] => []
  | cs => (fieldsFrom .opening cs).map Text.trim

/-! ## Laws -/

theorem push_ne_nil (c : Char) (fs : List (List Char)) : push c fs ≠ [] := by
  cases fs <;> exact List.cons_ne_nil _ _

/-- There is always at least one field. -/
theorem fieldsFrom_ne_nil (state : FieldState) (cs : List Char) : fieldsFrom state cs ≠ [] := by
  induction cs generalizing state with
  | nil => exact List.cons_ne_nil _ _
  | cons c cs ih =>
    rw [fieldsFrom]
    split
    · exact push_ne_nil _ _
    · exact ih _
    · exact List.cons_ne_nil _ _
    · exact List.cons_ne_nil _ _

end LatencyPlot.Table
