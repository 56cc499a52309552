/-
  LatencyPlot.Text.Position

  Places in a text, by line and column. Both are counted from one, a column in
  characters; only a line feed begins a new line.
-/

namespace LatencyPlot.Text

/-- A place in a text. -/
structure Position where
  line : Nat
  column : Nat
  deriving DecidableEq, Repr

namespace Position

/-- Where a text begins. -/
def start : Position := ⟨1, 1⟩

/-- The place after one more character. -/
def next (p : Position) (c : Char) : Position :=
  if c = '\n' then ⟨p.line + 1, 1⟩ else ⟨p.line, p.column + 1⟩

/-- The place after a text from its start. -/
def after (text : List Char) : Position := text.foldl next start

/-- The place in a message. -/
def text (p : Position) : String := toString p.line ++ ":" ++ toString p.column

end Position

end LatencyPlot.Text
