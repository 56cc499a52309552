/-
  LatencyPlot.Markup.Legal

  The characters that a document may hold: all but most control characters and
  two code points at the end of the first plane. A document with any other one
  is refused at the first of them.
-/
import LatencyPlot.Text.Position

namespace LatencyPlot.Markup

/-- Whether a document may hold a character. -/
def isLegal (c : Char) : Bool :=
  let n := c.toNat
  n == 0x9 || n == 0xA || n == 0xD || (0x20 ≤ n && n ≤ 0xD7FF) || (0xE000 ≤ n && n ≤ 0xFFFD) ||
    0x10000 ≤ n

/-- The first character that a document may not hold, and its place. -/
def firstIllegal? (text : List Char) : Option (Char × Text.Position) :=
  (text.find? (! isLegal ·)).map fun c => (c, .after (text.takeWhile isLegal))

/-- Only a text of legal characters is a document. -/
theorem firstIllegal?_eq_none_iff {text : List Char} :
    firstIllegal? text = none ↔ ∀ c ∈ text, isLegal c = true := by
  simp [firstIllegal?]

end LatencyPlot.Markup
