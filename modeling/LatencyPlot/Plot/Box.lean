/-
  LatencyPlot.Plot.Box

  The drawn form of a record: a box from the 25th to the 75th percentile, the
  median across it, and whiskers from its edges to the extremes.
-/
import LatencyPlot.Plot.Frame

namespace LatencyPlot

/-- Where the marks of one record stand on the canvas. -/
structure Box (α : Type) where
  centre : α
  width : α
  capWidth : α
  yLow : α
  yP25 : α
  yMedian : α
  yP75 : α
  yHigh : α

/-- A line from the edge of a box to an extreme, with a cap at that end. -/
structure Whisker (α : Type) where
  edge : α
  extreme : α

namespace Box

variable {α : Type} [Scalar α]

/-- The marks of a record in the slot with number `i` of `n`. -/
def ofRecord (f : Frame α) (n i : Nat) (r : Record α) : Box α :=
  { centre := f.centre n i
    width := f.boxWidth n
    capWidth := f.boxWidth n * 0.5
    yLow := f.y r.low
    yP25 := f.y r.p25
    yMedian := f.y r.median
    yP75 := f.y r.p75
    yHigh := f.y r.high }

/-- The left edge of the box. -/
def left (b : Box α) : α := b.centre - b.width / 2.0

/-- The right edge of the box, where the median ends. -/
def right (b : Box α) : α := b.left + b.width

/-- The upper edge of the box. -/
def top (b : Box α) : α := Scalar.lesser b.yP75 b.yP25

/-- The height of the box. -/
def height (b : Box α) : α := Scalar.abs (b.yP25 - b.yP75)

/-- The left end of the caps. -/
def capLeft (b : Box α) : α := b.centre - b.capWidth / 2.0

/-- The right end of the caps. -/
def capRight (b : Box α) : α := b.centre + b.capWidth / 2.0

/-- The whisker to the least latency, then the one to the greatest. -/
def whiskers (b : Box α) : List (Whisker α) := [⟨b.yP25, b.yLow⟩, ⟨b.yP75, b.yHigh⟩]

end Box

/-- The boxes of all records, from left to right. -/
def boxes {α : Type} [Scalar α] (f : Frame α) (records : List (Record α)) : List (Box α) :=
  records.mapIdx fun i r => Box.ofRecord f records.length i r

end LatencyPlot
