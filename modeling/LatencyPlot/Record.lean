/-
  LatencyPlot.Record

  One labelled test run: five latency boundaries, which ought to ascend, and
  the line of the input it was read from. Nothing enforces the order; a run
  that breaks it is plotted as it is and warned about.
-/

namespace LatencyPlot

/-- The least latency, the 25th percentile, the median, the 75th percentile and the greatest
    latency of a run. -/
structure Record (α : Type) where
  label : String
  low : α
  p25 : α
  median : α
  p75 : α
  high : α
  /-- Counted from 1; 0 when the run was not read from a file. -/
  line : Nat
  deriving DecidableEq

/-- Whether each number is at most the next one. -/
def ascending {α : Type} [LE α] [DecidableLE α] : List α → Bool
  | a :: b :: rest => decide (a ≤ b) && ascending (b :: rest)
  | _ => true

namespace Record

variable {α : Type}

/-- The record with each boundary put through `f`. -/
def map {β : Type} (f : α → β) (r : Record α) : Record β :=
  { label := r.label, low := f r.low, p25 := f r.p25, median := f r.median, p75 := f r.p75,
    high := f r.high, line := r.line }

/-- The five boundaries, from the least latency to the greatest. -/
def bounds (r : Record α) : List α := [r.low, r.p25, r.median, r.p75, r.high]

/-- Whether the boundaries ascend. -/
def isMonotonic [LE α] [DecidableLE α] (r : Record α) : Bool := ascending r.bounds

end Record

end LatencyPlot
