/-
  LatencyPlot.Axis.Bounds

  The bounds of the latency axis: they enclose the boxes of all records, with
  whole numbers for ends and at least one unit of room above. Whiskers may
  reach beyond them and are clipped.
-/
import LatencyPlot.Number.Scalar
import LatencyPlot.Record

namespace LatencyPlot

/-- The ends of the latency axis. The first one may be above the second one, if boxes are upside
    down. -/
structure Bounds (α : Type) where
  min : α
  max : α
  deriving DecidableEq

/-- Why there are no bounds. -/
inductive BoundsError where
  | noRecords
  deriving DecidableEq, Repr

/-- The message of a bounds error. -/
def BoundsError.message : BoundsError → String
  | .noRecords => "no records to plot; cannot derive a y-axis range"

namespace Bounds

variable {α : Type} [Scalar α]

/-- The signed length of the axis. -/
def span (b : Bounds α) : α := b.max - b.min

/-- From the floor of the lowest 25th percentile to the ceiling of one more than the highest 75th
    percentile. -/
def ofRecords : List (Record α) → Except BoundsError (Bounds α)
  | [] => .error .noRecords
  | r :: rs => .ok {
      min := Scalar.floor (Scalar.least r.p25 (rs.map Record.p25))
      max := Scalar.ceil (Scalar.greatest (r.p75 + 1.0) (rs.map fun r => r.p75 + 1.0)) }

end Bounds

end LatencyPlot
