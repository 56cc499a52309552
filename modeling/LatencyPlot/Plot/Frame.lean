/-
  LatencyPlot.Plot.Frame

  The plot area on the canvas and the mapping of latencies to heights in it.
  Room is left for the tick labels, and for the titles that are not empty.
-/
import LatencyPlot.Axis.Bounds
import LatencyPlot.Axis.Ticks

namespace LatencyPlot

/-- The size of a plot and its titles; an empty title is left out. -/
structure Style (α : Type) where
  width : α
  height : α
  title : String
  xLabel : String
  yLabel : String

/-- The width of a plot where none is asked for. -/
def defaultWidth : Nat := 900
/-- The height of a plot where none is asked for. -/
def defaultHeight : Nat := 500
/-- The title of the run axis where none is asked for. -/
def defaultXLabel : String := "Test Run"
/-- The title of the latency axis where none is asked for. -/
def defaultYLabel : String := "Latency in Milliseconds"

/-- The plot area and the bounds of its latency axis. -/
structure Frame (α : Type) where
  left : α
  top : α
  width : α
  height : α
  bounds : Bounds α

/-- With more records than this the labels below the boxes are drawn at an angle. -/
def maxUprightLabels : Nat := 6

/-- Whether the labels of `n` records are drawn at an angle. -/
def isRotated (n : Nat) : Bool := maxUprightLabels < n

namespace Frame

variable {α : Type} [Scalar α]

/-- The room below the plot area. -/
def bottomMargin (rotated : Bool) (xLabel : String) : α :=
  match rotated, xLabel.isEmpty with
  | true, true => 96.0
  | true, false => 116.0
  | false, true => 44.0
  | false, false => 62.0

/-- The plot area for `n` records: what the margins leave of the canvas, and at least one pixel
    either way. -/
def ofStyle (style : Style α) (n : Nat) (bounds : Bounds α) : Frame α :=
  let left := 64.0
  let right := 20.0
  let top := if style.title.isEmpty then 14.0 else 38.0
  let bottom := bottomMargin (isRotated n) style.xLabel
  { left, top, bounds
    width := Scalar.greater (style.width - left - right) 1.0
    height := Scalar.greater (style.height - top - bottom) 1.0 }

/-- The height of a latency on the canvas, counted from the top. Bounds that are upside down turn
    the axis around; bounds that meet count as one unit apart. -/
def y (f : Frame α) (v : α) : α :=
  let span := if f.bounds.span == 0.0 then 1.0 else f.bounds.span
  f.top + f.height - ((v - f.bounds.min) / span) * f.height

/-- How many ticks the latency axis is to have. -/
def wantedTicks : Nat := 6

/-- The latencies with a grid line; none where the bounds meet. -/
def ticks (f : Frame α) : List α :=
  let low := Scalar.lesser f.bounds.min f.bounds.max
  let high := Scalar.greater f.bounds.min f.bounds.max
  if high - low < 1e-9 then [] else (Ticks.nice low high wantedTicks).values

/-- The width of the slot of one record among `n`. -/
def slot (f : Frame α) (n : Nat) : α := f.width / Scalar.ofNat (max n 1)

/-- The middle of the slot with number `i`, counted from 0. -/
def centre (f : Frame α) (n i : Nat) : α := f.left + (Scalar.ofNat i + 0.5) * f.slot n

/-- A box takes half its slot, at least one pixel and at most eighty. -/
def boxWidth (f : Frame α) (n : Nat) : α := Scalar.clamp (f.slot n * 0.5) 1.0 80.0

end Frame

end LatencyPlot
