/-
  LatencyPlot.Duration

  The text of a time span: whole milliseconds below one second, seconds with
  three places from there on.
-/
import LatencyPlot.Number.Text

namespace LatencyPlot

/-- A time span; `nanos` is less than one second. -/
structure Duration where
  secs : Nat
  nanos : Nat
  deriving DecidableEq, Repr

namespace Duration

/-- The span in seconds, as a double. -/
def seconds (d : Duration) : Float := Float.ofNat d.secs + Float.ofNat d.nanos / 1e9

/-- The span in whole milliseconds. -/
def millis (d : Duration) : Nat := d.secs * 1000 + d.nanos / 1000000

/-- The text of a span. -/
def text (d : Duration) : String :=
  if d.seconds < 1.0 then toString d.millis ++ "ms" else Number.fixed 3 d.seconds ++ "s"

/-- The span of a number of nanoseconds. -/
def ofNanos (n : Nat) : Duration := ⟨n / 1000000000, n % 1000000000⟩

end Duration

end LatencyPlot
