/-
  LatencyPlot.Record.Warning

  The warnings about records whose boundaries do not ascend, one line each.
-/
import LatencyPlot.Record
import LatencyPlot.Number.Text
import LatencyPlot.Text.Quoted

namespace LatencyPlot

/-- The warning about one record. -/
def Record.warning (r : Record Float) : String :=
  "warning: line " ++ toString r.line ++ ": " ++ Text.quoted r.label ++
    " has out-of-order percentiles [" ++ String.intercalate ", " (r.bounds.map Number.literal) ++
    "]; plotting as given"

/-- A warning for each record that is out of order, in the order of the records. -/
def warnings (records : List (Record Float)) : List String :=
  (records.filter fun r => !r.isMonotonic).map Record.warning

end LatencyPlot
