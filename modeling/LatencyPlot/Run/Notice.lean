/-
  LatencyPlot.Run.Notice

  What a run says while it works, one line each: warnings about records, and
  statistics if they are asked for.
-/
import LatencyPlot.Duration
import LatencyPlot.Record.Warning

namespace LatencyPlot

/-- The stages of a run, in their order. -/
inductive Stage where
  | preflight
  | parse
  | axis
  | render
  | html
  | svg
  | pdf
  | viewer
  deriving DecidableEq, Repr

/-- The name of a stage in statistics. -/
def Stage.name : Stage → String
  | .preflight => "preflight"
  | .parse => "parse"
  | .axis => "axis"
  | .render => "render"
  | .html => "html"
  | .svg => "svg"
  | .pdf => "pdf"
  | .viewer => "open"

/-- A line of the statistics. -/
inductive Statistic where
  /-- A stage has ended. -/
  | stage (which : Stage) (time : Duration)
  /-- The input has been read. -/
  | input (path : String) (records : Nat)
  /-- The file of a stage has been written. -/
  | output (which : Stage) (path : String) (bytes : Nat)
  /-- The run has succeeded. -/
  | total (time : Duration)
  deriving DecidableEq, Repr

/-- The text of a line of the statistics. -/
def Statistic.text : Statistic → String
  | .stage which time => "LATPLOT_STATS stage=" ++ which.name ++ " time=" ++ time.text
  | .input path records => "LATPLOT_STATS input=" ++ path ++ " records=" ++ toString records
  | .output which path bytes =>
    "LATPLOT_STATS output " ++ which.name ++ "=" ++ path ++ " bytes=" ++ toString bytes
  | .total time => "LATPLOT_STATS total=" ++ time.text

/-- A line that a run writes to its log. -/
inductive Notice where
  | warning (text : String)
  | statistic (line : Statistic)
  deriving DecidableEq, Repr

/-- The text of a notice. -/
def Notice.text : Notice → String
  | .warning text => text
  | .statistic line => line.text

/-- Whether statistics are asked for, by the value of the environment variable for them. -/
def wantsStatistics (value : Option String) : Bool := value == some "1"

end LatencyPlot
