/-
  LatencyPlot.Command.Help

  The texts for the help and the version.
-/

namespace LatencyPlot.Command

/-- The name of the program. -/
def programName : String := "latency-boxplot"

/-- The text for the version. -/
def versionText : String := programName ++ " 0.1.0\n"

/-- The lines of the help. -/
def helpLines : List String := [
  "Box-and-whisker plot of percentile latencies from a CSV file",
  "",
  "Usage: " ++ programName ++ " [OPTIONS] <INPUT>",
  "",
  "Arguments:",
  "  <INPUT>  CSV rows of \x60label, min, p25, median, p75, max\x60 (may be gzip-compressed)",
  "",
  "Options:",
  "      --out <OUT>          HTML page to write (defaults to the input path with an .html extension)",
  "      --svg <SVG>          ",
  "      --pdf <PDF>          ",
  "      --title <TITLE>      ",
  "      --x-label <X_LABEL>  [default: \"Test Run\"]",
  "      --y-label <Y_LABEL>  [default: \"Latency in Milliseconds\"]",
  "      --sort-by <SORT_BY>  [default: input] [possible values: input, label, median]",
  "      --width <WIDTH>      [default: 900]",
  "      --height <HEIGHT>    [default: 500]",
  "      --header             Treat the first row as a header and skip it",
  "      --no-open            Write the outputs without launching a viewer",
  "  -h, --help               Print help",
  "  -V, --version            Print version"]

/-- The text for the help. -/
def helpText : String := String.join (helpLines.map fun line => line ++ "\n")

/-- Where to look after a command line that could not be read. -/
def helpHint : String := "For more information, try '--help'."

end LatencyPlot.Command
