/-
  LatencyPlot.Run.Failure

  Why a run fails, with its messages from the outermost to the cause, and the
  report that the program ends with.
-/
import LatencyPlot.Axis.Bounds
import LatencyPlot.Plot.Portable
import LatencyPlot.Source

namespace LatencyPlot

open Storage

/-- Why a run fails. -/
inductive Failure where
  | inputNotFound (path : String)
  | badSize
  | cannotOpen (cause : OpenError)
  | cannotParse (path : String) (cause : ReadError)
  | nothingToPlot (path : String) (cause : BoundsError)
  /-- The file for the page cannot be made. -/
  | cannotCreatePage (path : String) (cause : StorageError)
  /-- The page cannot be written to its file, or another output not at all. -/
  | cannotWrite (path : String) (cause : StorageError)
  | cannotConvert (path : String) (cause : Portable.ConversionError)
  | cannotLaunch (path : String) (cause : StorageError)
  deriving DecidableEq, Repr

namespace Failure

/-- The messages of a failure: what failed, then why. -/
def messages : Failure → List String
  | .inputNotFound path => ["input file not found: " ++ path]
  | .badSize => ["--width and --height must be > 0"]
  | .cannotOpen cause => cause.messages
  | .cannotParse path cause => ("failed to parse " ++ path) :: cause.messages
  | .nothingToPlot path cause => ["nothing to plot in " ++ path, cause.message]
  | .cannotCreatePage path cause =>
    ["failed to write " ++ path, "failed to create " ++ path, cause.message]
  | .cannotWrite path cause => ["failed to write " ++ path, cause.message]
  | .cannotConvert path cause => ("failed to render PDF for " ++ path) :: cause.messages
  | .cannotLaunch path cause => ["failed to launch a viewer for " ++ path, cause.message]

/-- What failed. -/
def message (f : Failure) : String := f.messages.headD ""

/-! ## Report -/

/-- A text with a first line and further lines set in by `indent`. -/
def indented (first indent : String) (text : String) : String :=
  first ++ String.intercalate ("\n" ++ indent) (text.splitOn "\n")

/-- The reasons of a failure, numbered if there are several. -/
def reasons : List String → String
  | [] => ""
  | [reason] => "\n\nCaused by:\n" ++ indented "    " "    " reason
  | several =>
    "\n\nCaused by:\n" ++ String.intercalate "\n"
      (several.mapIdx fun i reason => indented ("    " ++ toString i ++ ": ") "       " reason)

/-- The last words of a program that fails. -/
def report (f : Failure) : String :=
  "Error: " ++ f.message ++ reasons f.messages.tail ++ "\n"

end Failure

/-- The exit status of a program that ends so. -/
def exitStatus : Except Failure Unit → UInt32
  | .ok () => 0
  | .error _ => 1

end LatencyPlot
