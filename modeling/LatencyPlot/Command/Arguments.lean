/-
  LatencyPlot.Command.Arguments

  What a command line asks for: an input, options with a value, and flags.
  Where an option is left out its default stands.
-/
import LatencyPlot.Number.Reader
import LatencyPlot.Plot.Frame
import LatencyPlot.Record.Order

namespace LatencyPlot.Command

/-- The options that take a value. -/
inductive ValueOption where
  | out
  | svg
  | pdf
  | title
  | xLabel
  | yLabel
  | sortBy
  | width
  | height
  deriving DecidableEq, Repr

/-- The options that take none. -/
inductive Flag where
  | header
  | noOpen
  | help
  | version
  deriving DecidableEq, Repr

/-- What a long name stands for. -/
inductive Switch where
  | value (option : ValueOption)
  | flag (flag : Flag)
  deriving DecidableEq, Repr

/-- The long names. -/
def longNames : List (String × Switch) := [
  ("out", .value .out), ("svg", .value .svg), ("pdf", .value .pdf), ("title", .value .title),
  ("x-label", .value .xLabel), ("y-label", .value .yLabel), ("sort-by", .value .sortBy),
  ("width", .value .width), ("height", .value .height), ("header", .flag .header),
  ("no-open", .flag .noOpen), ("help", .flag .help), ("version", .flag .version)]

/-- The short names. -/
def shortNames : List (Char × Flag) := [('h', .help), ('V', .version)]

/-- Why a command line gives no arguments to run with. Asking for the help or the version is one
    of the reasons. -/
inductive UsageError where
  | unknownArgument
  | tooManyValues
  | argumentConflict
  | invalidValue
  | valueValidation
  | missingRequiredArgument
  | displayHelp
  | displayVersion
  deriving DecidableEq, Repr

/-- The exit status after a usage error. -/
def UsageError.exitStatus : UsageError → Nat
  | .displayHelp | .displayVersion => 0
  | _ => 2

/-- What is wrong with a command line. -/
def UsageError.message : UsageError → String
  | .unknownArgument => "unexpected argument found"
  | .tooManyValues => "unexpected value for an argument that takes none"
  | .argumentConflict => "an argument cannot be used multiple times"
  | .invalidValue => "a value is missing or not one of the possible values"
  | .valueValidation => "a value is not a number"
  | .missingRequiredArgument => "the input was not provided"
  | .displayHelp => "the help was asked for"
  | .displayVersion => "the version was asked for"

/-- What a run is asked to do. -/
structure Arguments where
  input : String
  out : Option String
  svg : Option String
  pdf : Option String
  title : Option String
  xLabel : String
  yLabel : String
  sortBy : SortKey
  width : Float
  height : Float
  header : Bool
  noOpen : Bool

/-- The names of the sort keys. -/
def sortNames : List (String × SortKey) :=
  [("input", .input), ("label", .label), ("median", .median)]

/-- What has been read of a command line: each argument at most once. -/
structure Draft where
  input : Option String
  out : Option String
  svg : Option String
  pdf : Option String
  title : Option String
  xLabel : Option String
  yLabel : Option String
  sortBy : Option SortKey
  width : Option Float
  height : Option Float
  header : Bool
  noOpen : Bool

namespace Draft

/-- A command line of which nothing has been read. -/
def empty : Draft where
  input := none
  out := none
  svg := none
  pdf := none
  title := none
  xLabel := none
  yLabel := none
  sortBy := none
  width := none
  height := none
  header := false
  noOpen := false

/-! ## Values -/

/-- A path must not be empty. -/
def path (text : String) : Except UsageError String :=
  if text = "" then .error .invalidValue else .ok text

/-- A sort key is given by its name. -/
def sortKey (text : String) : Except UsageError SortKey :=
  match sortNames.lookup text with
  | some key => .ok key
  | none => .error .invalidValue

/-- A size is given by the text of a number. -/
def size (text : String) : Except UsageError Float :=
  match Number.read? text.toList with
  | some x => .ok x
  | none => .error .valueValidation

/-- The value for a place that must be free. A taken place is reported before a bad value. -/
def fill {α : Type} (place : Option α) (value : Except UsageError α) :
    Except UsageError (Option α) :=
  match place with
  | some _ => .error .argumentConflict
  | none => value.map some

/-- Gives an option its value. -/
def set (d : Draft) (option : ValueOption) (text : String) : Except UsageError Draft :=
  match option with
  | .out => (fill d.out (path text)).map fun v => { d with out := v }
  | .svg => (fill d.svg (path text)).map fun v => { d with svg := v }
  | .pdf => (fill d.pdf (path text)).map fun v => { d with pdf := v }
  | .title => (fill d.title (.ok text)).map fun v => { d with title := v }
  | .xLabel => (fill d.xLabel (.ok text)).map fun v => { d with xLabel := v }
  | .yLabel => (fill d.yLabel (.ok text)).map fun v => { d with yLabel := v }
  | .sortBy => (fill d.sortBy (sortKey text)).map fun v => { d with sortBy := v }
  | .width => (fill d.width (size text)).map fun v => { d with width := v }
  | .height => (fill d.height (size text)).map fun v => { d with height := v }

/-- Gives the input. -/
def setInput (d : Draft) (text : String) : Except UsageError Draft :=
  (fill d.input (path text)).map fun v => { d with input := v }

/-- Raises a flag. -/
def raise (d : Draft) : Flag → Except UsageError Draft
  | .header => if d.header then .error .argumentConflict else .ok { d with header := true }
  | .noOpen => if d.noOpen then .error .argumentConflict else .ok { d with noOpen := true }
  | .help => .error .displayHelp
  | .version => .error .displayVersion

/-- The arguments of a command line that has been read to its end. -/
def finish (d : Draft) : Except UsageError Arguments :=
  match d.input with
  | none => .error .missingRequiredArgument
  | some input => .ok {
      input
      out := d.out
      svg := d.svg
      pdf := d.pdf
      title := d.title
      xLabel := d.xLabel.getD defaultXLabel
      yLabel := d.yLabel.getD defaultYLabel
      sortBy := d.sortBy.getD .input
      width := d.width.getD (Float.ofNat defaultWidth)
      height := d.height.getD (Float.ofNat defaultHeight)
      header := d.header
      noOpen := d.noOpen }

end Draft

end LatencyPlot.Command
