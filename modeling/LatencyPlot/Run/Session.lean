/-
  LatencyPlot.Run.Session

  A run from its arguments to the page: it reads and checks everything before
  it writes, then writes the page, the drawing and the portable document, and
  last shows the page or prints its path. The first failure ends it.
-/
import LatencyPlot.Command.Arguments
import LatencyPlot.Page
import LatencyPlot.Plot.Drawing
import LatencyPlot.Run.Failure
import LatencyPlot.Run.Host

namespace LatencyPlot

open Command (Arguments)

/-- The plot that a run makes. -/
structure Figure where
  title : String
  style : Style Float
  records : List (Record Float)
  bounds : Bounds Float
  /-- The text of the drawing. -/
  drawing : String

namespace Session

/-! ## Pure parts -/

/-- The title that a run gives its plot. -/
def titleOf (a : Arguments) : String := a.title.getD (Path.defaultTitle a.input)

/-- The path of the page that a run writes. -/
def pageOf (a : Arguments) : String := a.out.getD (Path.defaultPage a.input)

/-- The style that a run gives its plot. -/
def styleOf (a : Arguments) : Style Float :=
  { width := a.width, height := a.height, title := titleOf a, xLabel := a.xLabel,
    yLabel := a.yLabel }

/-- The plot of records in some order, with their bounds. -/
def figureOf (a : Arguments) (records : List (Record Float)) (bounds : Bounds Float) : Figure :=
  { title := titleOf a, style := styleOf a, records, bounds
    drawing := renderPlot records bounds (styleOf a) }

/-- The page around a plot. -/
def pageText (a : Arguments) (figure : Figure) : String :=
  Page.render { title := figure.title, source := a.input, plot := figure.drawing,
                records := figure.records, bounds := figure.bounds }

/-- Whether a plot has a size that it can be drawn with. -/
def hasSize (a : Arguments) : Bool := a.width > 0.0 && a.height > 0.0

/-- The records of an input from the answer of the file system. -/
def recordsOf (a : Arguments) (file : Except Storage.AccessError (List UInt8)) :
    Except Failure (List (Record Float)) :=
  match Source.read a.input file with
  | .error e => .error (.cannotOpen e)
  | .ok stream => (readRecords a.header stream).mapError (.cannotParse a.input)

/-- The bounds of the records. -/
def boundsOf (a : Arguments) (records : List (Record Float)) : Except Failure (Bounds Float) :=
  (Bounds.ofRecords records).mapError (.nothingToPlot a.input)

/-! ## Stages -/

variable {m : Type → Type} [Monad m] [Host m]

/-- Goes on with a result, or fails with it. -/
def settle {α : Type} (result : Except Failure α) : ExceptT Failure m α := ExceptT.mk (pure result)

/-- Writes a line of the statistics, if they are asked for. -/
def record (stats : Bool) (statistic : ExceptT Failure m Statistic) : ExceptT Failure m Unit :=
  if stats then do Host.notify (.statistic (← statistic)) else pure ()

/-- The time since the clock showed `start`. -/
def since (start : Nat) : ExceptT Failure m Duration := do
  return Duration.ofNanos ((← Host.clock) - start)

/-- Records the end of a stage that began when the clock showed `start`. -/
def stageEnd (stats : Bool) (stage : Stage) (start : Nat) : ExceptT Failure m Unit :=
  record stats do return .stage stage (← since start)

/-- Checks that there is an input, and a size to draw it with. -/
def check (a : Arguments) : ExceptT Failure m (Except Failure Unit) := do
  if !(← Host.isFile a.input) then return .error (.inputNotFound a.input)
  else if !hasSize a then return .error .badSize
  else return .ok ()

/-- The stage before any work; its end is recorded even if it fails. -/
def preflight (stats : Bool) (a : Arguments) : ExceptT Failure m Unit := do
  let start ← Host.clock
  let checked ← check a
  stageEnd stats .preflight start
  settle checked

/-- Reads the records, and warns about those that are out of order. -/
def load (stats : Bool) (a : Arguments) : ExceptT Failure m (List (Record Float)) := do
  let start ← Host.clock
  let file ← Host.read a.input
  let records ← settle (recordsOf a file)
  stageEnd stats .parse start
  record stats (pure (.input a.input records.length))
  (warnings records).forM fun text => Host.notify (.warning text)
  return records

/-- Draws the records in the order that is asked for. -/
def plot (stats : Bool) (a : Arguments) (records : List (Record Float)) :
    ExceptT Failure m Figure := do
  let sorted := sortRecords a.sortBy records
  let start ← Host.clock
  let bounds ← settle (boundsOf a sorted)
  stageEnd stats .axis start
  let start ← Host.clock
  let figure := figureOf a sorted bounds
  stageEnd stats .render start
  return figure

/-- Writes a file. That it cannot be opened has a failure of its own. -/
def save (unopened : Storage.StorageError → Failure) (path : String) (content : List UInt8) :
    ExceptT Failure m Unit := do
  let opened ← Host.create path
  let file ← settle (opened.mapError unopened)
  let written ← Host.write file content
  settle (written.mapError (.cannotWrite path))

/-- Records the end of a stage that has written a file, and the size of the file. -/
def outputEnd (stats : Bool) (stage : Stage) (path : String) (start : Nat) :
    ExceptT Failure m Unit := do
  stageEnd stats stage start
  record stats do return .output stage path (← Host.size path)

/-- Writes the page. -/
def writePage (stats : Bool) (a : Arguments) (figure : Figure) : ExceptT Failure m Unit := do
  let path := pageOf a
  let start ← Host.clock
  save (.cannotCreatePage path) path (pageText a figure).toUTF8.toList
  outputEnd stats .html path start

/-- Writes the drawing, if a path is given for it. -/
def writeDrawing (stats : Bool) (a : Arguments) (figure : Figure) : ExceptT Failure m Unit :=
  match a.svg with
  | none => pure ()
  | some path => do
    let start ← Host.clock
    save (.cannotWrite path) path figure.drawing.toUTF8.toList
    outputEnd stats .svg path start

/-- Writes the portable document, if a path is given for it and the plot can be made one. -/
def writePortable (stats : Bool) (a : Arguments) (figure : Figure) : ExceptT Failure m Unit :=
  match a.pdf with
  | none => pure ()
  | some path => do
    let start ← Host.clock
    let converted ← Host.convert figure.drawing
    let content ← settle (converted.mapError (.cannotConvert path))
    save (.cannotWrite path) path content
    outputEnd stats .pdf path start

/-- Shows the page, or prints its path. -/
def present (stats : Bool) (a : Arguments) : ExceptT Failure m Unit :=
  let path := pageOf a
  if a.noOpen then Host.print path
  else do
    let start ← Host.clock
    let launched ← Host.launch (viewer path)
    settle (launched.mapError (.cannotLaunch path))
    stageEnd stats .viewer start

/-- The whole run. -/
def stages (stats : Bool) (a : Arguments) : ExceptT Failure m Unit := do
  let start ← Host.clock
  preflight stats a
  let records ← load stats a
  let figure ← plot stats a records
  writePage stats a figure
  writeDrawing stats a figure
  writePortable stats a figure
  present stats a
  record stats do return .total (← since start)

end Session

/-- Runs with some arguments, with or without statistics. -/
def run {m : Type → Type} [Monad m] [Host m] (stats : Bool) (a : Arguments) :
    m (Except Failure Unit) :=
  (Session.stages stats a).run

end LatencyPlot
