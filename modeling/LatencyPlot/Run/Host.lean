/-
  LatencyPlot.Run.Host

  What a run asks of the system around it, and a system that is all there to
  see: a disk, a converter, a clock and perhaps a viewer. A machine with such a
  system answers from it, and keeps a record of what it was asked to do.
-/
import LatencyPlot.Plot.Portable
import LatencyPlot.Run.Notice
import LatencyPlot.Storage.Disk

namespace LatencyPlot

open Portable (ConversionError Converter)
open Storage

/-- A program to start, with its arguments. -/
structure Program where
  name : String
  arguments : List String
  deriving DecidableEq, Repr

/-- A text as an argument of a program. An argument cannot hold a NUL; another text stands for one
    that does. -/
def argument (text : String) : String :=
  if text.toList.contains '\x00' then "<string-with-nul>" else text

/-- The program that shows a page with whatever the desktop shows pages with. -/
def viewer (page : String) : Program := ⟨"xdg-open", [argument page]⟩

/-- The system around a run. -/
class Host (m : Type → Type) where
  /-- A file that is open for writing. -/
  Handle : Type
  /-- Whether a path leads to a file. -/
  isFile : String → m Bool
  /-- The content of a file. -/
  read : String → m (Except AccessError (List UInt8))
  /-- Makes a file, or empties the one that is there, and opens it for writing. -/
  create : String → m (Except StorageError Handle)
  /-- Writes to an open file that is empty. What fails may have written some of it. -/
  write : Handle → List UInt8 → m (Except StorageError Unit)
  /-- The number of bytes of a file, 0 if it has none. -/
  size : String → m Nat
  /-- Makes the text of a drawing a portable document. -/
  convert : String → m (Except ConversionError (List UInt8))
  /-- Starts a program, and does not wait for it. -/
  launch : Program → m (Except StorageError Unit)
  /-- Prints a line of the result. -/
  print : String → m Unit
  /-- Writes a line to the log. -/
  notify : Notice → m Unit
  /-- The time on a clock, in nanoseconds. -/
  clock : m Nat

/-- A computation that may fail asks the system as one that may not. -/
instance {ε : Type} {m : Type → Type} [Monad m] [Host m] : Host (ExceptT ε m) where
  Handle := Host.Handle m
  isFile path := ExceptT.lift (Host.isFile path)
  read path := ExceptT.lift (Host.read path)
  create path := ExceptT.lift (Host.create path)
  write file content := ExceptT.lift (Host.write file content)
  size path := ExceptT.lift (Host.size path)
  convert drawing := ExceptT.lift (Host.convert drawing)
  launch program := ExceptT.lift (Host.launch program)
  print line := ExceptT.lift (Host.print line)
  notify notice := ExceptT.lift (Host.notify notice)
  clock := ExceptT.lift Host.clock

/-- What a run finds around it. -/
structure System extends Disk where
  /-- Whether there is a program to show pages with. -/
  hasViewer : Bool
  converter : Converter
  /-- What the clock shows, each time that it is looked at. -/
  times : Nat → Nat

/-- A system with a store on which nothing goes wrong. -/
def System.ofStore (store : Store) (hasViewer : Bool) : System where
  store := store
  faults _ := none
  hasViewer := hasViewer
  converter := Portable.standIn
  times _ := 0

/-- A system, and what it was asked to do, the latest thing first. -/
structure Machine extends System where
  printed : List String
  noticed : List Notice
  launched : List Program

namespace Machine

/-- A machine that has done nothing yet. -/
def ofSystem (system : System) : Machine :=
  { toSystem := system, printed := [], noticed := [], launched := [] }

/-- A machine with a store on which nothing goes wrong, that has done nothing yet. -/
def ofStore (store : Store) (hasViewer : Bool) : Machine := ofSystem (.ofStore store hasViewer)

/-- Does a step on the disk. -/
def onDisk {α : Type} (step : Disk → α × Disk) (machine : Machine) : α × Machine :=
  let (answer, disk) := step machine.toDisk
  (answer, { machine with toDisk := disk })

/-- The number of bytes of a file. -/
def size (path : String) (machine : Machine) : Nat :=
  match machine.store.read path with
  | .ok content => content.length
  | .error _ => 0

/-- The machine after it starts a program; without a viewer there is none to start. -/
def launch (program : Program) (machine : Machine) : Except StorageError Unit × Machine :=
  if machine.hasViewer then (.ok (), { machine with launched := program :: machine.launched })
  else (.error .notFound, machine)

/-- Looks at the clock. -/
def look (machine : Machine) : Nat × Machine :=
  (machine.times 0, { machine with times := fun n => machine.times (n + 1) })

end Machine

instance : Host (StateM Machine) where
  Handle := Location
  isFile path := fun machine => (machine.store.isFile path, machine)
  read path := fun machine => (machine.store.read path, machine)
  create path := Machine.onDisk (Disk.create path)
  write location content := Machine.onDisk (Disk.write location content)
  size path := fun machine => (machine.size path, machine)
  convert drawing := fun machine => (machine.converter drawing, machine)
  launch program := Machine.launch program
  print line := fun machine => ((), { machine with printed := line :: machine.printed })
  notify notice := fun machine => ((), { machine with noticed := notice :: machine.noticed })
  clock := Machine.look

end LatencyPlot
