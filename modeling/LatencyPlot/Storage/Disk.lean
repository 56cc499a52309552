/-
  LatencyPlot.Storage.Disk

  A store on a disk that may fail. A file is made first, or emptied if it is
  there, and written then; either step can go wrong for reasons that no path
  tells, and a write that goes wrong leaves what was written by then.
-/
import LatencyPlot.Storage.Store

namespace LatencyPlot.Storage

/-- Something that goes wrong with a step on a file. -/
structure Fault where
  /-- How many bytes are written before it does. -/
  after : Nat
  cause : StorageError
  deriving DecidableEq, Repr

/-- A store, and what will go wrong with it. -/
structure Disk where
  store : Store
  /-- What goes wrong with each of the next steps, if anything does. -/
  faults : Nat → Option Fault

namespace Disk

/-- The disk before the step after the next one. -/
def next (d : Disk) : Disk := { d with faults := fun n => d.faults (n + 1) }

/-- Makes or empties a file and opens it for writing. A disk that refuses to is left as it was. -/
def create (path : String) (d : Disk) : Except StorageError Location × Disk :=
  match d.faults 0, d.store.create path with
  | some fault, _ => (.error fault.cause, d.next)
  | none, .error e => (.error e, d.next)
  | none, .ok (location, store) => (.ok location, { d.next with store })

/-- Writes bytes to an open file, or as many of them as it can. -/
def write (location : Location) (content : List UInt8) (d : Disk) :
    Except StorageError Unit × Disk :=
  match d.faults 0 with
  | some fault =>
    (.error fault.cause, { d.next with store := d.store.fill location (content.take fault.after) })
  | none => (.ok (), { d.next with store := d.store.fill location content })

end Disk

end LatencyPlot.Storage
