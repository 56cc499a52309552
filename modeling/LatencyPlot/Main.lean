/-
  LatencyPlot.Main

  The command line program: the system that it runs on is the one around it.
-/
import LatencyPlot.Command.Help
import LatencyPlot.Command.Line
import LatencyPlot.Run.Session

namespace LatencyPlot.Main

open Storage

/-- What an error of the system is in the words of the store. -/
def storageError (e : IO.Error) : StorageError :=
  match e with
  | .noFileOrDirectory .. => .notFound
  | .noSuchThing .. => .notFound
  | .inappropriateType _ code _ =>
    if code = 20 then .notDirectory else if code = 21 then .isDirectory else .refused (toString e)
  | .invalidArgument _ code _ =>
    if code = 20 then .notDirectory
    else if code = 36 then .nameTooLong else .refused (toString e)
  | .permissionDenied .. => .refused "Permission denied (os error 13)"
  | .resourceExhausted _ code _ =>
    if code = 28 then .refused "No space left on device (os error 28)" else .refused (toString e)
  | _ => .refused (toString e)

/-- The result of an action, or why the system refused it. -/
def attempt {α : Type} (action : IO α) : IO (Except StorageError α) := do
  try
    return .ok (← action)
  catch e =>
    return .error (storageError e)

/-- Whether a path leads to an entry that `p` holds for. -/
def hasType (path : String) (p : IO.FS.FileType → Bool) : IO Bool := do
  try
    let metadata ← (← IO.FS.realPath path).metadata
    return p metadata.type
  catch _ =>
    return false

/-- The files, the streams and the clock of the system. It has no desktop, and so no program to show
    a page with, and no converter. -/
instance : Host IO where
  Handle := IO.FS.Handle
  isFile path := hasType path (· matches .file)
  read path := do
    if ← hasType path (· matches .dir) then return .error (.reading .isDirectory)
    match ← attempt (IO.FS.readBinFile path) with
    | .ok content => return .ok content.toList
    | .error e => return .error (.opening e)
  create path := attempt (IO.FS.Handle.mk path .write)
  write file content := attempt do
    file.write (ByteArray.mk content.toArray)
    file.flush
  size path := do
    try
      let metadata ← (← IO.FS.realPath path).metadata
      return metadata.byteSize.toNat
    catch _ =>
      return 0
  convert _ := return .error (.failed "there is no converter")
  launch _ := return .error .notFound
  print line := IO.println line
  notify notice := IO.eprintln notice.text
  clock := IO.monoNanosNow

end LatencyPlot.Main

open LatencyPlot in
/-- Runs with the words of the command line. -/
def main (words : List String) : IO UInt32 := do
  match Command.parse words with
  | .error .displayHelp =>
    IO.print Command.helpText
    return 0
  | .error .displayVersion =>
    IO.print Command.versionText
    return 0
  | .error e =>
    IO.eprintln ("error: " ++ e.message ++ "\n\n" ++ Command.helpHint)
    return e.exitStatus.toUInt32
  | .ok arguments =>
    let stats := wantsStatistics (← IO.getEnv "LATPLOT_STATS")
    let result ← run stats arguments
    if let .error failure := result then
      IO.eprint failure.report
    return exitStatus result
