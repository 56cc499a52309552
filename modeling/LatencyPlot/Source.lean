/-
  LatencyPlot.Source

  The input of a plot: a plain file, or a compressed one, which its extension
  or its first two bytes tell. Its bytes are those of the file, or the content
  of the compressed file.
-/
import LatencyPlot.Archive.Gzip
import LatencyPlot.Path
import LatencyPlot.Storage.Store
import LatencyPlot.Table.Reader

namespace LatencyPlot

open Storage

/-- How an input is stored. -/
inductive SourceKind where
  | plain
  | compressed
  deriving DecidableEq, Repr

/-- Why an input cannot be opened. -/
inductive OpenError where
  | cannotOpen (path : String) (cause : StorageError)
  | cannotDetect (cause : StorageError)
  deriving DecidableEq, Repr

/-- The messages of an error, the cause last. -/
def OpenError.messages : OpenError → List String
  | .cannotOpen path cause => ["failed to open " ++ path, cause.message]
  | .cannotDetect cause => ["failed to read magic bytes", cause.message]

/-- Why the bytes of an open input cannot be read. -/
inductive StreamError where
  | storage (cause : StorageError)
  | archive (cause : Archive.GzipError)
  | notText
  deriving DecidableEq, Repr

/-- The message of an error. -/
def StreamError.message : StreamError → String
  | .storage cause => cause.message
  | .archive cause => cause.message
  | .notText => "stream did not contain valid UTF-8"

namespace Source

/-- How the input at `path` is stored. A name with the extension of a compressed file is enough to
    know; else the file has to be read. -/
def detect (path : String) (file : Except AccessError (List UInt8)) :
    Except OpenError SourceKind :=
  if Path.isCompressed path.toList then .ok .compressed
  else match file with
    | .error (.opening e) => .error (.cannotOpen path e)
    | .error (.reading e) => .error (.cannotDetect e)
    | .ok bytes => .ok (if Archive.Gzip.isMagic bytes then .compressed else .plain)

/-- The bytes of an open input of some kind. -/
def bytes (kind : SourceKind) (content : List UInt8) : Except StreamError (List UInt8) :=
  match kind with
  | .plain => .ok content
  | .compressed => (Archive.Gzip.decode content).mapError .archive

/-- Opens the input at `path`, then reads it to its end. -/
def read (path : String) (file : Except AccessError (List UInt8)) :
    Except OpenError (Except StreamError (List UInt8)) := do
  let kind ← detect path file
  match file with
  | .error (.opening e) => .error (.cannotOpen path e)
  | .error (.reading e) => return .error (.storage e)
  | .ok content => return bytes kind content

end Source

/-! ## Records of an input -/

/-- Why an input holds no records. -/
inductive ReadError where
  | stream (cause : StreamError)
  | row (cause : Table.RowError)
  deriving DecidableEq, Repr

/-- The messages of an error, the cause last. -/
def ReadError.messages : ReadError → List String
  | .stream cause => ["failed to read input: " ++ cause.message, cause.message]
  | .row cause => [cause.message]

/-- The message of an error. -/
def ReadError.message (e : ReadError) : String := e.messages.headD ""

/-- The records in a stream of bytes, which must be a text in UTF-8. -/
def readRecords (header : Bool) (stream : Except StreamError (List UInt8)) :
    Except ReadError (List (Record Float)) :=
  match stream with
  | .error e => .error (.stream e)
  | .ok bytes =>
    match String.fromUTF8? (ByteArray.mk bytes.toArray) with
    | none => .error (.stream .notText)
    | some text => (Table.read header text).mapError .row

end LatencyPlot
