/-
  LatencyPlot.Archive.Gzip

  Compressed files: one or more members, each a header, compressed data and a
  trailer with the check and the length of its content. The content of a file
  is that of its members, one after the other.
-/
import LatencyPlot.Archive.Crc
import LatencyPlot.Archive.Inflate

namespace LatencyPlot.Archive

/-- Why a compressed file cannot be read. -/
inductive GzipError where
  /-- A member does not begin with a header that is understood. -/
  | badHeader
  /-- The file ends inside a header or a trailer. -/
  | endOfFile
  /-- A text in a header has more bytes than it may have. -/
  | longField
  /-- A check or a length is not that of the data. -/
  | badChecksum
  /-- The compressed data have no meaning. -/
  | corruptData
  /-- The compressed data end too early. -/
  | incompleteData
  deriving DecidableEq, Repr

/-- The message of an error. -/
def GzipError.message : GzipError → String
  | .badHeader => "invalid gzip header"
  | .endOfFile => "unexpected end of file"
  | .longField => "gzip header field too long"
  | .badChecksum => "corrupt gzip stream does not have a matching checksum"
  | .corruptData => "corrupt deflate stream"
  | .incompleteData => "incomplete deflate stream"

/-- What compressed data that cannot be read say about the file. -/
def GzipError.ofBlock : BlockError → GzipError
  | .corrupt => .corruptData
  | .incomplete => .incompleteData

namespace Gzip

/-- The two bytes that a member begins with. -/
def isMagic : List UInt8 → Bool
  | a :: b :: _ => a == 0x1F && b == 0x8B
  | _ => false

/-! ## Header -/

/-- The bytes after a field whose length stands before it, if bit `flag` says it is there. -/
def skipExtra (flags : Nat) (bytes : List UInt8) : Except GzipError (List UInt8) :=
  if !flags.testBit 2 then .ok bytes
  else match bytes with
    | a :: b :: rest =>
      let length := a.toNat + 256 * b.toNat
      if rest.length < length then .error .endOfFile else .ok (rest.drop length)
    | _ => .error .endOfFile

/-- The greatest number of bytes in a text of a header. -/
def maxText : Nat := 65535

/-- The bytes after a text that a zero ends, if bit `flag` says it is there. -/
def skipText (flags flag : Nat) (bytes : List UInt8) : Except GzipError (List UInt8) :=
  if !flags.testBit flag then .ok bytes
  else if maxText < (bytes.takeWhile (· != 0)).length then .error .longField
  else match bytes.dropWhile (· != 0) with
    | [] => .error .endOfFile
    | _ :: rest => .ok rest

/-- The bytes after the check of the header, if bit 1 says it is there. It covers the part of
    `whole` that has been read. -/
def skipCheck (flags : Nat) (whole bytes : List UInt8) : Except GzipError (List UInt8) :=
  if !flags.testBit 1 then .ok bytes
  else match bytes with
    | a :: b :: rest =>
      let read := whole.take (whole.length - bytes.length)
      if (crc read).toNat % 65536 = a.toNat + 256 * b.toNat then .ok rest
      else .error .badChecksum
    | _ => .error .endOfFile

/-- The bytes after the header of a member. -/
def skipHeader (whole : List UInt8) : Except GzipError (List UInt8) :=
  match whole with
  | a :: b :: method :: flags :: _ :: _ :: _ :: _ :: _ :: _ :: rest =>
    let flags := flags.toNat
    if !isMagic [a, b] || method != 8 || 32 ≤ flags then .error .badHeader
    else do
      let rest ← skipExtra flags rest
      let rest ← skipText flags 3 rest
      let rest ← skipText flags 4 rest
      skipCheck flags whole rest
  | _ => .error .endOfFile

/-! ## Members -/

/-- The number in four bytes, the lowest one first. -/
def word (a b c d : UInt8) : Nat :=
  a.toNat + 256 * (b.toNat + 256 * (c.toNat + 256 * d.toNat))

/-- The content of the first member, and the bytes after it. -/
def member (bytes : List UInt8) : Except GzipError (List UInt8 × List UInt8) := do
  let data ← skipHeader bytes
  let (content, rest) ← (inflate data).mapError GzipError.ofBlock
  match rest with
  | a :: b :: c :: d :: e :: f :: g :: h :: rest =>
    if word a b c d = (crc content).toNat ∧ word e f g h = content.length % 0x100000000 then
      return (content, rest)
    else .error .badChecksum
  | _ => .error .endOfFile

/-- The contents of members up to the end of the file. Each takes a byte or more, so that `fuel` is
    enough if it is above the number of bytes. -/
def members : Nat → List UInt8 → Except GzipError (List UInt8)
  | 0, _ => .error .endOfFile
  | fuel + 1, bytes => do
    let (content, rest) ← member bytes
    if rest = [] then return content
    else
      let more ← members fuel rest
      return content ++ more

/-- The content of a compressed file. -/
def decode (bytes : List UInt8) : Except GzipError (List UInt8) :=
  members (bytes.length + 1) bytes

end Gzip

end LatencyPlot.Archive
