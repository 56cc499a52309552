/-
  LatencyPlot.Archive.Inflate

  The blocks of compressed data: stored bytes, or symbols of two prefix codes
  for literals, lengths and distances. A copy that reaches back before the
  first byte finds zeros there.
-/
import LatencyPlot.Archive.Prefixes

namespace LatencyPlot.Archive

/-- A number of bits that must be there. -/
def take (bits : Bits) (n : Nat) : Except BlockError (Nat × Bits) :=
  match bits.number? n with
  | some r => .ok r
  | none => .error .incomplete

/-! ## Copies -/

/-- The least length of each length symbol from 257 on, with the number of its extra bits. -/
def lengthTable : List (Nat × Nat) := [
  (3, 0), (4, 0), (5, 0), (6, 0), (7, 0), (8, 0), (9, 0), (10, 0), (11, 1), (13, 1),
  (15, 1), (17, 1), (19, 2), (23, 2), (27, 2), (31, 2), (35, 3), (43, 3), (51, 3), (59, 3),
  (67, 4), (83, 4), (99, 4), (115, 4), (131, 5), (163, 5), (195, 5), (227, 5), (258, 0)]

/-- The least distance of each distance symbol, with the number of its extra bits. -/
def distanceTable : List (Nat × Nat) := [
  (1, 0), (2, 0), (3, 0), (4, 0), (5, 1), (7, 1), (9, 2), (13, 2), (17, 3), (25, 3),
  (33, 4), (49, 4), (65, 5), (97, 5), (129, 6), (193, 6), (257, 7), (385, 7), (513, 8),
  (769, 8), (1025, 9), (1537, 9), (2049, 10), (3073, 10), (4097, 11), (6145, 11),
  (8193, 12), (12289, 12), (16385, 13), (24577, 13)]

/-- The number that a symbol and its extra bits stand for. -/
def extended (table : List (Nat × Nat)) (symbol : Nat) (bits : Bits) :
    Except BlockError (Nat × Bits) :=
  match table[symbol]? with
  | none => .error .corrupt
  | some (least, extra) => do
    let (more, bits) ← take bits extra
    return (least + more, bits)

/-- Appends `length` bytes, each the one that stands `distance` before it. -/
def copy (out : Array UInt8) (distance : Nat) : Nat → Array UInt8
  | 0 => out
  | length + 1 =>
    let byte := if distance ≤ out.size then out[out.size - distance]?.getD 0 else 0
    copy (out.push byte) distance length

/-! ## Codes -/

/-- The two codes of a block. -/
structure Codes where
  literals : PrefixCode
  distances : PrefixCode

/-- The codes of blocks that do not bring their own. -/
def fixedCodes : Codes where
  literals := .ofLengths (List.replicate 144 8 ++ List.replicate 112 9 ++ List.replicate 24 7 ++
    List.replicate 8 8)
  distances := .ofLengths (List.replicate 32 5)

/-- The order in which the lengths for the code of lengths are given. -/
def lengthOrder : List Nat := [16, 17, 18, 0, 8, 7, 9, 6, 10, 5, 11, 4, 12, 3, 13, 2, 14, 1, 15]

/-- `n` numbers of three bits. -/
def triples (bits : Bits) : Nat → Except BlockError (List Nat × Bits)
  | 0 => .ok ([], bits)
  | n + 1 => do
    let (first, bits) ← take bits 3
    let (more, bits) ← triples bits n
    return (first :: more, bits)

/-- The lengths for the code of lengths, by symbol. -/
def codeLengths (given : List Nat) : List Nat :=
  (List.range 19).map fun symbol => ((lengthOrder.zip given).lookup symbol).getD 0

/-- What a symbol of the code of lengths adds to the lengths read so far, which are in reverse:
    a length, a run of the last one, or a run of zeros. -/
def lengthRun (lengths : List Nat) (symbol : Nat) (bits : Bits) :
    Except BlockError (List Nat × Bits) :=
  if symbol < 16 then .ok ([symbol], bits)
  else if symbol = 16 then
    match lengths with
    | [] => .error .corrupt
    | last :: _ => do
      let (more, bits) ← take bits 2
      return (List.replicate (3 + more) last, bits)
  else if symbol = 17 then do
    let (more, bits) ← take bits 3
    return (List.replicate (3 + more) 0, bits)
  else do
    let (more, bits) ← take bits 7
    return (List.replicate (11 + more) 0, bits)

/-- Reads lengths until there are `wanted`; each symbol adds at least one, so that `fuel` is enough
    if it is not below `wanted`. The lengths are in reverse. -/
def readLengths (code : PrefixCode) (wanted : Nat) : Nat → List Nat → Bits →
    Except BlockError (List Nat × Bits)
  | 0, _, _ => .error .corrupt
  | fuel + 1, lengths, bits =>
    if lengths.length = wanted then .ok (lengths, bits)
    else if wanted < lengths.length then .error .corrupt
    else do
      let (symbol, bits) ← code.symbol bits
      let (run, bits) ← lengthRun lengths symbol bits
      readLengths code wanted fuel (run ++ lengths) bits

/-- A code that a block brings with it. It must be complete, unless it has one symbol at most, with
    a code of one bit. -/
def ownCode (lengths : List Nat) : Except BlockError PrefixCode :=
  let code := PrefixCode.ofLengths lengths
  if code.isComplete || (code.counts.length = 1 && code.symbols.size ≤ 1) then .ok code else .error .corrupt

/-- The codes that a block brings with it. -/
def readCodes (bits : Bits) : Except BlockError (Codes × Bits) := do
  let (l, bits) ← take bits 5
  let (d, bits) ← take bits 5
  let (c, bits) ← take bits 4
  let (literals, distances) := (l + 257, d + 1)
  if 286 < literals ∨ 30 < distances then .error .corrupt
  else
    let (given, bits) ← triples bits (c + 4)
    let code := PrefixCode.ofLengths (codeLengths given)
    if !code.isComplete then .error .corrupt
    else
      let wanted := literals + distances
      let (reversed, bits) ← readLengths code wanted (wanted + 1) [] bits
      let lengths := reversed.reverse
      let literalCode ← ownCode (lengths.take literals)
      let distanceCode ← ownCode (lengths.drop literals)
      return (⟨literalCode, distanceCode⟩, bits)

/-! ## Blocks -/

/-- The symbols of a block up to its end symbol. Each takes a bit or more, so that `fuel` is enough
    if it is above the number of bits. -/
def symbols (codes : Codes) : Nat → Array UInt8 → Bits → Except BlockError (Array UInt8 × Bits)
  | 0, _, _ => .error .corrupt
  | fuel + 1, out, bits => do
    let (symbol, bits) ← codes.literals.symbol bits
    if symbol < 256 then symbols codes fuel (out.push symbol.toUInt8) bits
    else if symbol = 256 then return (out, bits)
    else
      let (length, bits) ← extended lengthTable (symbol - 257) bits
      let (symbol, bits) ← codes.distances.symbol bits
      let (distance, bits) ← extended distanceTable symbol bits
      symbols codes fuel (copy out distance length) bits

/-- A stored block: its length, the complement of the length, and its bytes. -/
def stored (out : Array UInt8) : List UInt8 → Except BlockError (Array UInt8 × Bits)
  | a :: b :: c :: d :: rest =>
    let length := a.toNat + 256 * b.toNat
    if length + (c.toNat + 256 * d.toNat) ≠ 65535 then .error .corrupt
    else if rest.length < length then .error .incomplete
    else .ok (out ++ (rest.take length).toArray, .ofBytes (rest.drop length))
  | _ => .error .incomplete

/-- The content of one block after its first bit. -/
def block (out : Array UInt8) (bits : Bits) : Except BlockError (Array UInt8 × Bits) := do
  let (kind, bits) ← take bits 2
  if kind = 0 then stored out bits.align
  else if kind = 1 then symbols fixedCodes (bits.size + 1) out bits
  else if kind = 2 then
    let (codes, bits) ← readCodes bits
    symbols codes (bits.size + 1) out bits
  else .error .corrupt

/-- Blocks up to the one that says it is the last. -/
def blocks : Nat → Array UInt8 → Bits → Except BlockError (Array UInt8 × Bits)
  | 0, _, _ => .error .corrupt
  | fuel + 1, out, bits => do
    let (last, bits) ← take bits 1
    let (out, bits) ← block out bits
    if last = 1 then return (out, bits) else blocks fuel out bits

/-- The content of compressed data, and the bytes after it. -/
def inflate (bytes : List UInt8) : Except BlockError (List UInt8 × List UInt8) := do
  let bits := Bits.ofBytes bytes
  let (out, bits) ← blocks (bits.size + 1) #[] bits
  return (out.toList, bits.align)

end LatencyPlot.Archive
