/-
  LatencyPlot.Archive.Bits

  Bytes read bit by bit, the lowest bit of a byte first.
-/

namespace LatencyPlot.Archive

/-- What is left to read: bits of a byte that has been begun, then whole bytes. -/
structure Bits where
  begun : List Bool
  rest : List UInt8

namespace Bits

/-- All bits of some bytes. -/
def ofBytes (bytes : List UInt8) : Bits := ⟨[], bytes⟩

/-- The bits of a byte, the lowest one first. -/
def ofByte (b : UInt8) : List Bool := (List.range 8).map fun i => b.toNat.testBit i

/-- The next bit. -/
def next? (s : Bits) : Option (Bool × Bits) :=
  match s.begun with
  | b :: begun => some (b, ⟨begun, s.rest⟩)
  | [] =>
    match s.rest with
    | [] => none
    | byte :: rest => some (byte.toNat.testBit 0, ⟨(ofByte byte).tail, rest⟩)

/-- The number in the next `n` bits, the lowest one first. -/
def number? (s : Bits) : Nat → Option (Nat × Bits)
  | 0 => some (0, s)
  | n + 1 => do
    let (b, s) ← s.next?
    let (high, s) ← s.number? n
    return (b.toNat + 2 * high, s)

/-- The bytes after the one that has been begun. -/
def align (s : Bits) : List UInt8 := s.rest

/-- How many bits are left. -/
def size (s : Bits) : Nat := s.begun.length + 8 * s.rest.length

end Bits

end LatencyPlot.Archive
