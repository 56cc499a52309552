/-
  LatencyPlot.Archive.Prefixes

  Canonical prefix codes. The lengths of the codes of all symbols fix the code:
  codes of one length are consecutive numbers, shorter ones come first, and
  symbols of one length are in order.
-/
import LatencyPlot.Archive.Bits

namespace LatencyPlot.Archive

/-- Why a compressed block cannot be read. -/
inductive BlockError where
  /-- It holds something that has no meaning. -/
  | corrupt
  /-- It ends too early. -/
  | incomplete
  deriving DecidableEq, Repr

/-- A canonical code: the number of codes of each length from 1 to the greatest one, and the
    symbols in the order of their codes. -/
structure PrefixCode where
  counts : List Nat
  symbols : Array Nat

namespace PrefixCode

/-- The code with the given lengths, 0 for a symbol that has none. A code without symbols counts as
    one of a single bit. -/
def ofLengths (lengths : List Nat) : PrefixCode :=
  let indexed := lengths.zipIdx
  let longest := lengths.foldl max 1
  { counts := (List.range longest).map fun i => lengths.count (i + 1)
    symbols := ((List.range longest).flatMap fun i =>
      (indexed.filter fun (length, _) => length == i + 1).map Prod.snd).toArray }

/-- Twice the number of sequences, as long as the longest code, that begin with a code. -/
def share (code : PrefixCode) : Nat := code.counts.foldl (fun n count => 2 * (n + count)) 0

/-- Whether every sequence of bits begins with exactly one code. -/
def isComplete (code : PrefixCode) : Bool := code.share == Nat.pow 2 (code.counts.length + 1)

/-- The symbol whose code the bits begin with. `word` holds the bits read so far, `first` is the
    first code of the length that is next, and `index` counts the shorter codes. Bits that no code
    begins with have no meaning. -/
def symbolFrom (symbols : Array Nat) : List Nat → Nat → Nat → Nat → Bits →
    Except BlockError (Nat × Bits)
  | [], _, _, _, _ => .error .corrupt
  | count :: counts, word, first, index, bits =>
    match bits.next? with
    | none => .error .incomplete
    | some (b, bits) =>
      let word := 2 * word + b.toNat
      if word < first + count then
        match symbols[index + (word - first)]? with
        | some symbol => .ok (symbol, bits)
        | none => .error .corrupt
      else symbolFrom symbols counts word (2 * (first + count)) (index + count) bits

/-- The symbol whose code the bits begin with, and the bits after it. -/
def symbol (code : PrefixCode) (bits : Bits) : Except BlockError (Nat × Bits) :=
  symbolFrom code.symbols code.counts 0 0 0 bits

end PrefixCode

end LatencyPlot.Archive
