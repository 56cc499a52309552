/-
  LatencyPlot.Archive.Crc

  The cyclic redundancy check of 32 bits that compressed files end in.
-/

namespace LatencyPlot.Archive

/-- One bit of the check: a shift, and the polynomial if a one fell out. -/
def crcBit (c : UInt32) : UInt32 :=
  if c &&& 1 = 1 then (c >>> 1) ^^^ 0xEDB88320 else c >>> 1

/-- One byte of the check. -/
def crcByte (c : UInt32) (b : UInt8) : UInt32 :=
  Nat.repeat crcBit 8 (c ^^^ b.toUInt32)

/-- The check of some bytes. -/
def crc (bytes : List UInt8) : UInt32 :=
  bytes.foldl crcByte 0xFFFFFFFF ^^^ 0xFFFFFFFF

end LatencyPlot.Archive
