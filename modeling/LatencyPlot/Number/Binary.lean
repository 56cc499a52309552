/-
  LatencyPlot.Number.Binary

  Doubles by their 64 bits, and the total order on them. The bits tell apart
  what arithmetic does not: the signs of what is not a number. In the order
  minus zero comes before zero, and what is not a number comes first or last,
  by its sign.
-/

namespace LatencyPlot.Number

/-- A double, by its bits: a sign, an exponent and a fraction. -/
structure Binary where
  bits : UInt64
  deriving DecidableEq, Repr

namespace Binary

/-- The bits of a double. -/
def ofFloat (x : Float) : Binary := ⟨x.toBits⟩

/-- The double with these bits. -/
def toFloat (b : Binary) : Float := Float.ofBits b.bits

/-- The bit of the sign. -/
def signBit : UInt64 := 0x8000000000000000

/-- The double with the other sign. -/
def negate (b : Binary) : Binary := ⟨b.bits ^^^ signBit⟩

/-- The place in the total order. A set sign bit puts a double below zero and turns the order of
    the other bits around. -/
def rank (b : Binary) : Int :=
  let n := b.bits.toNat
  if n < 0x8000000000000000 then n else (0x7FFFFFFFFFFFFFFF : Int) - n

/-- Each double has a place of its own. -/
theorem rank_inj {a b : Binary} (h : a.rank = b.rank) : a = b := by
  have ha : a.bits.toNat < 18446744073709551616 := a.bits.toNat_lt
  have hb : b.bits.toNat < 18446744073709551616 := b.bits.toNat_lt
  have hbits : a.bits.toNat = b.bits.toNat := by
    simp only [rank] at h
    -- The places of the two signs do not meet: one side is below zero, the other is not.
    split at h <;> split at h <;> omega
  cases a
  cases b
  exact congrArg Binary.mk (UInt64.toNat_inj.1 hbits)

end Binary

/-- Numbers that have a place in a total order. -/
class Ranked (α : Type) where
  rank : α → Int

instance : Ranked Binary := ⟨Binary.rank⟩

instance : Ranked Float := ⟨fun x => (Binary.ofFloat x).rank⟩

end LatencyPlot.Number
