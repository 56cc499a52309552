/-
  LatencyPlot.Number.Decade

  The power of ten at or below a number. Of a fraction it is found from the
  number of digits. Of a double it is what the logarithm and the power function
  of doubles give: the logarithm is rounded before its floor is taken, so that
  a double very close below a power of ten counts as that power.
-/
import LatencyPlot.Number.Exact
import LatencyPlot.Number.Reader

namespace LatencyPlot.Number

/-! ## Fractions -/

/-- The exponent of the power of ten at or below a positive fraction, from the number of digits of
    its integer part, or of its inverse. -/
def decadeExponent (q : Rat) : Int :=
  if 1 ≤ q then ((Nat.toDigits 10 q.floor.toNat).length : Int) - 1
  else -((Nat.toDigits 10 ((1 / q).ceil.toNat - 1)).length : Int)

/-- The fraction `10 ^ k`. -/
def tenTo (k : Int) : Rat :=
  if 0 ≤ k then (Nat.pow 10 k.toNat : Nat) else 1 / (Nat.pow 10 (-k).toNat : Nat)

/-- The power of ten at or below a positive fraction. -/
def ratDecade (q : Rat) : Rat := tenTo (decadeExponent q)

/-! ## Doubles -/

/-- The natural logarithm of ten, to eighteen places. -/
def logOfTen : Rat := 2302585092994045684 / 1000000000000000000

/-- How far below a whole number a logarithm may be and still be rounded to it: half the way to the
    next double below. -/
def logSlack (n : Int) : Rat :=
  let top := Nat.pow 2 n.natAbs.log2
  if n = 0 then 0
  else ((if n = top then top else 2 * top : Nat) : Rat) / (Nat.pow 2 54 : Nat)

/-- The floor of the decimal logarithm of a positive fraction, rounded to a double. Close below
    `10 ^ n` the logarithm is less than `n` by the relative distance over that of ten. -/
def logFloor (q : Rat) : Int :=
  let next := decadeExponent q + 1
  if 1 - q / tenTo next ≤ logSlack next * logOfTen then next else next - 1

/-- The exponents for which the power function gives the double above the nearest one. -/
def raisedPowers : List Int := [23, 210]

/-- `10 ^ k` by the power function of doubles. -/
def powerOfTen (k : Int) : Float :=
  let nearest := scaled 1 k
  if raisedPowers.contains k then Float.ofBits (nearest.toBits + 1) else nearest

/-- The decade of a double, by the logarithm and the power function of doubles. -/
def decade (x : Float) : Float :=
  match Exact.ofFloat x with
  | .finite false q => if q = 0 then 0.0 else powerOfTen (logFloor q)
  | .finite true q => if q = 0 then 0.0 else 0.0 / 0.0
  | .infinite false => 1.0 / 0.0
  | _ => 0.0 / 0.0

end LatencyPlot.Number
