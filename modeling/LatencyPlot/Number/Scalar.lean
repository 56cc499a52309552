/-
  LatencyPlot.Number.Scalar

  The arithmetic that a plot is laid out with. It is stated once and read in
  two ways: with doubles, as the program computes, and with exact fractions,
  as geometry means it.
-/
import LatencyPlot.Number.Decade
import LatencyPlot.Number.Rounding

namespace LatencyPlot

/-- A kind of number that a plot can be laid out with. -/
class Scalar (α : Type) extends
    Add α, Sub α, Mul α, Div α, BEq α, LE α, LT α, OfScientific α where
  decidableLE : DecidableLE α
  decidableLT : DecidableLT α
  ofNat : Nat → α
  /-- The lesser of two numbers. -/
  lesser : α → α → α
  /-- The greater of two numbers. -/
  greater : α → α → α
  /-- The least of one or more numbers. -/
  least : α → List α → α
  /-- The greatest of one or more numbers. -/
  greatest : α → List α → α
  abs : α → α
  floor : α → α
  ceil : α → α
  /-- The nearest integer; a half goes away from zero. -/
  round : α → α
  /-- The power of ten at or below a positive number. -/
  decade : α → α
  /-- The natural number at or below a number, 0 for one below zero. -/
  toCount : α → Nat
  /-- What the number stands for. -/
  exact : α → Number.Exact

namespace Scalar

instance {α : Type} [Scalar α] : DecidableLE α := decidableLE
instance {α : Type} [Scalar α] : DecidableLT α := decidableLT

/-- The number of the interval from `low` to `high` that is nearest to `x`. -/
def clamp {α : Type} [Scalar α] (x low high : α) : α :=
  if x < low then low else if high < x then high else x

end Scalar

namespace Number

/-! ## Doubles -/

/-- The lesser of two doubles; what is not a number loses, and of two equal ones the second is
    taken. -/
def lesser (x y : Float) : Float := if x.isNaN || y ≤ x then y else x

/-- The greater of two doubles; what is not a number loses, and of two equal ones the second is
    taken. -/
def greater (x y : Float) : Float := if x.isNaN || x ≤ y then y else x

end Number

/-- Doubles. Without any number the least one is infinity and the greatest minus infinity. -/
instance : Scalar Float where
  decidableLE := inferInstance
  decidableLT := inferInstance
  ofNat := Float.ofNat
  lesser := Number.lesser
  greater := Number.greater
  least x xs := (x :: xs).foldl Number.lesser (1.0 / 0.0)
  greatest x xs := (x :: xs).foldl Number.greater (-1.0 / 0.0)
  abs := Float.abs
  floor := Number.floor
  ceil := Number.ceil
  round := Number.round
  decade := Number.decade
  toCount := Number.toCount
  exact := Number.Exact.ofFloat

namespace Number

/-! ## Fractions -/

/-- The nearest integer to a fraction; a half goes away from zero. -/
def ratRound (q : Rat) : Rat :=
  if q < 0 then -((nearest .up (-q) : Nat) : Rat) else (nearest .up q : Nat)

/-- The lesser of two fractions. -/
def ratLesser (p q : Rat) : Rat := if p ≤ q then p else q

/-- The greater of two fractions. -/
def ratGreater (p q : Rat) : Rat := if p ≤ q then q else p

/-- The magnitude of a fraction. -/
def ratAbs (q : Rat) : Rat := if q < 0 then -q else q

end Number

/-- Exact fractions. -/
instance : Scalar Rat where
  decidableLE := inferInstance
  decidableLT := inferInstance
  ofNat n := (n : Rat)
  lesser := Number.ratLesser
  greater := Number.ratGreater
  least x xs := xs.foldl Number.ratLesser x
  greatest x xs := xs.foldl Number.ratGreater x
  abs := Number.ratAbs
  floor q := (q.floor : Rat)
  ceil q := (q.ceil : Rat)
  round := Number.ratRound
  decade := Number.ratDecade
  toCount q := q.floor.toNat
  exact q := .finite (decide (q < 0)) (Number.ratAbs q)

end LatencyPlot
