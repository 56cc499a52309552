/-
  LatencyPlot.Number.Rounding

  Rounding of a non-negative fraction to a natural number, and the integral
  neighbours of a double. A double that has an integer for its value is its
  own neighbour, and a result of zero keeps the sign of its argument.
-/
import LatencyPlot.Number.Exact

namespace LatencyPlot.Number

/-! ## Fractions -/

/-- Where a fraction halfway between two integers goes. -/
inductive Tie where
  | up
  | even

/-- The natural number nearest to a non-negative fraction. -/
def nearest (tie : Tie) (q : Rat) : Nat :=
  let below := q.floor.toNat
  let rest := q - below
  if rest < 1 / 2 then below
  else if 1 / 2 < rest then below + 1
  else match tie with
    | .up => below + 1
    | .even => below + below % 2

/-! ## Doubles -/

/-- Gives a double a sign. -/
def withSign (negative : Bool) (x : Float) : Float :=
  if negative then -x else x

/-- The double whose magnitude is the integer that `pick` chooses from the sign and the
    magnitude of `x`; what is integral or not finite stays as it is. -/
def toIntegral (pick : Bool → Rat → Nat) (x : Float) : Float :=
  match Exact.ofFloat x with
  | .finite negative q =>
    if q.den = 1 then x else withSign negative (Float.ofNat (pick negative q))
  | _ => x

/-- The greatest integral double that is not above `x`. -/
def floor (x : Float) : Float :=
  toIntegral (fun negative q => if negative then q.ceil.toNat else q.floor.toNat) x

/-- The least integral double that is not below `x`. -/
def ceil (x : Float) : Float :=
  toIntegral (fun negative q => if negative then q.floor.toNat else q.ceil.toNat) x

/-- The integral double nearest to `x`; a half goes away from zero. -/
def round (x : Float) : Float :=
  toIntegral (fun _ q => nearest .up q) x

/-- The greatest count. -/
def maxCount : Nat := 0xFFFFFFFFFFFFFFFF

/-- The natural number below a double, at least 0 and at most `maxCount`; 0 where there is
    no number. -/
def toCount (x : Float) : Nat :=
  match Exact.ofFloat x with
  | .undefined => 0
  | .infinite negative => if negative then 0 else maxCount
  | .finite negative q => if negative then 0 else min q.floor.toNat maxCount

end LatencyPlot.Number
