/-
  LatencyPlot.Number.Exact

  What a double stands for: nothing, an infinity, or a signed fraction.
  Rounding and printing work on this view, so that every step between the
  bits of a value and its text is arithmetic on exact fractions.
-/

namespace LatencyPlot.Number

/-- The reading of a double: not a number, an infinity, or a sign with an exact magnitude.
    The sign stands apart because zero has one. -/
inductive Exact where
  | undefined
  | infinite (negative : Bool)
  | finite (negative : Bool) (magnitude : Rat)

namespace Exact

/-- The fraction `m * 2 ^ e`. -/
def scaled (m : Nat) (e : Int) : Rat :=
  if 0 ≤ e then ((m * Nat.pow 2 e.toNat : Nat) : Rat) else mkRat m (Nat.pow 2 (-e).toNat)

/-- Whether a sign bit says "below zero". -/
def isNegative : Float.Model.UnpackedFloat.Sign → Bool
  | .negative => true
  | .positive => false

/-- Decodes a double. -/
def ofFloat (x : Float) : Exact :=
  match x.toModel.unpack with
  | .notANumber => .undefined
  | .infinity s => .infinite (isNegative s)
  | .zero s => .finite (isNegative s) 0
  | .finite s m e _ => .finite (isNegative s) (scaled m e)

/-- The fraction that a finite value stands for. -/
def value? : Exact → Option Rat
  | .finite negative q => some (if negative then -q else q)
  | _ => none

end Exact

end LatencyPlot.Number
