/-
  LatencyPlot.Number.Text

  The written forms of a double: the shortest digits that read back, in one
  of two layouts, and a fixed number of decimal places.
-/
import LatencyPlot.Number.Rounding
import LatencyPlot.Number.Shortest

namespace LatencyPlot.Number

/-! ## Shortest digits -/

/-- How shortest digits are laid out. -/
structure Layout where
  /-- A whole number carries `.0`. -/
  wholePoint : Bool
  /-- Whether a number is written out in full, by the number of digits before its point;
      0 stands for `0.d`, negative counts for zeros after the point. -/
  inFull : Int → Bool

/-- Written out in full, without a point where there is no fraction. -/
def plainLayout : Layout := ⟨false, fun _ => true⟩

/-- Always with a point or an exponent; the exponent form is for magnitudes below `10 ^ -4` and
    from `10 ^ 16` on. -/
def literalLayout : Layout := ⟨true, fun places => -3 ≤ places && places ≤ 16⟩

namespace Layout

/-- The digits with a point after the first `places` of them, with zeros filled in on either
    side. -/
def full (layout : Layout) (digits : List Char) (places : Int) : List Char :=
  if places ≤ 0 then
    '0' :: '.' :: (List.replicate (-places).toNat '0' ++ digits)
  else if digits.length ≤ places.toNat then
    digits ++ List.replicate (places.toNat - digits.length) '0' ++
      (if layout.wholePoint then ['.', '0'] else [])
  else
    digits.take places.toNat ++ '.' :: digits.drop places.toNat

/-- One digit before the point, and the power of ten after an `e`. -/
def scientific (digits : List Char) (places : Int) : List Char :=
  let power := (toString (places - 1)).toList
  match digits with
  | [] => []
  | [d] => d :: 'e' :: power
  | d :: rest => d :: '.' :: (rest ++ 'e' :: power)

/-- A decimal in this layout. -/
def decimal (layout : Layout) (d : Decimal) : List Char :=
  let digits := Nat.toDigits 10 d.coefficient
  let places := digits.length + d.exponent
  if layout.inFull places then layout.full digits places else scientific digits places

/-- The magnitude of a double in this layout. -/
def magnitude (layout : Layout) (x : Float) : List Char :=
  match x.toModel.unpack with
  | .notANumber => ['N', 'a', 'N']
  | .infinity _ => ['i', 'n', 'f']
  | .zero _ => layout.full ['0'] 1
  | .finite _ m e _ => layout.decimal (shortest m e)

end Layout

/-- The sign that is written before a double; what is no number has none. -/
def sign (x : Float) : List Char :=
  match Exact.ofFloat x with
  | .undefined => []
  | .infinite negative => if negative then ['-'] else []
  | .finite negative _ => if negative then ['-'] else []

/-- A double in a layout. -/
def Layout.write (layout : Layout) (x : Float) : String :=
  String.ofList (sign x ++ layout.magnitude x)

/-- The form for attributes of a drawing: `0.5`, `64`, `-0`. -/
def plain (x : Float) : String := plainLayout.write x

/-- The form for messages: `0.5`, `64.0`, `1e16`. -/
def literal (x : Float) : String := literalLayout.write x

/-! ## Fixed places -/

/-- A non-negative fraction with at least one decimal place; a half goes to the even digit. -/
def fixedFraction (places : Nat) (q : Rat) : List Char :=
  let units := nearest .even (q * (Nat.pow 10 places : Nat))
  Nat.toDigits 10 (units / Nat.pow 10 places) ++
    '.' :: (Nat.toDigits 10 (units % Nat.pow 10 places)).leftpad places '0'

/-- A double with a fixed number of places, at least one. -/
def fixed (places : Nat) (x : Float) : String :=
  String.ofList (sign x ++ match Exact.ofFloat x with
    | .undefined => ['N', 'a', 'N']
    | .infinite _ => ['i', 'n', 'f']
    | .finite _ q => fixedFraction places q)

end LatencyPlot.Number
