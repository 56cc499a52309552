/-
  LatencyPlot.Number.Reader

  Reading a number: an optional sign, then digits with an optional point among
  or beside them and an optional power of ten, or the name of an infinity or
  of "not a number" in any letter case. Nothing else may stand in the text.
-/
import LatencyPlot.Number.Binary

namespace LatencyPlot.Number

/-- The natural number that a run of digits denotes. -/
def digitsValue (digits : List Char) : Nat :=
  digits.foldl (fun n c => 10 * n + (c.toNat - '0'.toNat)) 0

/-- Digits after a number move it to the left by as many places. -/
theorem foldl_digits (digits : List Char) (n : Nat) :
    digits.foldl (fun n c => 10 * n + (c.toNat - '0'.toNat)) n =
      n * Nat.pow 10 digits.length + digitsValue digits := by
  rw [digitsValue]
  induction digits generalizing n with
  | nil => simp
  | cons c cs ih =>
    rw [List.foldl_cons, List.foldl_cons, ih, ih (10 * 0 + _), List.length_cons]
    change _ = n * (Nat.pow 10 cs.length * 10) + _
    rw [Nat.add_mul, ← Nat.add_assoc, Nat.mul_zero, Nat.zero_add, Nat.mul_comm 10 n, Nat.mul_assoc,
      Nat.mul_comm 10]

/-- A text of digits denotes what its parts do. -/
theorem digitsValue_append (a b : List Char) :
    digitsValue (a ++ b) = digitsValue a * Nat.pow 10 b.length + digitsValue b := by
  rw [digitsValue, List.foldl_append, foldl_digits]
  rfl

/-- The natural number that a run of digits denotes, computed from its two halves, and these from
    theirs, `depth` times over, so that large numbers are multiplied seldom. -/
def halvesValue : (depth : Nat) → List Char → Nat
  | 0, digits => digitsValue digits
  | depth + 1, digits =>
    let half := digits.length / 2
    halvesValue depth (digits.take half) * Nat.pow 10 (digits.length - half) +
      halvesValue depth (digits.drop half)

/-- Cutting a run into halves does not change the number. -/
theorem halvesValue_eq (depth : Nat) (digits : List Char) :
    halvesValue depth digits = digitsValue digits := by
  induction depth generalizing digits with
  | zero => rfl
  | succ depth ih =>
    rw [halvesValue, ih, ih, ← List.length_drop, ← digitsValue_append, List.take_append_drop]

/-- How often a run of `n` digits is halved, for pieces of some dozens of digits. -/
def halvings (n : Nat) : Nat := n.log2 - 5

/-- An exponent that has come this far takes no further digits. -/
def exponentLimit : Nat := 65536

/-- The size of the exponent that a run of digits denotes. It takes digits while it is below the
    limit; the others must be digits too, but do not count. -/
def exponentSize (digits : List Char) : Nat :=
  digits.foldl (fun n c => if n < exponentLimit then 10 * n + (c.toNat - '0'.toNat) else n) 0

/-- One or more digits, as the size of an exponent. -/
def exponentSize? (cs : List Char) : Option Nat :=
  if !cs.isEmpty && cs.all Char.isDigit then some (exponentSize cs) else none

/-- An exponent: nothing, or `e` and a whole number with an optional sign. -/
def exponent? : List Char → Option Int
  | [] => some 0
  | c :: rest =>
    if c = 'e' ∨ c = 'E' then
      match rest with
      | '-' :: digits => (exponentSize? digits).map fun n => -(n : Int)
      | '+' :: digits => (exponentSize? digits).map fun n => (n : Int)
      | digits => (exponentSize? digits).map fun n => (n : Int)
    else none

/-- The double nearest to `m * 10 ^ e`. -/
def scaled (m : Nat) (e : Int) : Float :=
  if 0 ≤ e then Float.ofScientific m false e.toNat else Float.ofScientific m true (-e).toNat

/-- With fewer places than this before the point a number is nearest to zero. -/
def leastPlaces : Int := -323

/-- With more places than this before the point a number is beyond all doubles. -/
def mostPlaces : Int := 309

/-- The double nearest to what digits denote, times `10 ^ e`. The places before the point, counted
    from the first digit that is not zero, settle what is very small or very large. -/
def ofDecimal (digits : List Char) (e : Int) : Float :=
  let significant := digits.dropWhile (· = '0')
  let places := significant.length + e
  if significant.isEmpty ∨ places < leastPlaces then 0.0
  else if mostPlaces < places then 1.0 / 0.0
  else scaled (halvesValue (halvings significant.length) significant) e

/-- Digits with at most one point, at least one digit, and an exponent. -/
def decimal? (cs : List Char) : Option Float :=
  let whole := cs.takeWhile Char.isDigit
  let rest := cs.dropWhile Char.isDigit
  let (fraction, rest) := match rest with
    | '.' :: tail => (tail.takeWhile Char.isDigit, tail.dropWhile Char.isDigit)
    | _ => ([], rest)
  if whole.isEmpty && fraction.isEmpty then none
  else (exponent? rest).map fun e => ofDecimal (whole ++ fraction) (e - fraction.length)

/-- A number without a sign. -/
def unsigned? (cs : List Char) : Option Float :=
  let name := cs.map Char.toLower
  if name = ['n', 'a', 'n'] then some (0.0 / 0.0)
  else if name = ['i', 'n', 'f'] ∨ name = ['i', 'n', 'f', 'i', 'n', 'i', 't', 'y'] then
    some (1.0 / 0.0)
  else decimal? cs

/-- The double that a text denotes, the nearest one where several digits are given. -/
def read? : List Char → Option Float
  | '-' :: cs => (unsigned? cs).map fun x => -x
  | '+' :: cs => unsigned? cs
  | cs => unsigned? cs

/-- The double that a text denotes, by its bits: what is not a number keeps the sign before it. -/
def readBinary? : List Char → Option Binary
  | '-' :: cs => (unsigned? cs).map fun x => (Binary.ofFloat x).negate
  | cs => (read? cs).map Binary.ofFloat

/-- The finite double that a text denotes. -/
def readFinite? (cs : List Char) : Option Float :=
  (read? cs).filter Float.isFinite

end LatencyPlot.Number
