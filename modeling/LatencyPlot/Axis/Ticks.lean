/-
  LatencyPlot.Axis.Ticks

  Ticks at the multiples of a step that is 1, 2 or 5 times a power of ten, and
  their text: a whole number, or at most two decimal places.
-/
import LatencyPlot.Number.Scalar
import LatencyPlot.Number.Text

namespace LatencyPlot

/-! ## Positions -/

/-- The ticks `start`, `start + step`, … -/
structure Ticks (α : Type) where
  start : α
  step : α
  count : Nat

namespace Ticks

variable {α : Type} [Scalar α]

/-- The least of 1, 2, 5 and 10 that is not below `x`, or 10. -/
def niceFactor (x : α) : α :=
  if x ≤ 1.0 then 1.0 else if x ≤ 2.0 then 2.0 else if x ≤ 5.0 then 5.0 else 10.0

/-- The least nice step with which about `wanted` ticks reach from `low` to `high`. -/
def niceStep (low high : α) (wanted : Nat) : α :=
  let length := Scalar.greater (Scalar.abs (high - low)) 1e-9
  let rough := length / (Scalar.ofNat (max wanted 2) - 1.0)
  let decade := Scalar.decade (Scalar.abs rough)
  niceFactor (rough / decade) * decade

/-- About `wanted` ticks between `low` and `high`, and never none. -/
def nice (low high : α) (wanted : Nat) : Ticks α :=
  let step := niceStep low high wanted
  let start := Scalar.ceil (low / step) * step
  let last := Scalar.floor (high / step) * step
  let gaps := Scalar.greater (Scalar.round ((last - start) / step)) 0.0
  ⟨start, step, Scalar.toCount gaps + 1⟩

/-- The tick with a given number. -/
def value (t : Ticks α) (i : Nat) : α := t.start + t.step * Scalar.ofNat i

/-- All ticks in order. -/
def values (t : Ticks α) : List α := (List.range t.count).map t.value

theorem length_values (t : Ticks α) : t.values.length = t.count := by
  rw [values, List.length_map, List.length_range]

theorem count_nice_pos (low high : α) (wanted : Nat) : 0 < (nice low high wanted).count :=
  Nat.succ_pos _

end Ticks

/-! ## Text -/

/-- The greatest magnitude of a whole number in the text of a tick: what fits into 64 bits with a
    sign. -/
def wholeLimit (negative : Bool) : Nat :=
  if negative then 0x8000000000000000 else 0x7FFFFFFFFFFFFFFF

/-- The whole number in the text of a tick; one that is too great is cut to the limit. -/
def wholeText (negative : Bool) (n : Nat) : List Char :=
  (if negative && n != 0 then ['-'] else []) ++ Nat.toDigits 10 (min n (wholeLimit negative))

/-- A text without the characters `p` it ends in. -/
def withoutEnd (p : Char → Bool) (cs : List Char) : List Char :=
  (cs.reverse.dropWhile p).reverse

/-- Two decimal places without zeros at the end, nor the point if nothing follows it. -/
def twoPlaces (negative : Bool) (q : Rat) : List Char :=
  (if negative then ['-'] else []) ++
    withoutEnd (· == '.') (withoutEnd (· == '0') (Number.fixedFraction 2 q))

/-- The text of a tick. What is less than a thousandth away from a whole number is written as
    that number. -/
def tickChars : Number.Exact → List Char
  | .undefined => ['N', 'a', 'N']
  | .infinite negative => if negative then ['-', 'i', 'n', 'f'] else ['i', 'n', 'f']
  | .finite negative q =>
    let n := Number.nearest .up q
    if Number.ratAbs (q - n) < 1 / 1000 then wholeText negative n else twoPlaces negative q

/-- The text of a tick at `v`. -/
def tickText {α : Type} [Scalar α] (v : α) : String :=
  String.ofList (tickChars (Scalar.exact v))


end LatencyPlot
