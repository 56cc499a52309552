/-
  LatencyPlot.Number.Shortest

  The shortest decimal that reads back as a given double. All reals in an
  interval around the double round to it; the decimal is the point of the
  coarsest decimal grid with a point in that interval, and of two such points
  the nearer one.
-/

namespace LatencyPlot.Number

/-- The number `coefficient * 10 ^ exponent`. -/
structure Decimal where
  coefficient : Nat
  exponent : Int
  deriving Repr, DecidableEq

/-- The reals that round to one positive double: the double is `centre / unit`, the ends are
    `lower / unit` and `upper / unit`, and they belong to it iff `closed`. -/
structure Neighbourhood where
  lower : Nat
  centre : Nat
  upper : Nat
  unit : Nat
  closed : Bool

namespace Neighbourhood

/-- The neighbourhood of `m * 2 ^ e`. Its ends lie halfway to the next doubles; below a power
    of two the next double is half as far away, unless the exponent is the least one. An end
    rounds to the even one of its two doubles. -/
def ofBinary (m : Nat) (e : Int) : Neighbourhood :=
  let scale := Nat.pow 2 (e - 2).toNat
  let down := if m = 0x10000000000000 ∧ -1074 < e then 1 else 2
  { lower := (4 * m - down) * scale
    centre := 4 * m * scale
    upper := (4 * m + 2) * scale
    unit := Nat.pow 2 (2 - e).toNat
    closed := m % 2 == 0 }

/-- Whether `c * 10 ^ k` lies in the neighbourhood. -/
def contains (n : Neighbourhood) (c : Nat) (k : Int) : Bool :=
  let point := c * n.unit * Nat.pow 10 k.toNat
  let stretch := Nat.pow 10 (-k).toNat
  if n.closed then n.lower * stretch ≤ point && point ≤ n.upper * stretch
  else n.lower * stretch < point && point < n.upper * stretch

/-- The point of the grid of step `10 ^ k` that lies in the neighbourhood and is nearest to its
    centre; a tie goes up. Only the two grid points next to the centre need a look. -/
def onGrid? (n : Neighbourhood) (k : Int) : Option Decimal :=
  let step := n.unit * Nat.pow 10 k.toNat
  let centre := n.centre * Nat.pow 10 (-k).toNat
  let c := centre / step
  match n.contains c k, n.contains (c + 1) k with
  | true, true =>
    if 2 * (centre - c * step) < step then some ⟨c, k⟩ else some ⟨c + 1, k⟩
  | true, false => some ⟨c, k⟩
  | false, true => some ⟨c + 1, k⟩
  | false, false => none

end Neighbourhood

/-- The exact decimal expansion of `m * 2 ^ e`. -/
def expansion (m : Nat) (e : Int) : Decimal :=
  if 0 ≤ e then ⟨m * Nat.pow 2 e.toNat, 0⟩ else ⟨m * Nat.pow 5 (-e).toNat, e⟩

/-- A power of ten that is not below `m * 2 ^ e`, at most two places too high: 0.30103 is the
    logarithm of two. -/
def coarsest (m : Nat) (e : Int) : Int :=
  Int.fdiv ((m.log2 + 1 + e) * 30103) 100000 + 1

/-- The shortest decimal in the neighbourhood of `m * 2 ^ e`. Grids are tried from the coarsest
    on; seventeen digits are always enough. -/
def shortest (m : Nat) (e : Int) : Decimal :=
  let n := Neighbourhood.ofBinary m e
  let top := coarsest m e
  ((List.range 21).findSome? fun (i : Nat) => n.onGrid? (top - i)).getD (expansion m e)

end LatencyPlot.Number
