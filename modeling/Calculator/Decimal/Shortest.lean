import Calculator.Decimal.Basic

/-!
# Shortest decimals of binary numbers

A binary floating-point number stands for all reals that round to it. Among the
decimals in that interval the shortest one is chosen: the search goes from coarse
decimal grids to fine ones and stops at the first grid with a point in the
interval. Of two such points the one nearer to the number is taken, and the
larger one if both are equally near.
-/

set_option autoImplicit false

namespace Calculator

/-- The reals that round to a positive binary number. The three bounds are
multiples of `2 ^ exponent`, and `closed` tells whether the outer two belong to
the interval. -/
structure RoundingInterval where
  lower : Nat
  value : Nat
  upper : Nat
  exponent : Int
  closed : Bool
deriving DecidableEq, Repr

namespace RoundingInterval

/-- The interval of `significand * 2 ^ exponent`. Quarters of a unit express the
half-way points, and the point a quarter below, which is half-way if the
neighbour below is only half a unit away. -/
def ofBinary (significand : Nat) (exponent : Int) (closerBelow : Bool) : RoundingInterval where
  lower := 4 * significand - (if closerBelow then 1 else 2)
  value := 4 * significand
  upper := 4 * significand + 2
  exponent := exponent - 2
  closed := significand % 2 == 0

/-- What the bounds are multiplied by to be compared with multiples of
`10 ^ power` in whole numbers. -/
def gridScale (interval : RoundingInterval) (power : Int) : Nat :=
  Nat.pow 2 interval.exponent.toNat * Nat.pow 10 (-power).toNat

/-- The number that stands for `10 ^ power` beside the scaled bounds. -/
def gridUnit (interval : RoundingInterval) (power : Int) : Nat :=
  Nat.pow 10 power.toNat * Nat.pow 2 (-interval.exponent).toNat

/-- The multiple of `10 ^ power` in the interval that is nearest to the value,
as a multiple; the larger one if two are equally near. -/
def gridPoint? (interval : RoundingInterval) (power : Int) : Option Nat :=
  let scale := interval.gridScale power
  let unit := interval.gridUnit power
  let lower := interval.lower * scale
  let value := interval.value * scale
  let upper := interval.upper * scale
  let contains (point : Nat) : Bool :=
    if interval.closed then lower ≤ point && point ≤ upper
    else lower < point && point < upper
  let below := value / unit
  let above := below + 1
  if contains (below * unit) then
    if contains (above * unit) && above * unit - value ≤ value - below * unit then some above
    else some below
  else if contains (above * unit) then some above
  else none

/-- The point of the coarsest of `grids` decimal grids, from `power` downwards,
that has one; on the last grid the value is cut off. -/
def coarsestPoint (interval : RoundingInterval) : Nat → Int → Decimal
  | 0, power =>
      ⟨false, interval.value * interval.gridScale power / interval.gridUnit power, power⟩
  | grids + 1, power =>
      match interval.gridPoint? power with
      | some point => ⟨false, point, power⟩
      | none => interval.coarsestPoint grids (power - 1)

/-- A power of ten above the value: the bit length times a bound of the common
logarithm of two. -/
def topPower (interval : RoundingInterval) : Int :=
  (interval.value.log2 + 1 + interval.exponent) * 30103 / 100000 + 1

/-- The shortest decimal in the interval. Seventeen digits tell all doubles
apart, so twenty grids below the value's own size are enough. -/
def shortest (interval : RoundingInterval) : Decimal :=
  interval.coarsestPoint 20 interval.topPower

end RoundingInterval

end Calculator
