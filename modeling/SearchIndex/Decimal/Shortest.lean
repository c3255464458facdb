import SearchIndex.Decimal.Double

/-!
# The shortest decimal of a double

`Magnitude.shortest` finds the decimal with the fewest digits that still rounds to a magnitude, and
of those the nearest to it. It tests the two neighbours of the value on ever finer grids of
multiples of a power of ten, from the power above its leading digit down to its 17th digit; the
first grid with a hit wins.
-/

namespace SearchIndex

/-- The value `digits · 10 ^ power`. -/
structure Decimal where
  digits : Nat
  power : Int
deriving DecidableEq, Repr

/-- Numerator and denominator of a decimal. -/
def Decimal.ratio (d : Decimal) : Nat × Nat :=
  if 0 ≤ d.power then (d.digits * Nat.pow 10 d.power.toNat, 1)
  else (d.digits, Nat.pow 10 (-d.power).toNat)

namespace Magnitude

/-- The reals that round to a magnitude: between `low` and `high`, with `value` itself, all over one
denominator. The ends belong to it iff `closed`. -/
structure Interval where
  low : Nat
  value : Nat
  high : Nat
  denominator : Nat
  closed : Bool

/-- Half a unit on both sides, but a quarter below a power of two. -/
def interval (m : Magnitude) : Interval :=
  let below := if m.significand = leastFull ∧ m.exponent ≠ leastExponent then 1 else 2
  let (factor, denominator) := ratio ⟨1, m.exponent - 2⟩
  { low := (4 * m.significand - below) * factor
    value := 4 * m.significand * factor
    high := (4 * m.significand + 2) * factor
    denominator
    closed := m.significand % 2 = 0 }

/-- A decimal lies in the interval. -/
def Interval.holds (i : Interval) (d : Decimal) : Bool :=
  let (num, den) := d.ratio
  let (x, low, high) := (num * i.denominator, i.low * den, i.high * den)
  if i.closed then low ≤ x && x ≤ high else low < x && x < high

/-- The power of ten of the leading digit of a positive ratio. -/
def leadingPower (num den : Nat) : Int :=
  if den ≤ num then ((Nat.toDigits 10 (num / den)).length : Int) - 1
  else -((Nat.toDigits 10 ((den + num - 1) / num - 1)).length : Int)

/-- The neighbours of a ratio on the grid of multiples of `10 ^ power`, the nearer one first; of two
equally near ones the even one. -/
def neighbours (num den : Nat) (power : Int) : Decimal × Decimal :=
  let (n, d) :=
    if 0 ≤ power then (num, den * Nat.pow 10 power.toNat)
    else (num * Nat.pow 10 (-power).toNat, den)
  let q := n / d
  let r := n % d
  if 2 * r < d ∨ (2 * r = d ∧ q % 2 = 0) then (⟨q, power⟩, ⟨q + 1, power⟩)
  else (⟨q + 1, power⟩, ⟨q, power⟩)

/-- The first hit on the grids from `power` downwards. -/
def search (i : Interval) (power : Int) : Nat → Decimal
  | 0 => (neighbours i.value i.denominator power).1
  | n + 1 =>
    let (near, far) := neighbours i.value i.denominator power
    if i.holds near then near
    else if i.holds far then far
    else search i (power - 1) n

/-- The shortest decimal that rounds to a positive magnitude. -/
def shortest (m : Magnitude) : Decimal :=
  let i := m.interval
  search i (leadingPower i.value i.denominator + 1) 17

end Magnitude

end SearchIndex
