/-!
# Double-precision numbers

A finite double is a sign and a magnitude `significand · 2 ^ exponent` with a significand below
`2 ^ 53`. `Magnitude.nearest` rounds a ratio of naturals to the nearest magnitude, a tie going to
the even significand; the other operations round an exact ratio in the same way.
-/

namespace SearchIndex

/-- The value `significand · 2 ^ exponent`. -/
structure Magnitude where
  significand : Nat
  exponent : Int
deriving DecidableEq, Repr

/-- A finite double. -/
structure Double where
  negative : Bool
  magnitude : Magnitude
deriving DecidableEq, Repr

namespace Magnitude

/-- The least exponent of a double. -/
def leastExponent : Int := -1074

/-- The greatest exponent of a double. -/
def greatestExponent : Int := 971

/-- The least significand of 53 binary digits. -/
def leastFull : Nat := Nat.pow 2 52

/-- The magnitude of zero. -/
def zero : Magnitude := ⟨0, leastExponent⟩

/-- The ratio `num / (den · 2 ^ e)` as numerator and denominator. -/
def scale (num den : Nat) (e : Int) : Nat × Nat :=
  if 0 ≤ e then (num, den * Nat.pow 2 e.toNat) else (num * Nat.pow 2 (-e).toNat, den)

/-- The exponent at which the quotient of a positive ratio has 53 binary digits, or the least. -/
def exponentOf (num den : Nat) : Int :=
  let e : Int := (Nat.log2 num : Int) - (Nat.log2 den : Int) - 53
  let (n, d) := scale num den e
  max leastExponent (if 2 * leastFull ≤ n / d then e + 1 else e)

/-- The quotient rounded to the nearest natural, a tie to the even one. -/
def roundHalfEven (num den : Nat) : Nat :=
  let q := num / den
  let r := num % den
  if den < 2 * r ∨ (2 * r = den ∧ q % 2 = 1) then q + 1 else q

/-- The magnitude nearest to `num / den`; none if it is beyond the greatest. -/
def nearest (num den : Nat) : Option Magnitude :=
  if num = 0 then some zero
  else
    let e := exponentOf num den
    let (n, d) := scale num den e
    let q := roundHalfEven n d
    let m : Magnitude := if q = 2 * leastFull then ⟨leastFull, e + 1⟩ else ⟨q, e⟩
    if m.exponent ≤ greatestExponent then some m else none

/-- Numerator and denominator of the exact value. -/
def ratio (m : Magnitude) : Nat × Nat :=
  if 0 ≤ m.exponent then (m.significand * Nat.pow 2 m.exponent.toNat, 1)
  else (m.significand, Nat.pow 2 (-m.exponent).toNat)

/-- The rounded product. -/
def mul (a b : Magnitude) : Option Magnitude :=
  nearest (a.ratio.1 * b.ratio.1) (a.ratio.2 * b.ratio.2)

/-- The rounded quotient. -/
def div (a b : Magnitude) : Option Magnitude :=
  nearest (a.ratio.1 * b.ratio.2) (a.ratio.2 * b.ratio.1)

/-- The magnitude is not zero. -/
def isPositive (m : Magnitude) : Bool := m.significand != 0

end Magnitude

end SearchIndex
