import SearchIndex.Json.Basic

/-!
# Number literals

`Numeral` is a number literal taken apart, `Numeral.value?` the number it stands for. An integer
literal that fits a 64-bit word is that integer; every other literal is a double, reached in steps:
the leading digits that fit an unsigned word, rounded to a double, are scaled by doubles of powers
of ten, at most `10 ^ 308` at a time.
-/

namespace SearchIndex.Json

/-- A number literal. Digits stand last first. `fraction` is empty without a point, `exponent` is
none without an exponent; its flag tells a minus sign. -/
structure Numeral where
  negative : Bool
  integer : List Nat
  fraction : List Nat
  exponent : Option (Bool × List Nat)
deriving DecidableEq, Repr

namespace Numeral

/-- The greatest unsigned word. -/
def greatestWord : Nat := 18446744073709551615

/-- The greatest magnitude of a negative word. -/
def greatestNegated : Nat := 9223372036854775808

/-- The greatest exponent that is told from its digits. -/
def greatestExponent : Nat := 2147483647

/-- Reads digits while the value fits `limit`; the value and the digits that are left. -/
def collect (limit : Nat) : Nat → List Nat → Nat × List Nat
  | value, [] => (value, [])
  | value, d :: ds =>
    if value * 10 + d ≤ limit then collect limit (value * 10 + d) ds else (value, d :: ds)

/-- `10 ^ n` as a double. -/
def powerOfTen (n : Nat) : Magnitude := (Magnitude.nearest (Nat.pow 10 n) 1).getD .zero

/-- Divides by `10 ^ n`, in strides of 308 while they are longer; zero stays zero. -/
def divide (m : Magnitude) (n : Nat) : Nat → Magnitude
  | 0 => m
  | strides + 1 =>
    if n ≤ 308 then (m.div (powerOfTen n)).getD .zero
    else if m.isPositive then
      divide ((m.div (powerOfTen 308)).getD .zero) (n - 308) strides
    else m

/-- The double `significand · 10 ^ exponent`; none if it is out of range. -/
def scaled? (significand : Nat) (exponent : Int) : Option Magnitude :=
  match Magnitude.nearest significand 1 with
  | none => none
  | some m =>
    if exponent < 0 then some (divide m (-exponent).toNat (exponent.natAbs / 308 + 1))
    else if exponent ≤ 308 then m.mul (powerOfTen exponent.toNat)
    else if m.isPositive then none
    else some m

/-- The nearest word of 32 bits with a sign. -/
def clamp (n : Int) : Int := max (-2147483648) (min 2147483647 n)

/-- The magnitude of a literal that is no integer of a word. -/
def magnitude? (n : Numeral) : Option Magnitude :=
  let (whole, dropped) := collect greatestWord 0 n.integer.reverse
  let (significand, ignored) := collect greatestWord whole n.fraction.reverse
  let exponent : Int := dropped.length - (n.fraction.length - ignored.length : Nat)
  match n.exponent with
  | none => scaled? significand exponent
  | some (minus, digits) =>
    match collect greatestExponent 0 digits.reverse with
    | (power, []) =>
      scaled? significand (clamp (if minus then exponent - power else exponent + power))
    | _ => if significand = 0 ∨ minus then some .zero else none

/-- The number a literal stands for; none if it is out of range. -/
def value? (n : Numeral) : Option Number :=
  let asDouble := n.magnitude?.map fun m => Number.double ⟨n.negative, m⟩
  match n.fraction, n.exponent, collect greatestWord 0 n.integer.reverse with
  | [], none, (whole, []) =>
    if !n.negative then some (.integer whole)
    else if 0 < whole ∧ whole ≤ greatestNegated then some (.integer (-whole))
    else asDouble
  | _, _, _ => asDouble

end Numeral

end SearchIndex.Json
