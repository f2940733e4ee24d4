import LoadPlan.Number.Power

/-! The finite numbers of 64-bit binary floating point. Each is a whole number of
units of 2^-1074, so order and whole parts are those of integers, and every
operation is exact arithmetic followed by one rounding to 53 significant bits. -/
namespace LoadPlan

structure Double where
  negative : Bool
  units : Nat
  deriving DecidableEq, Repr, Inhabited

namespace Double

/-- The number of units in one. -/
def one : Nat := twoTo 1074

/-- Every magnitude is below this many units. -/
def limit : Nat := twoTo 2098

/-- Quotient rounded to the nearest whole number, a half to the even neighbour. -/
def roundDiv (num den : Nat) : Nat :=
  let q := num / den
  let twice := 2 * (num % den)
  if twice < den then q else if den < twice then q + 1 else q + q % 2

/-- Number of low bits of a magnitude that lie beyond 53 significant ones. -/
def spareBits (units : Nat) : Nat := units.log2 - 52

/-- The number nearest to `num / den`, of two the one with an even significand; none on overflow. -/
def nearest? (negative : Bool) (num den : Nat) : Option Double :=
  let scaled := num * one
  let spare := twoTo (spareBits (scaled / den))
  let units := roundDiv scaled (den * spare) * spare
  if units < limit then some ⟨negative, units⟩ else none

def ofNat? (n : Nat) : Option Double := nearest? false n 1

def ofInt? (n : Int) : Option Double := nearest? (n < 0) n.natAbs 1

def zero (negative : Bool) : Double := ⟨negative, 0⟩

def neg (x : Double) : Double := { x with negative := !x.negative }

def mul? (x y : Double) : Option Double :=
  nearest? (x.negative != y.negative) (x.units * y.units) (one * one)

/-- The rounded quotient; the divisor is not zero wherever it is used. -/
def div? (x y : Double) : Option Double :=
  nearest? (x.negative != y.negative) x.units y.units

/-- Signed number of units; both zeros have none. -/
def toUnits (x : Double) : Int := if x.negative then -x.units else x.units

/-- Equality of values, under which the two zeros are one. -/
def sameValue (x y : Double) : Bool := x.toUnits == y.toUnits

def le (x y : Double) : Bool := x.toUnits ≤ y.toUnits

def floor (x : Double) : Int := x.toUnits.fdiv one

def ceil (x : Double) : Int := -((-x.toUnits).fdiv one)

/-- Value of a decimal `digits · 10^exponent`, rounded once. Far exponents are settled
without building the power: 2^1024 has 309 digits, and the least unit 324 places. -/
def ofDecimal? (negative : Bool) (digits : Nat) (exponent : Int) : Option Double :=
  let places : Int := (Nat.toDigits 10 digits).length + exponent
  if digits = 0 ∨ places < -330 then some (zero negative)
  else if 320 < places then none
  else match exponent with
    | .ofNat e => nearest? negative (digits * tenTo e) 1
    | .negSucc e => nearest? negative digits (tenTo (e + 1))

end Double
end LoadPlan
