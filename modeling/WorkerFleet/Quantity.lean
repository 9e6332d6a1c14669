/-!
# Quantities

`Quantity K` is the arithmetic that the fleet's rules are written in. The same rules
run over binary64 numbers and are read over exact ones, so no rule below mentions a
particular number type.

This module does NOT supply laws: binary64 satisfies hardly any. A statement about
exact numbers takes `K` to be `Rat` or another ordered field.
-/

namespace WorkerFleet

/-- The numbers in which cpu, gpu, memory, weights and capacities are counted. -/
class Quantity (K : Type) extends Add K, Sub K, Mul K, Div K, Neg K where
  /-- A count of units. -/
  ofNat : Nat → K
  /-- The number nearest to `digits · 10 ^ exponent`. -/
  ofDecimal : Nat → Int → K
  lt : K → K → Bool
  le : K → K → Bool
  isFinite : K → Bool
  /-- The nearest count, a half going up; what is below zero or no number counts zero, and
  counts end at the largest 64-bit one. -/
  roundNat : K → Nat

/-- Quantities with powers, by which positions are turned into weights. -/
class Powers (K : Type) extends Quantity K where
  pow : K → K → K

namespace Quantity
variable {K : Type} [Quantity K]

def zero : K := ofNat 0

/-- The number itself where it is above zero, and zero elsewhere. -/
def positivePart (x : K) : K := if lt zero x then x else zero

def isPositive (x : K) : Bool := lt zero x

/-- `x` moved into the interval from `lo` to `hi`; what compares with neither end stays. -/
def clamp (lo hi x : K) : K :=
  if lt x lo then lo else if lt hi x then hi else x

def maxCount : Nat := 18446744073709551615

end Quantity

/-- A binary64 number from its decimal digits, rounded to nearest. Exponents far outside
binary64 are settled first, so that no large power of ten is formed for them. -/
def binary64OfDecimal (digits : Nat) (exponent : Int) : Float :=
  if digits = 0 then 0
  else if exponent > 400 then 1 / 0
  else if exponent + digits.log2 < -400 then 0
  else if exponent ≥ 0 then Float.ofScientific digits false exponent.toNat
  else Float.ofScientific digits true (-exponent).toNat

instance : Quantity Float where
  ofNat n := binary64OfDecimal n 0
  ofDecimal := binary64OfDecimal
  lt x y := decide (x < y)
  le x y := decide (x ≤ y)
  isFinite x := x.isFinite
  roundNat x :=
    let whole := x.toUInt64
    if 0.5 ≤ x - whole.toFloat then min (whole.toNat + 1) Quantity.maxCount else whole.toNat

instance : Powers Float where
  pow := Float.pow

instance : Quantity Rat where
  ofNat n := n
  ofDecimal digits exponent :=
    if exponent ≥ 0 then (digits : Rat) * 10 ^ exponent.toNat
    else (digits : Rat) / 10 ^ (-exponent).toNat
  lt x y := decide (x < y)
  le x y := decide (x ≤ y)
  isFinite _ := true
  roundNat x := min (x + 1 / 2).floor.toNat Quantity.maxCount

end WorkerFleet
