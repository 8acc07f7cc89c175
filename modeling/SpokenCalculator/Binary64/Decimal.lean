import SpokenCalculator.Binary64.Arithmetic

/-!
# Decimal fractions

* `Decimal`: a whole number times a power of ten;
* `ofDecimal`: the double precision number nearest to it.
-/

namespace SpokenCalculator

/-- A whole number times a power of ten. -/
structure Decimal where
  digits : Nat
  exponent : Int
  deriving DecidableEq

namespace Decimal

/-- The numerator of the value as a ratio of whole numbers. -/
def num (x : Decimal) : Nat := x.digits * Nat.pow 10 x.exponent.toNat

/-- The denominator of the value as a ratio of whole numbers. -/
def den (x : Decimal) : Nat := Nat.pow 10 (-x.exponent).toNat

theorem den_pos (x : Decimal) : 0 < x.den := Nat.pow_pos (by decide)

/-- The exponent is beyond every finite number, whatever the digits. -/
def isHuge (x : Decimal) : Bool := x.digits ≠ 0 && 400 < x.exponent

/-- The exponent is below every number but zero, whatever the digits. -/
def isTiny (x : Decimal) : Bool := x.digits = 0 || x.exponent + 400 + x.digits.log2 < 0

end Decimal

/-- The number of a given sign nearest to a decimal fraction.  A power of ten is only computed
where it can matter. -/
def Binary64.ofDecimal (negative : Bool) (x : Decimal) : Binary64 :=
  if x.isTiny then signedZero negative
  else if x.isHuge then .infinite negative
  else ofUnits negative (x.num * unit) x.den

end SpokenCalculator
