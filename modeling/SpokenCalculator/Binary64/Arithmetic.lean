import SpokenCalculator.Binary64.Rounding

/-!
# Arithmetic of double precision numbers

* `add`, `sub`, `mul`, `div`: the exact result, rounded once;
* `ofInt`, `ofInt?`: the number nearest to an integer, and only if there is a finite one;
* `roundToInt`, `truncate?`: the integer nearest to a number, and its whole part;
* `isWhole`: the test for a number without fractional part.
-/

namespace SpokenCalculator.Binary64

/-- The sum.  An exact zero is negative only if both summands are. -/
def add : Binary64 → Binary64 → Binary64
  | .nan, _ => .nan
  | _, .nan => .nan
  | .infinite s, .infinite t => if s = t then .infinite s else .nan
  | .infinite s, .finite _ _ _ => .infinite s
  | .finite _ _ _, .infinite t => .infinite t
  | x, y =>
    let u := x.units + y.units
    if u = 0 then signedZero (x.isNegative && y.isNegative)
    else ofUnits (decide (u < 0)) u.natAbs 1

/-- The difference. -/
def sub (x y : Binary64) : Binary64 := add x y.neg

/-- The product. -/
def mul : Binary64 → Binary64 → Binary64
  | .nan, _ => .nan
  | _, .nan => .nan
  | .infinite s, .infinite t => .infinite (s ^^ t)
  | .infinite s, y => if y.isZero then .nan else .infinite (s ^^ y.isNegative)
  | x, .infinite t => if x.isZero then .nan else .infinite (x.isNegative ^^ t)
  | x, y => ofUnits (x.isNegative ^^ y.isNegative) (x.magnitude * y.magnitude) unit

/-- The quotient.  A zero divisor gives an infinity, or not-a-number for a zero dividend. -/
def div : Binary64 → Binary64 → Binary64
  | .nan, _ => .nan
  | _, .nan => .nan
  | .infinite _, .infinite _ => .nan
  | .infinite s, y => .infinite (s ^^ y.isNegative)
  | x, .infinite t => signedZero (x.isNegative ^^ t)
  | x, y =>
    let negative := x.isNegative ^^ y.isNegative
    if y.isZero then (if x.isZero then .nan else .infinite negative)
    else ofUnits negative (x.magnitude * unit) y.magnitude

instance : Neg Binary64 := ⟨neg⟩
instance : Add Binary64 := ⟨add⟩
instance : Sub Binary64 := ⟨sub⟩
instance : Mul Binary64 := ⟨mul⟩
instance : Div Binary64 := ⟨div⟩

/-! ### Integers -/

/-- The number nearest to an integer. -/
def ofInt (i : Int) : Binary64 := ofUnits (decide (i < 0)) (i.natAbs * unit) 1

/-- The finite number nearest to an integer. -/
def ofInt? (i : Int) : Option Binary64 :=
  if (ofInt i).isFinite then some (ofInt i) else none

/-- A finite number without fractional part. -/
def isWhole : Binary64 → Bool
  | .finite _ r _ => unitsOfRank r % unit == 0
  | _ => false

/-- The integer nearest to a finite number, halves to the even one. -/
def roundToInt (x : Binary64) : Int :=
  let n : Int := roundHalfEven x.magnitude unit
  if x.isNegative then -n else n

/-- A finite number without its fractional part. -/
def truncate (x : Binary64) : Int := x.units.tdiv unit

end SpokenCalculator.Binary64
