import SpokenCalculator.Binary64.Decimal
import SpokenCalculator.Text.Numeral

/-!
# Numbers as text

* `fixedText`: a given number of decimal places, halves of the exact value to the even digit;
* `shortest`: the fewest digits that are read back as the same number, and of these the nearest;
* `Style`, `shortestText`: such digits laid out, positionally where the exponent is small.
-/

namespace SpokenCalculator
open Text

namespace Binary64

/-- The sign of a negative number, also of a negative zero. -/
def signText (x : Binary64) : Text := if x.isNegative then ['-'] else []

/-- The names of what is not finite. -/
structure Names where
  notANumber : Text
  infinity : Text

/-- The name of a number that is not finite. -/
def Names.of (names : Names) (x : Binary64) : Text :=
  match x with
  | .nan => names.notANumber
  | _ => x.signText ++ names.infinity

/-! ### A fixed number of places -/

/-- The magnitude in units of the last of a number of decimal places, rounded to the nearest. -/
def scaled (places : Nat) (x : Binary64) : Nat :=
  roundHalfEven (x.magnitude * Nat.pow 10 places) unit

/-- A whole number of units of the last place, with its point. -/
def pointText (places n : Nat) : Text :=
  ofNat (n / Nat.pow 10 places) ++ '.' :: (ofNat (n % Nat.pow 10 places)).leftpad places '0'

/-- A finite number with a fixed number of decimal places. -/
def fixedText (places : Nat) (x : Binary64) : Text :=
  x.signText ++ pointText places (x.scaled places)

/-! ### The fewest digits -/

/-- A decimal fraction is read as the magnitude of a given rank. -/
def readsAs (x : Decimal) (r : Nat) : Bool := nearestRank (x.num * unit) x.den == r

/-- The place of the decimal point in a magnitude: it is below this power of ten and not below
the one before. -/
def pointOf (u : Nat) : Int :=
  if unit ≤ u then (ofNat (u / unit)).length else 1 - (ofNat ((unit - 1) / u)).length

/-- The multiple of a power of ten at or below a magnitude. -/
def floorAt (u : Nat) (exponent : Int) : Decimal :=
  ⟨u * Nat.pow 10 (-exponent).toNat / (unit * Nat.pow 10 exponent.toNat), exponent⟩

/-- Of two neighbours on a decimal grid, the nearer to a magnitude; halfway, the even one. -/
def nearer (u : Nat) (low high : Decimal) : Decimal :=
  let twice := 2 * (u * low.den)
  let middle := (low.num + high.num) * unit
  if twice < middle ∨ (twice = middle ∧ low.digits % 2 = 0) then low else high

/-- Of two neighbours on a decimal grid, the one that passes a test; if both do, the nearer to a
magnitude. -/
def choose? (u : Nat) (low high : Decimal) (lowPasses highPasses : Bool) : Option Decimal :=
  match lowPasses, highPasses with
  | true, true => some (nearer u low high)
  | true, false => some low
  | false, true => some high
  | false, false => none

/-- The decimal fraction with a given number of digits that is read as a rank, if there is one: of
two, the nearer. -/
def withDigits? (r n : Nat) : Option Decimal :=
  let low := floorAt (unitsOfRank r) (pointOf (unitsOfRank r) - n)
  let high : Decimal := ⟨low.digits + 1, low.exponent⟩
  choose? (unitsOfRank r) low high (readsAs low r) (readsAs high r)

/-- All digits of a magnitude. -/
def allDigits (r : Nat) : Decimal := ⟨unitsOfRank r * Nat.pow 5 1074, -1074⟩

/-- The fewest digits that are read as a given rank. -/
def shortest (r : Nat) : Decimal :=
  ((List.range 17).findSome? fun n => withDigits? r (n + 1)).getD (allDigits r)

/-- How the fewest digits are laid out: the least exponent and the bound for which the point is
set among them, and the names of what is not finite. -/
structure Style extends Names where
  least : Int := -4
  bound : Int := 16

/-- A number of zeros. -/
def zeros (n : Nat) : Text := List.replicate n '0'

/-- Digits with the decimal point at a place among, before or after them, and at least one digit
on either side of it. -/
def positional (digits : Text) (point : Int) : Text :=
  if point ≤ 0 then "0.".toList ++ zeros (-point).toNat ++ digits
  else if digits.length ≤ point.toNat then
    digits ++ zeros (point.toNat - digits.length) ++ ".0".toList
  else digits.take point.toNat ++ '.' :: digits.drop point.toNat

/-- Digits with the point after the first, and a signed exponent of at least two digits. -/
def scientific (digits : Text) (exponent : Int) : Text :=
  digits.take 1 ++ (if digits.length ≤ 1 then [] else '.' :: digits.drop 1) ++
    'e' :: (if exponent < 0 then '-' else '+') :: (ofNat exponent.natAbs).leftpad 2 '0'

/-- A positive decimal fraction laid out in a style. -/
def Style.layout (style : Style) (x : Decimal) : Text :=
  let written := ofNat x.digits
  let point := x.exponent + written.length
  let digits := dropTail (· == '0') written
  if style.least ≤ point - 1 ∧ point - 1 < style.bound then positional digits point
  else scientific digits (point - 1)

/-- The fewest digits that are read back as the same number. -/
def Style.text (style : Style) (x : Binary64) : Text :=
  match x with
  | .finite _ r _ =>
    x.signText ++ (if r = 0 then "0.0".toList else style.layout (shortest r))
  | _ => style.toNames.of x

end Binary64
end SpokenCalculator
