import SpokenCalculator.Text.Digit

/-!
# Numerals

* `ofNat`, `ofInt`: the decimal digits of a number, after a sign if it is negative;
* `hexadecimal`: small hexadecimal digits, filled up to a width;
* `value`: the number that a sequence of decimal digits denotes.
-/

namespace SpokenCalculator.Text

/-- The decimal digits of a natural number. -/
def ofNat (n : Nat) : Text := Nat.toDigits 10 n

/-- The decimal digits of an integer, after a sign if it is negative. -/
def ofInt : Int → Text
  | .ofNat n => ofNat n
  | .negSucc n => '-' :: ofNat (n + 1)

/-- The hexadecimal digits of a natural number, with zeros in front up to a width. -/
def hexadecimal (width n : Nat) : Text := (Nat.toDigits 16 n).leftpad width '0'

/-- The number that a sequence of decimal digits denotes. -/
def value (digits : Text) : Nat := Nat.ofDigitChars 10 digits 0

@[simp] theorem value_ofNat (n : Nat) : value (ofNat n) = n :=
  Nat.ofDigitChars_toDigits (by decide) (by decide)

end SpokenCalculator.Text
