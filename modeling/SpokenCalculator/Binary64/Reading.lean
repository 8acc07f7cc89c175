import SpokenCalculator.Binary64.Decimal
import SpokenCalculator.Text.Numeral

/-!
# Numbers read from text

The notation is free: blanks around it, a sign, digits of any script, single low lines between
digits, a decimal point with digits on at least one side, an exponent, or one of the words for
an infinity and for not-a-number.

* `Numeral.isPlain`: the digits of the keyboard with an optional fraction, as in an expression;
* `Binary64.ofPlain`: the number that such a numeral denotes;
* `Binary64.ofText?`: the number that a free notation denotes.
-/

namespace SpokenCalculator
open Text

/-! ### Plain numerals -/

/-- Digits, optionally followed by a point and more digits. -/
def Numeral.isPlain (t : Text) : Bool :=
  !(t.takeWhile isAsciiDigit).isEmpty &&
    match t.dropWhile isAsciiDigit with
    | [] => true
    | c :: fraction => c == '.' && !fraction.isEmpty && fraction.all isAsciiDigit

/-- The digits of a plain numeral as a decimal fraction. -/
def Decimal.ofPlain (t : Text) : Decimal where
  digits := value (t.filter isAsciiDigit)
  exponent := -((t.dropWhile isAsciiDigit).drop 1).length

/-- The number nearest to a plain numeral. -/
def Binary64.ofPlain (t : Text) : Binary64 := ofDecimal false (.ofPlain t)

/-! ### Free notation -/

/-- A character as one of the keyboard: a blank of any script is a space and a digit of any script
is a digit.  Others have no such form. -/
def Numeral.fold? (c : Char) : Option Char :=
  if c.toNat < 0x80 then some c
  else if isBlank c then some ' '
  else (decimalValue? c).map Nat.digitChar

/-- The spaces and line ends of the keyboard. -/
def Numeral.isMargin (c : Char) : Bool := c == ' ' || (0x09 ≤ c.toNat && c.toNat ≤ 0x0d)

/-- A text without the low lines in it, each of which must stand between two digits. -/
def Numeral.withoutLowLines? (afterDigit : Bool) : Text → Option Text
  | [] => some []
  | ['_'] => none
  | '_' :: d :: t =>
    if afterDigit && isAsciiDigit d then (withoutLowLines? true t).map (d :: ·) else none
  | c :: t => (withoutLowLines? (isAsciiDigit c) t).map (c :: ·)

/-- The sign in front of a text, and the rest. -/
def Numeral.splitSign : Text → Bool × Text
  | '-' :: t => (true, t)
  | '+' :: t => (false, t)
  | t => (false, t)

/-- An integer in digits, after an optional sign. -/
def Numeral.readInt? (t : Text) : Option Int :=
  let (negative, digits) := splitSign t
  if digits.isEmpty || !digits.all isAsciiDigit then none
  else some (if negative then -(value digits : Int) else value digits)

/-- An exponent: nothing, or the letter `e` and an integer. -/
def Numeral.readExponent? : Text → Option Int
  | [] => some 0
  | c :: t => if c == 'e' || c == 'E' then readInt? t else none

/-- Digits with an optional point among them, and an optional exponent. -/
def Numeral.readDecimal? (t : Text) : Option Decimal :=
  let whole := t.takeWhile isAsciiDigit
  let rest := t.dropWhile isAsciiDigit
  let (fraction, rest) :=
    match rest with
    | '.' :: r => (r.takeWhile isAsciiDigit, r.dropWhile isAsciiDigit)
    | _ => ([], rest)
  if whole.isEmpty && fraction.isEmpty then none
  else (readExponent? rest).map fun e => ⟨value (whole ++ fraction), e - fraction.length⟩

namespace Binary64

/-- An unsigned number in keyboard characters, in either case of the letters. -/
def ofUnsigned? (negative : Bool) (t : Text) : Option Binary64 :=
  let small := t.map Char.toLower
  if small = "inf".toList ∨ small = "infinity".toList then some (.infinite negative)
  else if small = "nan".toList then some .nan
  else (Numeral.readDecimal? t).map (ofDecimal negative)

/-- The number that a text denotes in free notation. -/
def ofText? (t : Text) : Option Binary64 := do
  let folded ← t.mapM Numeral.fold?
  let body := dropTail Numeral.isMargin (folded.dropWhile Numeral.isMargin)
  let plain ← Numeral.withoutLowLines? false body
  let (negative, digits) := Numeral.splitSign plain
  ofUnsigned? negative digits

end Binary64
end SpokenCalculator
