import SpokenCalculator.Binary64.Decimal
import SpokenCalculator.Json.Basic
import SpokenCalculator.Text.Numeral
import SpokenCalculator.Text.Search

/-!
# Reading of documents

* `Json.ReadError`: why a text is no document;
* `Json.valueAt`: one value and the rest of the text, up to a depth of nesting;
* `Json.read`: the value of a whole document, up to a depth that is given.
-/

namespace SpokenCalculator.Json

/-- Why a text is no document: its form, an integer of too many digits, or values nested too
deeply, in lists or in objects. -/
inductive ReadError
  | malformed
  | longInteger
  | deepArray
  | deepObject
  deriving DecidableEq

/-- A reader of a part of a text gives its value and the rest of the text. -/
abbrev Reader (α : Type) := Text → Except ReadError (α × Text)

/-- A blank between the parts of a document. -/
def isSpace (c : Char) : Bool := c == ' ' || c == '\n' || c == '\r' || c == '\t'

/-- A text without the blanks in front. -/
def skip (t : Text) : Text := t.dropWhile isSpace

/-! ### Strings -/

/-- The value of a hexadecimal digit. -/
def hexValue? (c : Char) : Option Nat :=
  if Text.isAsciiDigit c then some (c.toNat - 0x30)
  else if 'a' ≤ c ∧ c ≤ 'f' then some (c.toNat - 0x57)
  else if 'A' ≤ c ∧ c ≤ 'F' then some (c.toNat - 0x37)
  else none

/-- The code of four hexadecimal digits. -/
def code? (a b c d : Char) : Option Nat := do
  return (((← hexValue? a) * 16 + (← hexValue? b)) * 16 + (← hexValue? c)) * 16 + (← hexValue? d)

/-- The character that a letter after a backslash stands for. -/
def escaped? (c : Char) : Option Char :=
  if c = '"' ∨ c = '\\' ∨ c = '/' then some c
  else if c = 'n' then some '\n'
  else if c = 'r' then some '\r'
  else if c = 't' then some '\t'
  else if c = 'b' then some '\x08'
  else if c = 'f' then some '\x0c'
  else none

/-- The units of a string up to its closing quote: its characters, and what escapes say, by
number. -/
def units : Reader (List Nat)
  | [] => .error .malformed
  | c :: t =>
    if c = '"' then .ok ([], t)
    else if c = '\\' then
      match t with
      | [] => .error .malformed
      | e :: t =>
        if e = 'u' then
          match t with
          | a :: b :: c :: d :: t =>
            match code? a b c d with
            | some n => (units t).map fun (ns, r) => (n :: ns, r)
            | none => .error .malformed
          | _ => .error .malformed
        else
          match escaped? e with
          | some x => (units t).map fun (ns, r) => (x.toNat :: ns, r)
          | none => .error .malformed
    else if c.toNat < 0x20 then .error .malformed
    else (units t).map fun (ns, r) => (c.toNat :: ns, r)

/-- The first half of a character beyond sixteen bits. -/
def isHighHalf (n : Nat) : Bool := 0xd800 ≤ n && n < 0xdc00

/-- The second half of a character beyond sixteen bits. -/
def isLowHalf (n : Nat) : Bool := 0xdc00 ≤ n && n < 0xe000

/-- The text of units, of which two halves make a character.  A half that stands alone is kept. -/
def codesOfUnits : List Nat → Codes
  | [] => []
  | [n] => [.ofNat n]
  | n :: m :: rest =>
    if isHighHalf n && isLowHalf m then
      .ofNat (0x10000 + (n - 0xd800) * 0x400 + (m - 0xdc00)) :: codesOfUnits rest
    else .ofNat n :: codesOfUnits (m :: rest)

/-- A string after its opening quote. -/
def readString (t : Text) : Except ReadError (Codes × Text) :=
  (units t).map fun (ns, r) => (codesOfUnits ns, r)

/-! ### Numbers -/

/-- The digits before the point: a zero alone, or digits that do not begin with one. -/
def readWhole : Text → Except ReadError (Text × Text)
  | [] => .error .malformed
  | c :: t =>
    if c = '0' then .ok ([c], t)
    else if Text.isAsciiDigit c then
      .ok (c :: t.takeWhile Text.isAsciiDigit, t.dropWhile Text.isAsciiDigit)
    else .error .malformed

/-- A point and digits after it, if they are there. -/
def readFraction (t : Text) : Option Text × Text :=
  match t with
  | '.' :: r =>
    if (r.takeWhile Text.isAsciiDigit).isEmpty then (none, t)
    else (some (r.takeWhile Text.isAsciiDigit), r.dropWhile Text.isAsciiDigit)
  | _ => (none, t)

/-- The sign of an exponent, and the rest. -/
def readSign : Text → Bool × Text
  | '-' :: t => (true, t)
  | '+' :: t => (false, t)
  | t => (false, t)

/-- An exponent, if it is there. -/
def readExponent (t : Text) : Option Int × Text :=
  match t with
  | c :: r =>
    if c = 'e' ∨ c = 'E' then
      let (negative, r) := readSign r
      let digits := r.takeWhile Text.isAsciiDigit
      if digits.isEmpty then (none, t)
      else
        (some (if negative then -(Text.value digits : Int) else Text.value digits),
          r.dropWhile Text.isAsciiDigit)
    else (none, t)
  | [] => (none, t)

/-- The number of given digits: an integer if they have neither fraction nor exponent. -/
def numberOf (negative : Bool) (whole : Text) (fraction : Option Text) (exponent : Option Int) :
    Except ReadError Number :=
  if fraction.isNone && exponent.isNone then
    if Number.maxDigits < whole.length then .error .longInteger
    else
      .ok (.int (if negative then -(Text.value whole : Int) else Text.value whole))
  else
    let digits := fraction.getD []
    .ok (.float (.ofDecimal negative
      ⟨Text.value (whole ++ digits), exponent.getD 0 - digits.length⟩))

/-- The digits of a number after its sign. -/
def readUnsigned (negative : Bool) (t : Text) : Except ReadError (Number × Text) := do
  let (whole, r) ← readWhole t
  let (fraction, r) := readFraction r
  let (exponent, r) := readExponent r
  return (← numberOf negative whole fraction exponent, r)

/-- A number. -/
def readNumber : Text → Except ReadError (Number × Text)
  | '-' :: t => readUnsigned true t
  | t => readUnsigned false t

/-! ### Values -/

/-- The values that are words. -/
def words : List (Text × Json) :=
  [("null".toList, .null), ("true".toList, .bool true), ("false".toList, .bool false),
   ("NaN".toList, .number (.float .nan)),
   ("Infinity".toList, .number (.float (.infinite false))),
   ("-Infinity".toList, .number (.float (.infinite true)))]

/-- A word that is a value. -/
def readWord? (t : Text) : Option (Json × Text) :=
  words.findSome? fun (word, v) => (Text.after? word t).map (v, ·)

/-- A value that holds no others. -/
def readScalar (t : Text) : Except ReadError (Json × Text) :=
  match t with
  | '"' :: r => (readString r).map fun (s, r) => (.string s, r)
  | _ =>
    match readWord? t with
    | some result => .ok result
    | none => (readNumber t).map fun (n, r) => (.number n, r)

/-- The items of a list up to its closing bracket, at most a given number. -/
def readItems (value : Reader Json) : Nat → Text → Except ReadError (List Json × Text)
  | 0, _ => .error .malformed
  | n + 1, t => do
    let (v, r) ← value t
    match skip r with
    | ']' :: r => return ([v], r)
    | ',' :: r =>
      let (vs, r) ← readItems value n (skip r)
      return (v :: vs, r)
    | _ => .error .malformed

/-- A key, a colon and a value. -/
def readField (value : Reader Json) (t : Text) : Except ReadError ((Codes × Json) × Text) :=
  match t with
  | '"' :: r => do
    let (key, r) ← readString r
    match skip r with
    | ':' :: r =>
      let (v, r) ← value (skip r)
      return ((key, v), r)
    | _ => .error .malformed
  | _ => .error .malformed

/-- The fields of an object up to its closing brace, at most a given number. -/
def readFields (value : Reader Json) :
    Nat → Text → Except ReadError (List (Codes × Json) × Text)
  | 0, _ => .error .malformed
  | n + 1, t => do
    let (f, r) ← readField value t
    match skip r with
    | '\x7d' :: r => return ([f], r)
    | ',' :: r =>
      let (fs, r) ← readFields value n (skip r)
      return (f :: fs, r)
    | _ => .error .malformed

/-- The fields of an object in which a repeated key has its last value at its first place. -/
def mergeFields (fields : List (Codes × Json)) : Fields :=
  fields.foldl (fun (fs : Fields) f => fs.put f.1 f.2) []

/-- A list after its opening bracket.  Every item takes up a character at least, which bounds their
number. -/
def readArray (value : Reader Json) (t : Text) : Except ReadError (Json × Text) :=
  match skip t with
  | ']' :: r => .ok (.array [], r)
  | r => (readItems value r.length r).map fun (vs, r) => (.array vs, r)

/-- An object after its opening brace. -/
def readObject (value : Reader Json) (t : Text) : Except ReadError (Json × Text) :=
  match skip t with
  | '\x7d' :: r => .ok (.object [], r)
  | r => (readFields value r.length r).map fun (fs, r) => (.object (mergeFields fs), r)

/-- A value with at most a given number of lists and objects within one another. -/
def valueAt : Nat → Reader Json
  | _, [] => .error .malformed
  | 0, c :: t =>
    if c = '[' then .error .deepArray
    else if c = '\x7b' then .error .deepObject
    else readScalar (c :: t)
  | depth + 1, c :: t =>
    if c = '[' then readArray (valueAt depth) t
    else if c = '\x7b' then readObject (valueAt depth) t
    else readScalar (c :: t)

/-- The value of a document, which holds one value and nothing after it.  There is room for so many
lists and objects within one another. -/
def read (room : Nat) (t : Text) : Except ReadError Json := do
  let (v, r) ← valueAt room (skip t)
  if (skip r).isEmpty then return v else .error .malformed

end SpokenCalculator.Json
