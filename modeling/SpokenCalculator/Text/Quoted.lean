import SpokenCalculator.Text.Codes
import SpokenCalculator.Text.Numeral
import SpokenCalculator.Text.Printable

/-!
# Quoted text

* `Quoted.message`: a text between quotes as messages show it, with an escape for whatever has no
  visible form;
* `Quoted.document`: a text between double quotes as documents hold it, with an escape only for
  controls, the quote and the backslash.
-/

namespace SpokenCalculator.Text.Quoted

/-! ### In messages -/

/-- The quote around a text in a message: single, unless only that one is in the text. -/
def messageQuote (t : Codes) : Char :=
  if t.contains (.char '\'') && !t.contains (.char '"') then '"' else '\''

/-- The form of a code point without visible form, in as few digits as it allows. -/
def codeEscape (n : Nat) : Text :=
  if n < 0x100 then '\\' :: 'x' :: hexadecimal 2 n
  else if n < 0x10000 then '\\' :: 'u' :: hexadecimal 4 n
  else '\\' :: 'U' :: hexadecimal 8 n

/-- A character between given quotes in a message. -/
def messageChar (quote c : Char) : Text :=
  if c = '\\' ∨ c = quote then ['\\', c]
  else if c = '\n' then ['\\', 'n']
  else if c = '\r' then ['\\', 'r']
  else if c = '\t' then ['\\', 't']
  else if isPrintable c then [c]
  else codeEscape c.toNat

/-- A character or a lone half, which has no visible form, in a message. -/
def messageCode (quote : Char) : Code → Text
  | .char c => messageChar quote c
  | .half n => codeEscape (Code.half n).toNat

/-- A text as a message shows it. -/
def message (t : Codes) : Text :=
  messageQuote t :: t.flatMap (messageCode (messageQuote t)) ++ [messageQuote t]

/-! ### In documents -/

/-- A character between the quotes of a document. -/
def documentChar (c : Char) : Text :=
  if c = '"' ∨ c = '\\' then ['\\', c]
  else if c = '\n' then ['\\', 'n']
  else if c = '\r' then ['\\', 'r']
  else if c = '\t' then ['\\', 't']
  else if c = '\x08' then ['\\', 'b']
  else if c = '\x0c' then ['\\', 'f']
  else if c.toNat < 0x20 then '\\' :: 'u' :: hexadecimal 4 c.toNat
  else [c]

/-- A character or a lone half, which stands for itself, between the quotes of a document. -/
def documentCode : Code → Codes
  | .char c => (documentChar c).codes
  | .half n => [.half n]

/-- A text as a document holds it. -/
def document (t : Codes) : Codes := .char '"' :: t.flatMap documentCode ++ [.char '"']

end SpokenCalculator.Text.Quoted
