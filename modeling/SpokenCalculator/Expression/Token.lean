import SpokenCalculator.Text.Digit

/-!
# Tokens of an expression

* `Operation`, `Operator`: the four operations and the six signs that stand for them;
* `Token`: a numeral, an operator, or any other text;
* `Token.ofText`, `Token.text`: a token is determined by its text (`text_ofText`);
* `tokens`: the tokens of an expression from left to right.  Digits and points that stand together
  make one numeral, and characters that belong to no token are passed over.
-/

namespace SpokenCalculator

/-- The four operations of arithmetic. -/
inductive Operation
  | add
  | sub
  | mul
  | div
  deriving DecidableEq

/-- The signs of the operations, on the keyboard and on the screen. -/
inductive Operator
  | plus
  | minus
  | star
  | slash
  | cross
  | obelus
  deriving DecidableEq

namespace Operator

/-- The operation that a sign stands for. -/
def operation : Operator → Operation
  | plus => .add
  | minus => .sub
  | star | cross => .mul
  | slash | obelus => .div

def char : Operator → Char
  | plus => '+'
  | minus => '-'
  | star => '*'
  | slash => '/'
  | cross => '×'
  | obelus => '÷'

/-- The sign that a character is. -/
def ofChar? (c : Char) : Option Operator :=
  if c = '+' then some plus
  else if c = '-' then some minus
  else if c = '*' then some star
  else if c = '/' then some slash
  else if c = '×' then some cross
  else if c = '÷' then some obelus
  else none

@[simp] theorem ofChar?_char (o : Operator) : ofChar? o.char = some o := by cases o <;> rfl

theorem char_of_ofChar? {c : Char} {o : Operator} (h : ofChar? c = some o) : o.char = c := by
  unfold ofChar? at h
  repeat' split at h
  all_goals first | (injection h with h; subst h; symm; assumption) | contradiction

end Operator

/-- A token: a text that begins like a number, a sign of an operation, or any other text. -/
inductive Token
  | numeral (t : Text)
  | operator (o : Operator)
  | other (t : Text)
  deriving DecidableEq

namespace Token

/-- A character of numerals. -/
def isNumeralChar (c : Char) : Bool := Text.isAsciiDigit c || c == '.'

/-- The token that a text is. -/
def ofText : Text → Token
  | [] => .other []
  | c :: t =>
    if isNumeralChar c then .numeral (c :: t)
    else if t = [] then ((Operator.ofChar? c).map .operator).getD (.other [c])
    else .other (c :: t)

def text : Token → Text
  | numeral t => t
  | operator o => [o.char]
  | other t => t

/-- Every text is the text of its token. -/
@[simp] theorem text_ofText (t : Text) : (ofText t).text = t := by
  rcases t with _ | ⟨c, t⟩
  · rfl
  · simp only [ofText]
    split
    · rfl
    · split
      · rename_i h
        subst h
        cases ho : Operator.ofChar? c with
        | none => rfl
        | some o => simp [text, Operator.char_of_ofChar? ho]
      · rfl

/-- How strongly a token binds its neighbours as an operator. -/
def precedence : Token → Nat
  | operator .plus | operator .minus => 1
  | operator _ => 2
  | _ => 0

def isNumeral : Token → Bool
  | numeral _ => true
  | _ => false

/-- The token without text. -/
def isEmpty : Token → Bool
  | other [] => true
  | _ => false

end Token

/-! ### The tokens of an expression -/

/-- The numeral that a run of digits and points is, if there is any. -/
def numeralOfRun (run : Text) : List Token := if run = [] then [] else [.numeral run]

/-- The tokens of the rest of an expression after a run of digits and points. -/
def tokensAfter (run : Text) : Text → List Token
  | [] => numeralOfRun run
  | c :: t =>
    if Token.isNumeralChar c then tokensAfter (run ++ [c]) t
    else numeralOfRun run ++ (((Operator.ofChar? c).map .operator).toList ++ tokensAfter [] t)

/-- The tokens of an expression from left to right. -/
def tokens (expression : Text) : List Token := tokensAfter [] expression

end SpokenCalculator
