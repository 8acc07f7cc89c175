import SpokenCalculator.Editor.Basic

/-!
# Buttons

* `buttonCommand?`: the command of the button with a symbol.
-/

namespace SpokenCalculator.Editor

/-- The button of an operator. -/
def operatorButton (sign : Char) : Command := .operator (some [sign])

/-- The buttons other than digits. -/
def buttons : List (Text × Command) :=
  [("=".toList, .equals), ("C".toList, .clear), (".".toList, .point), ("%".toList, .percent),
   ("BACKSPACE".toList, .backspace), ("SIGN".toList, .sign),
   (['+'], operatorButton '+'),
   (['-'], operatorButton '-'), (['−'], operatorButton '-'),
   (['*'], operatorButton '*'), (['×'], operatorButton '*'),
   (['/'], operatorButton '/'), (['÷'], operatorButton '/')]

/-- The command of the button with a symbol, if there is such a button.  A digit of any script is
one. -/
def buttonCommand? (symbol : Text) : Option Command :=
  match symbol with
  | [c] => if Text.isDigit c then some (.digit [c]) else buttons.lookup symbol
  | _ => buttons.lookup symbol

end SpokenCalculator.Editor
