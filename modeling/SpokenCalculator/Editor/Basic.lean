import SpokenCalculator.Expression.Token
import SpokenCalculator.Json.Writer

/-!
# The line under edit

* `State`: the line, the number at its end that is being typed, and what is left of the last
  evaluation;
* `Label`: the value of a command, and its text, if it has one;
* `Command`: what a user asks for, by a button or by voice;
* `Effect`: what is to be said, shown, felt and recorded;
* `Operation.glyph`, `Operation.name`, `Operation.ofSign?`: the operations on the screen, in
  speech and as they are asked for.
-/

namespace SpokenCalculator

namespace Operation

/-- The sign of an operation on the screen. -/
def glyph : Operation → Char
  | add => '+'
  | sub => '−'
  | mul => '×'
  | div => '÷'

/-- The name of an operation in speech. -/
def name : Operation → Text
  | add => "plus".toList
  | sub => "minus".toList
  | mul => "multiply".toList
  | div => "divide".toList

/-- The operation that is asked for by a sign of the keyboard or of the screen. -/
def ofSign? (sign : Text) : Option Operation :=
  if sign = ['+'] then some add
  else if sign = ['-'] ∨ sign = ['−'] then some sub
  else if sign = ['*'] ∨ sign = ['×'] then some mul
  else if sign = ['/'] ∨ sign = ['÷'] then some div
  else none

@[simp] theorem ofSign?_glyph (o : Operation) : ofSign? [o.glyph] = some o := by
  cases o <;> decide

end Operation

namespace Editor

/-- The line under edit.  `operand` is the number being typed, at the end of the line; `evaluated`
holds from an evaluation to the next change, `evaluatedLine` is the line that was evaluated, and
`failed` holds while the screen shows that it had no value. -/
structure State where
  line : Text
  operand : Text
  evaluated : Bool
  evaluatedLine : Text
  failed : Bool
  deriving DecidableEq

namespace State

/-- The line before anything is typed. -/
def empty : State := ⟨[], [], false, [], false⟩

/-- What the screen shows. -/
def display (s : State) : Text :=
  if s.failed then "Error".toList
  else if s.line = [] then ['0']
  else s.line

end State

/-- The value of a command, and for how many lists and objects within one another there is room on
the stack where it is shown. -/
structure Label where
  value : Json
  room : Nat

namespace Label

/-- The label that is a text. -/
def ofText (t : Text) : Label := ⟨.string t, 0⟩

instance : Coe Text Label := ⟨ofText⟩

/-- The text of a label, if its value has one. -/
def text (l : Label) : Except Json.TextError Codes := l.value.label l.room

/-- A label as a message shows it, if its value has a text. -/
def shown (l : Label) : Except Json.TextError Text := l.value.shown l.room

@[simp] theorem text_ofText (t : Text) : (ofText t).text = .ok t.codes := rfl

end Label

/-- What a user asks for: a button with its label where that matters, a phrase that was heard, the
reason why none was, or something unknown. -/
inductive Command
  | digit (label : Label)
  | point
  | operator (sign : Option Text)
  | percent
  | sign
  | backspace
  | clear
  | equals
  | phrase (heard : Option Text)
  | silence (code : Option Text)
  | foreign (value : Label)

/-- The command comes from a button. -/
def Command.isButton : Command → Bool
  | .phrase _ | .silence _ => false
  | _ => true

/-- What is to be said, felt, shown on the screen, recorded in the history, or notified. -/
inductive Effect
  | speak (t : Text)
  | vibrate
  | display (t : Text)
  | record (entry : Text)
  | notify (t : Text)
  deriving DecidableEq

/-- Why a command cannot be carried out: it is unknown, its value has no text, or the line holds
nothing but spaces. -/
inductive EditError
  | unknownCommand (shown : Text)
  | unshown (e : Json.TextError)
  | nothingToErase
  deriving DecidableEq

/-- What happened, in words. -/
def EditError.message : EditError → Text
  | unknownCommand shown => "Comando desconocido: ".toList ++ shown
  | unshown e => e.message
  | nothingToErase => "string index out of range".toList

end Editor
end SpokenCalculator
