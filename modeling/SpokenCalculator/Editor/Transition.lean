import SpokenCalculator.Editor.Basic
import SpokenCalculator.Expression.Evaluation
import SpokenCalculator.Expression.ResultText
import SpokenCalculator.Phrase.Expression
import SpokenCalculator.Text.Search

/-!
# The transitions of the line

* `typeDigit` to `solvePhrase`: what each command does to the line, and what is said;
* `press`: a command with all its effects.  Every button is felt, and a change of the line is
  shown.
-/

namespace SpokenCalculator.Editor
open Text

/-- What a command leaves: the line, and what is to be said, shown and recorded. -/
abbrev Outcome := State × List Effect

/-! ### Typing -/

/-- A text at the end of the line and of the number being typed. -/
def State.append (s : State) (t : Text) : State :=
  { s with line := s.line ++ t, operand := s.operand ++ t, evaluated := false }

/-- A digit of the keyboard is typed. -/
def typeDigit (s : State) (label : Codes) : Outcome :=
  match label with
  | [.char c] => if isAsciiDigit c then (s.append [c], [.speak [c]]) else (s, [])
  | _ => (s, [])

/-- A decimal point is typed, unless the number has one. -/
def typePoint (s : State) : Outcome :=
  if s.operand.contains '.' then (s, []) else (s.append ['.'], [.speak "decimal".toList])

/-- The line can take an operator: it is not empty and does not end with one. -/
def State.takesOperator (s : State) : Bool := !(s.line.isEmpty || s.line.getLast? == some ' ')

/-- An operator is typed between spaces. -/
def typeOperator (s : State) (sign : Option Text) : Outcome :=
  match sign.bind Operation.ofSign? with
  | none => (s, [])
  | some o =>
    if s.takesOperator then
      ({ s with line := s.line ++ [' ', o.glyph, ' '], operand := [], evaluated := false },
        [.speak o.name])
    else (s, [])

/-! ### Changes of the number being typed -/

/-- The line with another number in the place of the one being typed. -/
def State.replaceOperand? (s : State) (number : Text) : Option State :=
  (replaceLast? s.operand number s.line).map fun line =>
    { s with line := line, operand := number, evaluated := false }

/-- A hundred. -/
def hundred : Binary64 := .ofInt 100

/-- The number being typed is divided by a hundred. -/
def takePercent (s : State) : Outcome :=
  if s.operand = [] then (s, [])
  else
    match (Binary64.ofText? s.operand).bind fun v =>
      s.replaceOperand? (resultText (v / hundred)) with
    | none => (s, [])
    | some s => (s, [.speak "percent".toList])

/-- The number being typed with the opposite sign, and the name of that sign. -/
def toggled : Text → Text × Text
  | '-' :: number => (number, "positive".toList)
  | number => ('-' :: number, "negative".toList)

/-- The sign of the number being typed is changed. -/
def toggleSign (s : State) : Outcome :=
  if s.operand = [] then (s, [])
  else
    match s.replaceOperand? (toggled s.operand).1 with
    | none => (s, [])
    | some s' => (s', [.speak (toggled s.operand).2])

/-! ### Erasing -/

/-- One of the signs of operations on the screen. -/
def isGlyph (c : Char) : Bool := c == '+' || c == '−' || c == '×' || c == '÷'

/-- The name of an erased character in speech.  One without a name of its own stands for
itself. -/
def charName (c : Char) : Text :=
  match c with
  | '0' => "zero".toList
  | '1' => "one".toList
  | '2' => "two".toList
  | '3' => "three".toList
  | '4' => "four".toList
  | '5' => "five".toList
  | '6' => "six".toList
  | '7' => "seven".toList
  | '8' => "eight".toList
  | '9' => "nine".toList
  | '.' => "decimal point".toList
  | '+' => "plus".toList
  | '−' => "minus".toList
  | '×' => "multiply".toList
  | '÷' => "divide".toList
  | c => [c]

/-- What is said of an erased character. -/
def erasedPhrase (c : Char) : Text :=
  if trim (charName c) = [] then "deleted".toList
  else "deleted ".toList ++ trim (charName c)

/-- A line without its spaces and the character before them; an operator goes with the spaces on
both sides of it. -/
def eraseLast (line : Text) (c : Char) : Text :=
  if isGlyph c then dropTail (· == ' ') (dropTail (· == ' ') line).dropLast
  else (dropTail (· == ' ') line).dropLast

/-- The last character of the line, or the operator at its end, is erased. -/
def erase (s : State) : Except EditError Outcome :=
  if s.line = [] then .ok (s, [])
  else
    match (dropTail (· == ' ') s.line).getLast? with
    | none => .error .nothingToErase
    | some c =>
      .ok ({ s with line := eraseLast s.line c, operand := s.operand.dropLast },
        [.speak (erasedPhrase c)])

/-- The evaluated line is brought back, for a first step back after an evaluation; any other step
back erases. -/
def stepBack (s : State) : Except EditError Outcome :=
  if s.evaluated then
    if s.evaluatedLine = [] then erase { s with evaluated := false }
    else
      .ok ({ s with line := s.evaluatedLine, operand := [], evaluated := false },
        [.speak "restored".toList])
  else erase s

/-! ### Evaluation -/

/-- A sign of the screen as one of the keyboard. -/
def keyboardSign (c : Char) : Char :=
  match c with
  | '×' => '*'
  | '÷' => '/'
  | '−' => '-'
  | c => c

/-- A line as it is evaluated: with the signs of the keyboard and without spaces. -/
def keyboardLine (line : Text) : Text := without ' ' (line.map keyboardSign)

/-- What is said of a result; a learner is told what was solved. -/
def resultPhrase (learning : Bool) (line result : Text) : Text :=
  if learning then
    "Let me solve ".toList ++ line ++ " step by step. The result is ".toList ++ result
  else "Result is ".toList ++ result

/-- An evaluation in the history.  A line of blanks alone is written without its spaces. -/
def historyEntry (line result : Text) : Text :=
  (if trim line = [] then keyboardLine line else line) ++ " = ".toList ++ result

/-- The phrase for a line without a value. -/
def invalidPhrase : Text := "Invalid expression".toList

/-- The line is evaluated and becomes its result. -/
def solve (learning : Bool) (s : State) : Outcome :=
  if s.line = [] then (s, [])
  else
    match evaluate (keyboardLine s.line) with
    | .error _ =>
      ({ s with evaluatedLine := s.line, evaluated := true, failed := true },
        [.speak invalidPhrase, .notify invalidPhrase])
    | .ok v =>
      (⟨resultText v, resultText v, true, s.line, false⟩,
        [.speak (resultPhrase learning (keyboardLine s.line) (resultText v)),
         .record (historyEntry s.line (resultText v))])

/-- The phrase for a silence. -/
def silencePhrase : Text := "No speech detected".toList

/-- A phrase is taken for the line, which is evaluated. -/
def solvePhrase (learning : Bool) (s : State) (heard : Text) : Outcome :=
  if Phrase.expression heard = [] then (s, [.speak silencePhrase, .notify silencePhrase])
  else
    let (s, effects) := solve learning { s with line := Phrase.expression heard, operand := [] }
    (s, .notify ("Heard: ".toList ++ heard) :: effects)

/-! ### All commands -/

/-- What a command does to a line that shows no failure. -/
def act (learning : Bool) (s : State) : Command → Except EditError Outcome
  | .digit label =>
    match label.text with
    | .ok t => .ok (typeDigit s t)
    | .error e => .error (.unshown e)
  | .point => .ok (typePoint s)
  | .operator sign => .ok (typeOperator s sign)
  | .percent => .ok (takePercent s)
  | .sign => .ok (toggleSign s)
  | .backspace => stepBack s
  | .clear => .ok (.empty, [.speak "cleared".toList])
  | .equals => .ok (solve learning s)
  | .phrase heard => .ok (solvePhrase learning s (heard.getD []))
  | .silence code =>
    .ok (s, [.speak (Phrase.failureMessage code), .notify (Phrase.failureMessage code)])
  | .foreign value =>
    match value.shown with
    | .ok t => .error (.unknownCommand t)
    | .error e => .error (.unshown e)

theorem act_digit_eq_ok_iff {learning : Bool} {s : State} {label : Label} {o : Outcome} :
    act learning s (.digit label) = .ok o ↔ ∃ t, label.text = .ok t ∧ typeDigit s t = o := by
  rw [act]
  cases label.text <;> simp

theorem act_foreign_ne_ok (learning : Bool) (s : State) (value : Label) (o : Outcome) :
    act learning s (.foreign value) ≠ .ok o := by
  rw [act]
  cases value.shown <;> simp

/-- Every button is felt. -/
def felt (c : Command) : List Effect := if c.isButton then [.vibrate] else []

/-- A change is shown. -/
def shown (before after : State) : List Effect :=
  if after = before then [] else [.display after.display]

/-- A command with all its effects.  It takes a failure off the screen. -/
def press (learning : Bool) (s : State) (c : Command) : Except EditError Outcome := do
  let (s', effects) ← act learning { s with failed := false } c
  return (s', felt c ++ shown s s' ++ effects)

end SpokenCalculator.Editor
