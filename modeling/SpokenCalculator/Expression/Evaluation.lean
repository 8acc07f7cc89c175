import SpokenCalculator.Binary64.Reading
import SpokenCalculator.Expression.StackOrder

/-!
# Evaluation of expressions

A stack machine takes the tokens in stack order.  A minus sign that finds a single operand is the
sign of that operand.  The value is rounded to ten decimal places, which removes the noise of
binary fractions.

* `Fault`: why an expression has no value;
* `Breakdown`, `Halt`: why the machine stops, which for tokens that no expression has may be other
  than a fault;
* `step`, `run`: one token, and all of them;
* `compute`, `evaluate`: the machine on an expression, and the value of an expression.
-/

namespace SpokenCalculator

/-- Why an expression has no value. -/
inductive Fault
  | malformed
  | divisionByZero
  | overflow
  deriving DecidableEq

/-- Why the machine cannot go on with what no expression leads to: a token without text, a
division by zero that no sign asked for, and a value that is not a number or that, once rounded, is
beyond every number. -/
inductive Breakdown
  | emptyToken
  | zeroDivisor
  | notANumber
  | tooLarge
  deriving DecidableEq

/-- What happened, in words. -/
def Breakdown.message : Breakdown → Text
  | emptyToken => "string index out of range".toList
  | zeroDivisor => "float division by zero".toList
  | notANumber => "cannot convert float NaN to integer".toList
  | tooLarge => "int too large to convert to float".toList

/-- Why the stack machine stops. -/
inductive Halt
  | fault (f : Fault)
  | breakdown (b : Breakdown)
  deriving DecidableEq

/-- The fault of an expression on which the machine stops. -/
def Halt.toFault : Halt → Fault
  | fault f => f
  | breakdown _ => .malformed

/-- The result of an operation, rounded. -/
def Operation.apply : Operation → Binary64 → Binary64 → Binary64
  | add, a, b => a + b
  | sub, a, b => a - b
  | mul, a, b => a * b
  | div, a, b => a / b

/-- The operation of a token between two operands.  What is no sign divides. -/
def Token.operation : Token → Operation
  | operator o => o.operation
  | _ => .div

/-- The fault of a division by zero, by the token that asked for it. -/
def Token.zeroDivision : Token → Halt
  | operator _ => .fault .divisionByZero
  | _ => .breakdown .zeroDivisor

/-- A token applied to two operands. -/
def combine (t : Token) (a b : Binary64) : Except Halt Binary64 :=
  if t.operation = .div ∧ b.isZero then .error t.zeroDivision
  else if (t.operation.apply a b).isFinite then .ok (t.operation.apply a b)
  else .error (.fault .overflow)

/-- A token that is no numeral, applied to the operands on the stack. -/
def applyTo (t : Token) : List Binary64 → Except Halt (List Binary64)
  | [] => .error (.fault .malformed)
  | [b] => if t = .operator .minus then .ok [-b] else .error (.fault .malformed)
  | b :: a :: stack => (combine t a b).map (· :: stack)

/-- One token of the stack machine. -/
def step (stack : List Binary64) : Token → Except Halt (List Binary64)
  | .numeral t =>
    if Numeral.isPlain t then .ok (.ofPlain t :: stack) else .error (.fault .malformed)
  | .other [] => .error (.breakdown .emptyToken)
  | t => applyTo t stack

/-- The number of units of the last decimal place in one. -/
def placeScale : Binary64 := .ofInt 10000000000

/-- A whole number of units of the last decimal place. -/
def ofPlaces (n : Int) : Except Halt Binary64 :=
  (Binary64.ofInt? n).elim (.error (.breakdown .tooLarge)) fun x => .ok (x / placeScale)

/-- A number rounded to ten decimal places. -/
def roundPlaces (v : Binary64) : Except Halt Binary64 :=
  match v * placeScale with
  | .nan => .error (.breakdown .notANumber)
  | .infinite _ => .error (.fault .overflow)
  | scaled => ofPlaces scaled.roundToInt

/-- The value that the stack machine leaves: the top of its stack, rounded, and zero if it is
empty. -/
def finish : List Binary64 → Except Halt Binary64
  | [] => .ok .zero
  | v :: _ => roundPlaces v

/-- The stack machine on tokens in stack order. -/
def run (ts : List Token) : Except Halt Binary64 := do
  finish (← ts.foldlM step [])

/-- The stack machine on the tokens of an expression. -/
def compute (expression : Text) : Except Halt Binary64 :=
  match stackOrder? (tokens expression) with
  | none => .error (.breakdown .emptyToken)
  | some ts => run ts

/-- The value of an expression.  One that is blank or without tokens is zero. -/
def evaluate (expression : Text) : Except Fault Binary64 :=
  if Text.trim expression = [] then .ok .zero
  else if tokens expression = [] then .ok .zero
  else (compute expression).mapError Halt.toFault

end SpokenCalculator
