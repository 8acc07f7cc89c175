import SpokenCalculator.Expression.Token

/-!
# Operands before operators

The order in which a stack machine takes the tokens of an expression.  An operator waits on a
stack until one that binds no more strongly arrives, so that operators of one strength take their
operands from the left.

* `stackOrderFrom`, `stackOrder`: the tokens with each operator after its operands;
* `stackOrder?`: the same where a token without text is refused.
-/

namespace SpokenCalculator

/-- The tokens in stack order, while operators wait, the last arrived first. -/
def stackOrderFrom (waiting : List Token) : List Token → List Token
  | [] => waiting
  | t :: ts =>
    if t.isNumeral then t :: stackOrderFrom waiting ts
    else
      waiting.takeWhile (fun w => t.precedence ≤ w.precedence) ++
        stackOrderFrom (t :: waiting.dropWhile (fun w => t.precedence ≤ w.precedence)) ts

/-- The tokens of an expression with each operator after its operands. -/
def stackOrder (ts : List Token) : List Token := stackOrderFrom [] ts

/-- The stack order of tokens that all have a text. -/
def stackOrder? (ts : List Token) : Option (List Token) :=
  if ts.any Token.isEmpty then none else some (stackOrder ts)

/-! ### Equations -/

@[simp] theorem stackOrderFrom_nil (w : List Token) : stackOrderFrom w [] = w := rfl

theorem stackOrderFrom_numeral (w : List Token) (n : Text) (ts : List Token) :
    stackOrderFrom w (.numeral n :: ts) = .numeral n :: stackOrderFrom w ts := rfl

theorem stackOrderFrom_operator (w : List Token) (o : Operator) (ts : List Token) :
    stackOrderFrom w (.operator o :: ts) =
      w.takeWhile (fun t => (Token.operator o).precedence ≤ t.precedence) ++
        stackOrderFrom
          (.operator o :: w.dropWhile (fun t => (Token.operator o).precedence ≤ t.precedence)) ts :=
  rfl

/-- No token is lost and none is doubled. -/
theorem stackOrderFrom_perm (w ts : List Token) : (stackOrderFrom w ts).Perm (w ++ ts) := by
  induction ts generalizing w with
  | nil => simp
  | cons t ts ih =>
    rw [stackOrderFrom]
    split
    · exact ((ih w).cons t).trans List.perm_middle.symm
    · refine ((ih _).append_left _).trans ?_
      rw [List.cons_append]
      refine List.perm_middle.trans ?_
      rw [← List.append_assoc, List.takeWhile_append_dropWhile]
      exact List.perm_middle.symm

end SpokenCalculator
