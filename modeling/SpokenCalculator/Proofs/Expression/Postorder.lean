import SpokenCalculator.Proofs.Expression.Formula
import SpokenCalculator.Proofs.Expression.Soundness

/-!
# The stack machine computes the value of a formula

The stack order of the tokens of a formula is the postorder of its tree: an operator waits until
what follows releases it, which is the end or an operator that binds no more strongly.  On the
postorder of a tree the machine pushes the value of the tree, or stops with the first fault in the
order of reading.

* `Term.postorder`, `Formula.postorder`: the tokens of a tree, operators after their operands;
* `Releases`: what comes next lets the operators of a strength go;
* `stackOrderFrom_term`, `stackOrderFrom_formula`: the stack order of the tokens of a tree;
* `foldlM_step_term`, `foldlM_step_formula`: the machine on the postorder of a tree;
* `evaluate_of_tokens_eq_chain`: the value of an expression that is a chain of operands.
-/

namespace SpokenCalculator

/-- The tokens of a term, operators after their operands. -/
def Term.postorder : Term Text → List Token
  | operand n => [.numeral n]
  | apply t o _ n => t.postorder ++ [.numeral n, .operator o]

/-- The tokens of a formula, operators and the sign after their operands. -/
def Formula.postorder : Formula Text → List Token
  | term negative t => t.postorder ++ signTokens negative
  | apply s o _ t => s.postorder ++ (t.postorder ++ [.operator o])

/-! ### Stack order -/

theorem precedence_of_tight {o : Operator} (h : o.isTight = true) :
    (Token.operator o).precedence = 2 := by
  cases o <;> first | rfl | cases h

theorem precedence_of_loose {o : Operator} (h : o.isTight = false) :
    (Token.operator o).precedence = 1 := by
  cases o <;> first | rfl | cases h

/-- What comes next is the end, or an operator that binds no more strongly than a bound. -/
def Releases (bound : ℕ) : List Token → Prop
  | [] => True
  | t :: _ => t.isNumeral = false ∧ t.precedence ≤ bound

theorem Releases.mono {a b : ℕ} (h : a ≤ b) {k : List Token} (hk : Releases a k) :
    Releases b k := by
  cases k with
  | nil => trivial
  | cons t k => exact ⟨hk.1, hk.2.trans h⟩

theorem releases_operator (o : Operator) (k : List Token) :
    Releases (Token.operator o).precedence (.operator o :: k) := ⟨rfl, le_rfl⟩

theorem releases_two_operator (o : Operator) (k : List Token) : Releases 2 (.operator o :: k) :=
  (releases_operator o k).mono (by cases o <;> decide)

/-- What waits on top is released. -/
theorem stackOrderFrom_release {t : Token} (w : List Token) {k : List Token}
    (hk : Releases t.precedence k) :
    stackOrderFrom (t :: w) k = t :: stackOrderFrom w k := by
  cases k with
  | nil => rfl
  | cons u k =>
    rw [stackOrderFrom, stackOrderFrom, if_neg (by simp [hk.1]), if_neg (by simp [hk.1]),
      List.takeWhile_cons_of_pos (by simpa using hk.2),
      List.dropWhile_cons_of_pos (by simpa using hk.2), List.cons_append]

/-- What waits binds less strongly than a bound. -/
def Below (bound : ℕ) (w : List Token) : Prop := ∀ t ∈ w.head?, t.precedence < bound

theorem below_nil (bound : ℕ) : Below bound [] := fun _ h => by cases h

/-- A loose operator binds less strongly than a tight one. -/
theorem below_of_loose {o : Operator} (h : o.isTight = false) (w : List Token) :
    Below 2 (.operator o :: w) := by
  intro t ht
  cases ht
  rw [precedence_of_loose h]
  decide

/-- An operator waits where all that waits binds less strongly. -/
theorem stackOrderFrom_wait {w : List Token} (o : Operator)
    (hw : Below (Token.operator o).precedence w) (k : List Token) :
    stackOrderFrom w (.operator o :: k) = stackOrderFrom (.operator o :: w) k := by
  rw [stackOrderFrom_operator]
  cases w with
  | nil => rfl
  | cons t w =>
    have ht : ¬ (Token.operator o).precedence ≤ t.precedence := not_le.2 (hw t rfl)
    rw [List.takeWhile_cons_of_neg (by simpa using ht),
      List.dropWhile_cons_of_neg (by simpa using ht), List.nil_append]

/-- The stack order of a term is its postorder, whatever binds less strongly may wait. -/
theorem stackOrderFrom_term (t : Term Text) {w k : List Token} (hw : Below 2 w)
    (hk : Releases 2 k) :
    stackOrderFrom w (t.tokens ++ k) = t.postorder ++ stackOrderFrom w k := by
  induction t generalizing k with
  | operand n => rfl
  | apply t o tight n ih =>
    -- the operator waits for its operand, and then what follows releases it
    have hprec := precedence_of_tight tight
    rw [Term.tokens, Term.postorder, List.append_assoc, List.append_assoc]
    calc
      stackOrderFrom w (t.tokens ++ .operator o :: .numeral n :: k)
          = t.postorder ++ stackOrderFrom w (.operator o :: .numeral n :: k) :=
        ih (releases_two_operator o _)
      _ = t.postorder ++ .numeral n :: stackOrderFrom (.operator o :: w) k := by
        rw [stackOrderFrom_wait o (hprec ▸ hw), stackOrderFrom_numeral]
      _ = t.postorder ++ .numeral n :: .operator o :: stackOrderFrom w k := by
        rw [stackOrderFrom_release w (hprec ▸ hk)]

/-- The stack order of a formula is its postorder. -/
theorem stackOrderFrom_formula (s : Formula Text) {k : List Token} (hk : Releases 1 k) :
    stackOrderFrom [] (s.tokens ++ k) = s.postorder ++ stackOrderFrom [] k := by
  induction s generalizing k with
  | term negative t =>
    have hk2 := hk.mono (b := 2) (by decide)
    cases negative with
    | false =>
      rw [Formula.postorder, signTokens, if_neg Bool.false_ne_true, List.append_nil]
      exact stackOrderFrom_term t (below_nil 2) hk2
    | true =>
      rw [Formula.tokens, Formula.postorder, signTokens, if_pos rfl, List.append_assoc,
        List.append_assoc]
      calc
        -- a sign in front waits for the whole term
        stackOrderFrom [] (.operator .minus :: (t.tokens ++ k))
            = stackOrderFrom [.operator .minus] (t.tokens ++ k) :=
          stackOrderFrom_wait .minus (below_nil _) _
        _ = t.postorder ++ stackOrderFrom [.operator .minus] k :=
          stackOrderFrom_term t (below_of_loose rfl []) hk2
        _ = t.postorder ++ .operator .minus :: stackOrderFrom [] k := by
          rw [stackOrderFrom_release (t := .operator .minus) [] hk]
  | apply s o loose t ih =>
    have hprec := precedence_of_loose loose
    rw [Formula.tokens, Formula.postorder, List.append_assoc, List.append_assoc,
      List.append_assoc, List.cons_append]
    calc
      stackOrderFrom [] (s.tokens ++ .operator o :: (t.tokens ++ k))
          = s.postorder ++ stackOrderFrom [] (.operator o :: (t.tokens ++ k)) :=
        ih (hprec ▸ releases_operator o _)
      _ = s.postorder ++ stackOrderFrom [.operator o] (t.tokens ++ k) := by
        rw [stackOrderFrom_wait o (below_nil _)]
      _ = s.postorder ++ (t.postorder ++ stackOrderFrom [.operator o] k) := by
        rw [stackOrderFrom_term t (below_of_loose loose []) (hk.mono (by decide))]
      _ = s.postorder ++ (t.postorder ++ .operator o :: stackOrderFrom [] k) := by
        rw [stackOrderFrom_release [] (hprec ▸ hk)]

theorem stackOrder_tokens (s : Formula Text) : stackOrder s.tokens = s.postorder := by
  have h := stackOrderFrom_formula s (k := []) trivial
  rwa [List.append_nil, stackOrderFrom_nil, List.append_nil] at h

/-! ### The machine on a postorder -/

/-- A value on top of a stack, or the fault in its place. -/
def pushed (stack : List Binary64) : Except Fault Binary64 → Except Halt (List Binary64)
  | .ok v => .ok (v :: stack)
  | .error f => .error (.fault f)

theorem step_numeral (stack : List Binary64) (n : Text) :
    step stack (.numeral n) = pushed stack (readNumeral n) := by
  rw [step, readNumeral]
  split <;> rfl

theorem combine_operator (o : Operator) (a b : Binary64) :
    combine (.operator o) a b = (operate o.operation a b).mapError Halt.fault := by
  unfold operate
  split
  · rename_i hz
    exact if_pos hz
  · rename_i hz
    split
    · rename_i hf
      exact (if_neg hz).trans (if_pos hf)
    · rename_i hf
      exact (if_neg hz).trans (if_neg hf)

theorem step_operator (stack : List Binary64) (o : Operator) (a b : Binary64) :
    step (b :: a :: stack) (.operator o) = pushed stack (operate o.operation a b) := by
  show (combine (.operator o) a b).map (· :: stack) = _
  rw [combine_operator]
  rcases operate o.operation a b with f | v <;> rfl

theorem step_minus (a : Binary64) : step [a] (.operator .minus) = .ok [-a] := rfl

/-- **The machine pushes the value of a term.** -/
theorem foldlM_step_term (t : Term Text) (stack : List Binary64) :
    t.postorder.foldlM step stack = pushed stack (t.value readNumeral) := by
  induction t generalizing stack with
  | operand n =>
    rw [Term.postorder, List.foldlM_cons, step_numeral]
    exact bind_pure _
  | apply t o tight n ih =>
    rw [Term.postorder, List.foldlM_append, ih, Term.value]
    rcases t.value readNumeral with f | a
    · rfl
    · show [Token.numeral n, .operator o].foldlM step (a :: stack) = _
      rw [List.foldlM_cons, step_numeral]
      rcases readNumeral n with f | b
      · rfl
      · show [Token.operator o].foldlM step (b :: a :: stack) = _
        rw [List.foldlM_cons, step_operator]
        exact bind_pure _

/-- An operation on what two postorders push. -/
theorem foldlM_step_operation {ts : List Token} {x : Except Fault Binary64}
    (hts : ts.foldlM step [] = pushed [] x) (t : Term Text) (o : Operator) :
    (ts ++ (t.postorder ++ [Token.operator o])).foldlM step [] =
      pushed [] (x >>= fun a => t.value readNumeral >>= operate o.operation a) := by
  rw [List.foldlM_append, hts]
  rcases x with f | a
  · rfl
  · show (t.postorder ++ [Token.operator o]).foldlM step [a] = _
    rw [List.foldlM_append, foldlM_step_term]
    rcases t.value readNumeral with f | b
    · rfl
    · show [Token.operator o].foldlM step [b, a] = _
      rw [List.foldlM_cons, step_operator]
      exact bind_pure _

/-- **The machine pushes the value of a formula.** -/
theorem foldlM_step_formula (s : Formula Text) :
    s.postorder.foldlM step [] = pushed [] (s.value readNumeral) := by
  induction s with
  | term negative t =>
    rw [Formula.postorder, List.foldlM_append, foldlM_step_term, Formula.value]
    rcases t.value readNumeral with f | a
    · rfl
    · cases negative <;> rfl
  | apply s o loose t ih => exact foldlM_step_operation ih t o

/-! ### The value of an expression -/

theorem readNumeral_ne_nan (t : Text) : readNumeral t ≠ .ok .nan := by
  unfold readNumeral
  split
  · intro h
    exact ofPlain_ne_nan t (Except.ok.inj h)
  · rintro ⟨⟩

/-- A number is rounded as a value is. -/
theorem mapError_roundPlaces {v : Binary64} (hv : v ≠ .nan) :
    (roundPlaces v).mapError Halt.toFault = roundValue v := by
  cases v with
  | nan => exact absurd rfl hv
  | infinite s => rw [roundPlaces_infinite, roundValue, infinite_mul_placeScale]; rfl
  | finite s r hr =>
    have hmul := mul_placeScale s hr
    split_ifs at hmul with hs
    · rw [roundPlaces_of_finite hmul, roundValue, hmul,
        ofPlaces_of_isFinite (isFinite_ofInt_roundToInt s hs)]
      rfl
    · rw [roundPlaces_of_infinite hmul, roundValue, hmul]
      rfl

theorem formula_tokens_ne_nil (s : Formula Text) : s.tokens ≠ [] := by
  cases s with
  | term negative t => cases t <;> simp [Formula.tokens, Term.tokens]
  | apply s o loose t => simp [Formula.tokens]

/-- An expression has the rounded value of what the machine pushes. -/
theorem evaluate_of_pushed {e : Text} {x : Except Fault Binary64} (hne : tokens e ≠ [])
    (hx : x ≠ .ok .nan) (h : (stackOrder (tokens e)).foldlM step [] = pushed [] x) :
    evaluate e = x >>= roundValue := by
  rw [evaluate_eq, if_neg hne, compute_eq, run, h]
  rcases x with f | v
  · rfl
  · exact mapError_roundPlaces fun hv => hx (congrArg _ hv)

/-- An expression has the value of its formula. -/
theorem evaluate_of_tokens_eq {s : Formula Text} {e : Text} (h : tokens e = s.tokens) :
    evaluate e = s.result readNumeral := by
  refine evaluate_of_pushed (h ▸ formula_tokens_ne_nil s) (s.value_ne_nan readNumeral_ne_nan) ?_
  rw [h, stackOrder_tokens, foldlM_step_formula]

/-- **Expressions are evaluated by precedence and from left to right.**  One that is a chain of
operands, perhaps with a sign in front, has the value of the formula of this chain, or its first
fault. -/
theorem evaluate_of_tokens_eq_chain {e n : Text} {negative : Bool} {rest : List (Operator × Text)}
    (h : tokens e = signTokens negative ++ .numeral n :: rest.flatMap pairTokens) :
    evaluate e = (Formula.ofChain negative n rest).result readNumeral :=
  evaluate_of_tokens_eq (h.trans (Formula.tokens_ofChain negative n rest).symm)

theorem evaluate_negative_product_plus :
    evaluate "-2×3+4".toList =
      (Formula.ofChain true ['2'] [(.cross, ['3']), (.plus, ['4'])]).result readNumeral :=
  evaluate_of_tokens_eq_chain (by decide)

end SpokenCalculator
