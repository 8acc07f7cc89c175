import SpokenCalculator.Expression.Evaluation
import SpokenCalculator.Proofs.Binary64.Operation

/-!
# Formulas

The grammar of expressions and its meaning.  A formula is a sum of terms, a term is a product or
quotient of operands, and both take their operators from left to right.  A sign in front of a
formula belongs to its whole first term.

* `Term`, `Formula`: the syntax trees, over any kind of operands;
* `Formula.snoc`, `Formula.ofChain`: one more operator and operand, and the tree of a chain of them;
* `Formula.map`: the same tree over other operands;
* `Formula.tokens`: the tokens of a tree from left to right;
* `Formula.value`, `Formula.result`: the value, in the order of reading, and the rounded value.
-/

namespace SpokenCalculator

/-- The operator multiplies or divides, and binds more strongly than the others. -/
def Operator.isTight (o : Operator) : Bool := o.operation == .mul || o.operation == .div

/-- Operands joined by multiplication and division. -/
inductive Term (α : Type)
  | operand (n : α)
  | apply (t : Term α) (o : Operator) (tight : o.isTight = true) (n : α)

/-- Terms joined by addition and subtraction, with or without a sign in front. -/
inductive Formula (α : Type)
  | term (negative : Bool) (t : Term α)
  | apply (s : Formula α) (o : Operator) (loose : o.isTight = false) (t : Term α)

section Chains

variable {α β : Type}

/-- A formula whose last term goes on. -/
def Formula.extend : Formula α → (o : Operator) → o.isTight = true → α → Formula α
  | term negative t, o, h, n => term negative (t.apply o h n)
  | apply s p loose t, o, h, n => s.apply p loose (t.apply o h n)

/-- A formula with one more operator and operand. -/
def Formula.snoc (s : Formula α) (o : Operator) (n : α) : Formula α :=
  if h : o.isTight = true then s.extend o h n
  else s.apply o (Bool.not_eq_true _ |>.mp h) (.operand n)

/-- The formula of an operand, perhaps with a sign, and of the operators and operands after it. -/
def Formula.ofChain (negative : Bool) (n : α) (rest : List (Operator × α)) : Formula α :=
  rest.foldl (fun s p => s.snoc p.1 p.2) (term negative (.operand n))

/-- A term with other operands. -/
def Term.map (f : α → β) : Term α → Term β
  | operand n => operand (f n)
  | apply t o h n => (t.map f).apply o h (f n)

/-- A formula with other operands. -/
def Formula.map (f : α → β) : Formula α → Formula β
  | term negative t => term negative (t.map f)
  | apply s o h t => (s.map f).apply o h (t.map f)

theorem Formula.snoc_of_tight (s : Formula α) {o : Operator} (h : o.isTight = true) (n : α) :
    s.snoc o n = s.extend o h n := dif_pos h

theorem Formula.snoc_of_loose (s : Formula α) {o : Operator} (h : o.isTight = false) (n : α) :
    s.snoc o n = s.apply o h (.operand n) := dif_neg (by simp [h])

end Chains

/-! ### Tokens -/

/-- The tokens of a term from left to right. -/
def Term.tokens : Term Text → List Token
  | operand n => [.numeral n]
  | apply t o _ n => t.tokens ++ [.operator o, .numeral n]

/-- The sign in front of a formula. -/
def signTokens (negative : Bool) : List Token := if negative then [.operator .minus] else []

/-- The tokens of a formula from left to right. -/
def Formula.tokens : Formula Text → List Token
  | term negative t => signTokens negative ++ t.tokens
  | apply s o _ t => s.tokens ++ .operator o :: t.tokens

/-- An operator and the operand after it. -/
def pairTokens (p : Operator × Text) : List Token := [.operator p.1, .numeral p.2]

theorem Formula.tokens_snoc (s : Formula Text) (o : Operator) (n : Text) :
    (s.snoc o n).tokens = s.tokens ++ pairTokens (o, n) := by
  cases h : o.isTight with
  | false => rw [snoc_of_loose s h]; rfl
  | true =>
    rw [snoc_of_tight s h]
    cases s <;> simp [extend, tokens, Term.tokens, pairTokens]

theorem Formula.tokens_foldl_snoc (rest : List (Operator × Text)) (s : Formula Text) :
    (rest.foldl (fun s p => s.snoc p.1 p.2) s).tokens = s.tokens ++ rest.flatMap pairTokens := by
  induction rest generalizing s with
  | nil => simp
  | cons p rest ih => rw [List.foldl_cons, ih, tokens_snoc]; simp

theorem Formula.tokens_ofChain (negative : Bool) (n : Text) (rest : List (Operator × Text)) :
    (ofChain negative n rest).tokens =
      signTokens negative ++ .numeral n :: rest.flatMap pairTokens := by
  rw [ofChain, tokens_foldl_snoc]
  simp [tokens, Term.tokens]

/-! ### Values -/

/-- The number that a run of digits and points denotes. -/
def readNumeral (t : Text) : Except Fault Binary64 :=
  if Numeral.isPlain t then .ok (.ofPlain t) else .error .malformed

/-- An operation on two numbers, which must not divide by either zero, and whose result must be
finite. -/
def operate (o : Operation) (a b : Binary64) : Except Fault Binary64 :=
  if o = .div ∧ b.isZero = true then .error .divisionByZero
  else if (o.apply a b).isFinite then .ok (o.apply a b)
  else .error .overflow

/-- A number, or its opposite. -/
def withSign (negative : Bool) (v : Binary64) : Binary64 := if negative then -v else v

/-- A value rounded to ten decimal places, which must not be infinite when it is scaled. -/
def roundValue (v : Binary64) : Except Fault Binary64 :=
  match v * placeScale with
  | .infinite _ => .error .overflow
  | scaled => .ok (.ofInt scaled.roundToInt / placeScale)

theorem operate_ne_nan (o : Operation) (a b : Binary64) : operate o a b ≠ .ok .nan := by
  unfold operate
  split
  · rintro ⟨⟩
  · split
    · rename_i hf
      intro h
      rw [Except.ok.inj h] at hf
      cases hf
    · rintro ⟨⟩

theorem bind_ne_nan {α : Type} (x : Except Fault α) {f : α → Except Fault Binary64}
    (hf : ∀ a, f a ≠ .ok .nan) : x >>= f ≠ .ok .nan := by
  cases x with
  | error e => rintro ⟨⟩
  | ok a => exact hf a

section Values

variable {α : Type} (read : α → Except Fault Binary64)

/-- The value of a term, from left to right. -/
def Term.value : Term α → Except Fault Binary64
  | operand n => read n
  | apply t o _ n => do
    let a ← t.value
    let b ← read n
    operate o.operation a b

/-- The value of a formula, from left to right. -/
def Formula.value : Formula α → Except Fault Binary64
  | term negative t => (t.value read).map (withSign negative)
  | apply s o _ t => do
    let a ← s.value
    let b ← t.value read
    operate o.operation a b

theorem Term.value_map {β : Type} (f : β → α) (t : Term β) :
    (t.map f).value read = t.value (read ∘ f) := by
  induction t with
  | operand n => rfl
  | apply t o h n ih => rw [map, value, value, ih]; rfl

theorem Formula.value_map {β : Type} (f : β → α) (s : Formula β) :
    (s.map f).value read = s.value (read ∘ f) := by
  induction s with
  | term negative t => rw [map, value, value, Term.value_map]
  | apply s o h t ih => rw [map, value, value, Term.value_map, ih]

variable {read} in
/-- The value of a term is a number if its operands are. -/
theorem Term.value_ne_nan (hread : ∀ a, read a ≠ .ok .nan) (t : Term α) :
    t.value read ≠ .ok .nan := by
  cases t with
  | operand n => exact hread n
  | apply t o tight n =>
    exact bind_ne_nan _ fun a => bind_ne_nan _ fun b => operate_ne_nan o.operation a b

theorem withSign_ne_nan (negative : Bool) {v : Binary64} (h : v ≠ .nan) :
    withSign negative v ≠ .nan := by
  cases negative with
  | false => exact h
  | true => exact Binary64.neg_ne_nan h

variable {read} in
/-- The value of a formula is a number if its operands are. -/
theorem Formula.value_ne_nan (hread : ∀ a, read a ≠ .ok .nan) (s : Formula α) :
    s.value read ≠ .ok .nan := by
  cases s with
  | term negative t =>
    rw [value]
    rcases hv : t.value read with f | a
    · rintro ⟨⟩
    · have ha : a ≠ .nan := by
        rintro rfl
        exact t.value_ne_nan hread hv
      intro h
      exact withSign_ne_nan negative ha (Except.ok.inj h)
  | apply s o loose t =>
    exact bind_ne_nan _ fun a => bind_ne_nan _ fun b => operate_ne_nan o.operation a b

/-- The rounded value of a formula. -/
def Formula.result (s : Formula α) : Except Fault Binary64 := s.value read >>= roundValue

variable {read}

theorem Formula.result_of_value {s : Formula α} {v : Binary64} (h : s.value read = .ok v) :
    s.result read = roundValue v := by
  rw [result, h]
  rfl

theorem Formula.result_of_fault {s : Formula α} {f : Fault} (h : s.value read = .error f) :
    s.result read = .error f := by
  rw [result, h]
  rfl

end Values

end SpokenCalculator
