import SpokenCalculator.Proofs.Expression.ResultText

/-!
# A sign after an operator

An expression has no token for the sign of an operand: a minus sign is an operator, and it is read
as a sign only where the stack holds a single number.  After an operator it is a second operator.
The first one is then applied before its right operand is there.  If it is of the loose kind it
stands alone on the stack.  If it is of the tight kind it takes the wrong operands, and the loose
operator before it, if there is any, stands alone.  A minus sign that stands alone changes the sign
of the stack, any other operator is a fault.

* `signedResult`: the value that is meant;
* `Formula.lone`, `Formula.pending`, `Formula.misread`: the operator that stands alone, the number
  that it finds, and the value that is computed instead;
* `Formula.ReadsSign`: when both are the same;
* `evaluate_signed`, `evaluate_signed_iff`: what is computed, and when it is what is meant.
-/

namespace SpokenCalculator
open Binary64

/-! ### What is meant -/

/-- The number that a numeral with or without a sign denotes. -/
def readSigned (p : Bool × Text) : Except Fault Binary64 := (readNumeral p.2).map (withSign p.1)

/-- The value of a formula with one more operator and an operand with a sign of its own. -/
def Formula.signedResult (s : Formula Text) (o : Operator) (n : Text) : Except Fault Binary64 :=
  ((s.map fun t => (false, t)).snoc o (true, n)).result readSigned

/-! ### What is computed -/

/-- The operator that stands alone when a sign follows an operator. -/
def Formula.lone {α : Type} (s : Formula α) (o : Operator) : Operator :=
  if o.isTight then
    match s with
    | term _ _ => o
    | apply _ p _ _ => p
  else o

/-- The number that the operator standing alone finds. -/
def Formula.pending (s : Formula Text) (o : Operator) : Except Fault Binary64 :=
  if o.isTight then
    match s with
    | term _ t => t.value readNumeral
    | apply s _ _ t =>
      s.value readNumeral >>= fun a => t.value readNumeral >>= operate o.operation a
  else s.value readNumeral

/-- The tokens that have been executed before the operator that stands alone. -/
def Formula.pendingOrder (s : Formula Text) (o : Operator) : List Token :=
  if o.isTight then
    match s with
    | term _ t => t.postorder
    | apply s _ _ t => s.postorder ++ (t.postorder ++ [.operator o])
  else s.postorder

/-- The value that is computed when a sign and a number follow an operator. -/
def Formula.misread (s : Formula Text) (o : Operator) (b : Binary64) : Except Fault Binary64 :=
  s.pending o >>= fun a =>
    if s.lone o = .minus then operate .sub (-a) b else .error .malformed

/-- The formula has no sign in front. -/
def Formula.IsUnsigned {α : Type} : Formula α → Prop
  | term negative _ => negative = false
  | apply s _ _ _ => s.IsUnsigned

theorem isUnsigned_snoc {α : Type} {s : Formula α} (hs : s.IsUnsigned) (o : Operator) (n : α) :
    (s.snoc o n).IsUnsigned := by
  cases ho : o.isTight with
  | false => rwa [Formula.snoc_of_loose s ho]
  | true =>
    rw [Formula.snoc_of_tight s ho]
    cases s <;> exact hs

theorem isUnsigned_ofChain {α : Type} (n : α) (rest : List (Operator × α)) :
    (Formula.ofChain false n rest).IsUnsigned := by
  have hfold : ∀ s : Formula α, s.IsUnsigned →
      (rest.foldl (fun s p => s.snoc p.1 p.2) s).IsUnsigned := by
    intro s hs
    induction rest generalizing s with
    | nil => exact hs
    | cons p rest ih => exact ih _ (isUnsigned_snoc hs p.1 p.2)
  exact hfold _ rfl

/-- The tokens of a formula that is followed by an operator, a sign and an operand. -/
def Formula.signedTokens (s : Formula Text) (o : Operator) (n : Text) : List Token :=
  s.tokens ++ [.operator o, .operator .minus, .numeral n]

/-- An operator that what follows lets go has no right operand yet.  It is executed after what is
pending, or it goes with what is pending and the loose operator before it is executed after that. -/
theorem stackOrderFrom_pending {s : Formula Text} (hs : s.IsUnsigned) (o : Operator)
    {k : List Token} (hk : Releases 1 k) :
    stackOrderFrom [] (s.tokens ++ .operator o :: k) =
      s.pendingOrder o ++ .operator (s.lone o) :: stackOrderFrom [] k := by
  have hk2 := hk.mono (b := 2) (by decide)
  cases ho : o.isTight with
  | false =>
    have hprec := precedence_of_loose ho
    simp only [Formula.pendingOrder, Formula.lone, ho, Bool.false_eq_true, if_false]
    rw [stackOrderFrom_formula s (hprec ▸ releases_operator o _),
      stackOrderFrom_wait o (below_nil _), stackOrderFrom_release [] (hprec ▸ hk)]
  | true =>
    have hprec := precedence_of_tight ho
    have hreleases := releases_two_operator o k
    cases s with
    | term negative t =>
      cases hs
      simp only [Formula.pendingOrder, Formula.lone, ho, if_true]
      show stackOrderFrom [] (t.tokens ++ _) = _
      rw [stackOrderFrom_term t (below_nil 2) hreleases, stackOrderFrom_wait o (below_nil _),
        stackOrderFrom_release [] (hprec ▸ hk2)]
    | apply s p loose t =>
      -- the tight operator goes first, with the term before it, and leaves the loose one alone
      have hp := precedence_of_loose loose
      have hbelow := below_of_loose loose []
      simp only [Formula.pendingOrder, Formula.lone, ho, if_true]
      rw [Formula.tokens, List.append_assoc, List.cons_append]
      calc
        stackOrderFrom [] (s.tokens ++ .operator p :: (t.tokens ++ .operator o :: k))
            = s.postorder ++ stackOrderFrom [.operator p] (t.tokens ++ .operator o :: k) := by
          rw [stackOrderFrom_formula s (hp ▸ releases_operator p _),
            stackOrderFrom_wait p (below_nil _)]
        _ = s.postorder ++ (t.postorder ++ .operator o :: .operator p ::
              stackOrderFrom [] k) := by
          rw [stackOrderFrom_term t hbelow hreleases, stackOrderFrom_wait o (hprec ▸ hbelow),
            stackOrderFrom_release _ (hprec ▸ hk2), stackOrderFrom_release [] (hp ▸ hk)]
        _ = _ := by simp

theorem stackOrder_signedTokens {s : Formula Text} (hs : s.IsUnsigned) (o : Operator) (n : Text) :
    stackOrder (s.signedTokens o n) =
      s.pendingOrder o ++ [.operator (s.lone o), .numeral n, .operator .minus] :=
  stackOrderFrom_pending hs o (releases_operator .minus [.numeral n])

/-! ### The machine -/

theorem foldlM_step_pending (s : Formula Text) (o : Operator) :
    (s.pendingOrder o).foldlM step [] = pushed [] (s.pending o) := by
  cases ho : o.isTight with
  | false =>
    simp only [Formula.pendingOrder, Formula.pending, ho, Bool.false_eq_true, if_false]
    exact foldlM_step_formula s
  | true =>
    simp only [Formula.pendingOrder, Formula.pending, ho, if_true]
    cases s with
    | term negative t => exact foldlM_step_term t []
    | apply s p loose t => exact foldlM_step_operation (foldlM_step_formula s) t o

/-- An operator that stands alone is a sign or a fault. -/
theorem step_lone (a : Binary64) (p : Operator) :
    step [a] (.operator p) = pushed [] (if p = .minus then .ok (-a) else .error .malformed) := by
  by_cases hp : p = .minus
  · rw [if_pos hp, hp, step_minus]
    rfl
  · rw [if_neg hp]
    exact if_neg fun h => hp (Token.operator.inj h)

/-- After a sign that stood alone, what comes next is taken away from the opposite number. -/
theorem foldlM_step_lone (a : Binary64) (p : Operator) {n : Text} (hn : Numeral.isPlain n = true) :
    [Token.operator p, .numeral n, .operator .minus].foldlM step [a] =
      pushed [] (if p = .minus then operate .sub (-a) (ofPlain n) else .error .malformed) := by
  rw [List.foldlM_cons, step_lone]
  by_cases hp : p = .minus
  · rw [if_pos hp, if_pos hp]
    show [Token.numeral n, .operator .minus].foldlM step [-a] = _
    rw [List.foldlM_cons, step_numeral, readNumeral, if_pos hn]
    show [Token.operator .minus].foldlM step [ofPlain n, -a] = _
    rw [List.foldlM_cons, step_operator]
    exact bind_pure _
  · rw [if_neg hp, if_neg hp]
    rfl

theorem misread_ne_nan (s : Formula Text) (o : Operator) (b : Binary64) :
    s.misread o b ≠ .ok .nan := by
  refine bind_ne_nan _ fun a => ?_
  split
  · exact operate_ne_nan .sub (-a) b
  · rintro ⟨⟩

/-- **What is computed of a sign after an operator.** -/
theorem evaluate_signed {s : Formula Text} (hs : s.IsUnsigned) {o : Operator} {n e : Text}
    (hn : Numeral.isPlain n = true) (h : tokens e = s.signedTokens o n) :
    evaluate e = s.misread o (ofPlain n) >>= roundValue := by
  have hne : tokens e ≠ [] := by rw [h]; simp [Formula.signedTokens]
  refine evaluate_of_pushed hne (misread_ne_nan s o _) ?_
  rw [h, stackOrder_signedTokens hs, List.foldlM_append, foldlM_step_pending, Formula.misread]
  rcases s.pending o with f | a
  · rfl
  · exact foldlM_step_lone a (s.lone o) hn

/-! ### Opposite values -/

theorem roundValue_finite (s : Bool) {r : ℕ} (h : r < ranks) :
    roundValue (.finite s r h) =
      if scaledRank r < ranks then .ok (resultOfPlaces s (placesOfRank r))
      else .error .overflow := by
  rw [← mapError_roundPlaces (ne_nan_of_isFinite rfl), roundPlaces_finite]
  split <;> rfl

theorem roundValue_of_isZero {v : Binary64} (h : v.isZero = true) :
    roundValue v = .ok .zero := by
  cases v with
  | nan => cases h
  | infinite s => cases h
  | finite s r hr =>
    obtain rfl : r = 0 := beq_iff_eq.1 h
    rw [← mapError_roundPlaces (ne_nan_of_isFinite rfl)]
    show (roundPlaces (signedZero s)).mapError _ = _
    rw [roundPlaces_signedZero]
    rfl

/-- Results of opposite signs are different unless they are zero. -/
theorem resultOfPlaces_not_eq_iff {s : Bool} {r : ℕ} (h : scaledRank r < ranks) :
    resultOfPlaces (!s) (placesOfRank r) = resultOfPlaces s (placesOfRank r) ↔
      resultOfPlaces s (placesOfRank r) = .zero := by
  by_cases hn : placesOfRank r = 0
  · rw [hn, resultOfPlaces_zero, resultOfPlaces_zero]
  · obtain ⟨ht, hneg⟩ := resultOfPlaces_eq (!s) h
    obtain ⟨ht', hpos⟩ := resultOfPlaces_eq s h
    have hrank := rankOfPlaces_pos (Nat.pos_of_ne_zero hn)
    rw [hneg, hpos, decide_eq_true hn, Bool.and_true, Bool.and_true]
    constructor
    · intro heq
      injection heq with hsign
      cases s <;> cases hsign
    · intro heq
      injection heq with _ hzero
      omega

/-- Opposite values have the same outcome only if they have no result or zero. -/
theorem toOption_roundValue_neg {v : Binary64} (h : v.isFinite = true) :
    (roundValue (-v)).toOption = (roundValue v).toOption ↔
      (roundValue v).toOption = none ∨ (roundValue v).toOption = some .zero := by
  cases v with
  | nan => cases h
  | infinite s => cases h
  | finite s r hr =>
    rw [neg_finite, roundValue_finite, roundValue_finite]
    by_cases hs : scaledRank r < ranks
    · rw [if_pos hs, if_pos hs]
      simp only [Except.toOption, Option.some.injEq, reduceCtorEq, false_or]
      exact resultOfPlaces_not_eq_iff hs
    · rw [if_neg hs, if_neg hs]
      exact iff_of_true rfl (Or.inl rfl)

theorem operate_sub_of_isFinite {a b : Binary64} (h : (a - b).isFinite = true) :
    operate .sub a b >>= roundValue = roundValue (a - b) := by
  rw [operate, if_neg (fun h => by cases h.1), Operation.apply, if_pos h]
  rfl

theorem operate_sub_of_not_isFinite {a b : Binary64} (h : (a - b).isFinite = false) :
    operate .sub a b >>= roundValue = .error .overflow := by
  rw [operate, if_neg (fun h => by cases h.1), Operation.apply, if_neg (by rw [h]; decide)]
  rfl

/-- The difference that is computed is the opposite of the one that is meant. -/
theorem toOption_sub_iff (a b : Binary64) :
    (operate .sub (-a) b >>= roundValue).toOption = (operate .sub a (-b) >>= roundValue).toOption ↔
      (operate .sub a (-b) >>= roundValue).toOption = none ∨
        (operate .sub a (-b) >>= roundValue).toOption = some .zero := by
  -- both differences are sums, of the numbers and of their opposites
  rcases neg_add_neg a b with h | ⟨h1, h2⟩ | ⟨h1, h2⟩
  · cases hf : (a + b).isFinite with
    | true =>
      rw [operate_sub_of_isFinite (by rw [neg_sub_eq_add, h, isFinite_neg, hf]),
        operate_sub_of_isFinite (by rw [sub_neg_eq_add, hf]), neg_sub_eq_add, h, sub_neg_eq_add]
      exact toOption_roundValue_neg hf
    | false =>
      rw [operate_sub_of_not_isFinite (by rw [neg_sub_eq_add, h, isFinite_neg, hf]),
        operate_sub_of_not_isFinite (by rw [sub_neg_eq_add, hf])]
      exact iff_of_true rfl (Or.inl rfl)
  · rw [operate_sub_of_isFinite (by rw [neg_sub_eq_add, isFinite_of_isZero h2]),
      operate_sub_of_isFinite (by rw [sub_neg_eq_add, isFinite_of_isZero h1]), neg_sub_eq_add,
      sub_neg_eq_add, roundValue_of_isZero h1, roundValue_of_isZero h2]
    exact iff_of_true rfl (Or.inr rfl)
  · rw [operate_sub_of_not_isFinite (by rw [neg_sub_eq_add, h2]),
      operate_sub_of_not_isFinite (by rw [sub_neg_eq_add, h1])]
    exact iff_of_true rfl (Or.inl rfl)

/-! ### When the sign is read as meant -/

/-- The number before a loose operator is the value of the formula. -/
theorem signedResult_of_loose {s : Formula Text} {o : Operator} (ho : o.isTight = false)
    {n : Text} (hn : Numeral.isPlain n = true) :
    s.signedResult o n =
      s.value readNumeral >>= fun a => operate o.operation a (-ofPlain n) >>= roundValue := by
  have hread : readSigned ∘ (fun t => (false, t)) = readNumeral := by
    funext t
    show (readNumeral t).map (withSign false) = _
    rcases readNumeral t with f | v <;> rfl
  have hn' : readSigned (true, n) = .ok (-ofPlain n) := by
    rw [readSigned, readNumeral, if_pos hn]
    rfl
  rw [Formula.signedResult, Formula.snoc_of_loose _ ho, Formula.result, Formula.value,
    Formula.value_map, hread, Term.value, hn']
  rcases s.value readNumeral with f | a <;> rfl

/-- A sign after an operator is read as meant.  Where the operator that stands alone is no minus
sign, there must be no result.  After a minus sign the opposite of the result is computed, so there
must be none or zero.  After a tight operator the regrouped operands must happen to have the same
result. -/
def Formula.ReadsSign (s : Formula Text) (o : Operator) (n : Text) : Prop :=
  if s.lone o = .minus then
    if o = .minus then
      (s.signedResult o n).toOption = none ∨ (s.signedResult o n).toOption = some .zero
    else
      (s.pending o >>= fun a => operate .sub (-a) (ofPlain n) >>= roundValue).toOption =
        (s.signedResult o n).toOption
  else (s.signedResult o n).toOption = none

theorem misread_of_lone {s : Formula Text} {o : Operator} (h : s.lone o = .minus) (b : Binary64) :
    s.misread o b >>= roundValue =
      s.pending o >>= fun a => operate .sub (-a) b >>= roundValue := by
  rw [Formula.misread]
  rcases s.pending o with f | a
  · rfl
  · show (if s.lone o = .minus then _ else _) >>= roundValue = _
    rw [if_pos h]
    rfl

theorem toOption_misread_of_not_lone {s : Formula Text} {o : Operator} (h : s.lone o ≠ .minus)
    (b : Binary64) : (s.misread o b >>= roundValue).toOption = none := by
  rw [Formula.misread]
  rcases s.pending o with f | a
  · rfl
  · show ((if s.lone o = .minus then _ else _) >>= roundValue).toOption = none
    rw [if_neg h]
    rfl

theorem readSigned_ne_nan (p : Bool × Text) : readSigned p ≠ .ok .nan := by
  rw [readSigned]
  rcases hv : readNumeral p.2 with f | v
  · rintro ⟨⟩
  · have hne : v ≠ .nan := by
      rintro rfl
      exact readNumeral_ne_nan p.2 hv
    intro h
    exact withSign_ne_nan p.1 hne (Except.ok.inj h)

/-- The value that is meant is a result. -/
theorem roundPlaces_of_signedResult {s : Formula Text} {o : Operator} {n : Text} {v : Binary64}
    (h : s.signedResult o n = .ok v) : roundPlaces v = .ok v :=
  roundPlaces_of_result readSigned_ne_nan h

/-- **When a sign after an operator is read as meant.** -/
theorem evaluate_signed_iff {s : Formula Text} (hs : s.IsUnsigned) {o : Operator} {n e : Text}
    (hn : Numeral.isPlain n = true) (h : tokens e = s.signedTokens o n) :
    (evaluate e).toOption = (s.signedResult o n).toOption ↔ s.ReadsSign o n := by
  rw [evaluate_signed hs hn h, Formula.ReadsSign]
  split
  · rename_i hlone
    rw [misread_of_lone hlone]
    split
    · rename_i ho
      subst ho
      rw [signedResult_of_loose rfl hn]
      show (s.value readNumeral >>= _).toOption = _ ↔ _
      rcases s.value readNumeral with f | a
      · exact iff_of_true rfl (Or.inl rfl)
      · exact toOption_sub_iff a (ofPlain n)
    · exact Iff.rfl
  · rename_i hlone
    rw [toOption_misread_of_not_lone hlone, eq_comm]

end SpokenCalculator
