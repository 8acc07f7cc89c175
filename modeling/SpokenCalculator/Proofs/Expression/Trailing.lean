import SpokenCalculator.Proofs.Expression.SignedOperand

/-!
# An operator at the end

An operator at the end of an expression has no right operand.  The machine has no notion of this: it
gives an operator the two numbers on top of its stack, wherever they come from.  A tight operator
takes the last term away from the loose operator before it, which then stands alone, and any other
operator at the end stands alone itself.  What stands alone is a fault unless it is a minus sign,
which changes the sign of what is left.

* `Formula.cutShort`: the value that is computed;
* `pending_ne_malformed`: what has been executed before is malformed only if the formula is;
* `evaluate_append_operator`: what is computed of an expression with an operator at its end;
* `evaluate_append_operator_eq_malformed_iff`: when such an expression is malformed.
-/

namespace SpokenCalculator
open Binary64

/-! ### What is computed -/

/-- The value that is computed when nothing comes after an operator. -/
def Formula.cutShort (s : Formula Text) (o : Operator) : Except Fault Binary64 :=
  s.pending o >>= fun a => if s.lone o = .minus then .ok (-a) else .error .malformed

theorem pending_ne_nan (s : Formula Text) (o : Operator) : s.pending o ≠ .ok .nan := by
  unfold Formula.pending
  split
  · cases s with
    | term negative t => exact t.value_ne_nan readNumeral_ne_nan
    | apply s p loose t =>
      exact bind_ne_nan _ fun a => bind_ne_nan _ fun b => operate_ne_nan o.operation a b
  · exact s.value_ne_nan readNumeral_ne_nan

theorem cutShort_ne_nan (s : Formula Text) (o : Operator) : s.cutShort o ≠ .ok .nan := by
  rw [Formula.cutShort]
  rcases ha : s.pending o with f | a
  · rintro ⟨⟩
  · have hne : a ≠ .nan := by
      rintro rfl
      exact pending_ne_nan s o ha
    show (if s.lone o = .minus then _ else _) ≠ _
    split
    · intro h
      exact neg_ne_nan hne (Except.ok.inj h)
    · rintro ⟨⟩

/-- **What is computed of an operator at the end.** -/
theorem evaluate_append_operator {s : Formula Text} (hs : s.IsUnsigned) {e : Text}
    (h : tokens e = s.tokens) (o : Operator) :
    evaluate (e ++ [o.char]) = s.cutShort o >>= roundValue := by
  have htokens : tokens (e ++ [o.char]) = s.tokens ++ [.operator o] := by
    rw [tokens_append_operator, h]
    rfl
  have hne : tokens (e ++ [o.char]) ≠ [] := by
    rw [htokens]
    exact List.append_ne_nil_of_right_ne_nil _ (List.cons_ne_nil _ _)
  refine evaluate_of_pushed hne (cutShort_ne_nan s o) ?_
  rw [htokens, stackOrder, stackOrderFrom_pending hs o (k := []) trivial, stackOrderFrom_nil,
    List.foldlM_append, foldlM_step_pending, Formula.cutShort]
  rcases s.pending o with f | a
  · rfl
  · show [Token.operator (s.lone o)].foldlM step [a] = _
    rw [List.foldlM_cons, step_lone]
    exact bind_pure _

/-! ### When it is malformed -/

theorem operate_ne_malformed (o : Operation) (a b : Binary64) :
    operate o a b ≠ .error .malformed := by
  unfold operate
  split
  · rintro ⟨⟩
  · split <;> rintro ⟨⟩

theorem roundValue_ne_malformed (v : Binary64) : roundValue v ≠ .error .malformed := by
  unfold roundValue
  split <;> rintro ⟨⟩

/-- In a formula with a value all numerals are read, so that only an operation can fail. -/
theorem pending_ne_malformed {s : Formula Text} {v : Binary64} (h : s.value readNumeral = .ok v)
    (o : Operator) : s.pending o ≠ .error .malformed := by
  unfold Formula.pending
  split
  · cases s with
    | term negative t =>
      show t.value readNumeral ≠ _
      rw [Formula.value] at h
      intro ht
      rw [ht] at h
      cases h
    | apply s p loose t =>
      show (s.value readNumeral >>= fun a => t.value readNumeral >>= operate o.operation a) ≠ _
      rw [Formula.value] at h
      rcases ha : s.value readNumeral with f | a
      · rw [ha] at h
        cases h
      · rcases hb : t.value readNumeral with f | b
        · rw [ha, hb] at h
          cases h
        · exact operate_ne_malformed o.operation a b
  · rw [h]
    rintro ⟨⟩

/-- What is cut short is malformed just if an operator other than a minus sign stands alone, and
nothing else fails before it is executed. -/
theorem cutShort_eq_malformed_iff {s : Formula Text} {v : Binary64}
    (h : s.value readNumeral = .ok v) (o : Operator) :
    s.cutShort o >>= roundValue = .error .malformed ↔
      s.lone o ≠ .minus ∧ ∃ a, s.pending o = .ok a := by
  rw [Formula.cutShort]
  rcases ha : s.pending o with f | a
  · refine iff_of_false (fun hf => ?_) (fun hok => ?_)
    · exact pending_ne_malformed h o (ha.trans (congrArg _ (Except.error.inj hf)))
    · obtain ⟨-, a, hok⟩ := hok
      cases hok
  · show (if s.lone o = .minus then _ else _) >>= roundValue = _ ↔ _
    split
    · rename_i hlone
      exact iff_of_false (roundValue_ne_malformed (-a)) fun hne => hne.1 hlone
    · rename_i hlone
      exact iff_of_true rfl ⟨hlone, a, rfl⟩

/-- **When an operator at the end of an expression with a value is refused as malformed.**  In all
other cases a minus sign stands alone and there is a value or an overflow, or the operator divides
by zero or overflows with the two numbers that it is given. -/
theorem evaluate_append_operator_eq_malformed_iff {e n : Text} {rest : List (Operator × Text)}
    (h : tokens e = .numeral n :: rest.flatMap pairTokens) {v : Binary64}
    (hv : evaluate e = .ok v) (o : Operator) :
    evaluate (e ++ [o.char]) = (Formula.ofChain false n rest).cutShort o >>= roundValue ∧
      (evaluate (e ++ [o.char]) = .error .malformed ↔
        (Formula.ofChain false n rest).lone o ≠ .minus ∧
          ∃ a, (Formula.ofChain false n rest).pending o = .ok a) := by
  have htokens : tokens e = (Formula.ofChain false n rest).tokens :=
    h.trans (Formula.tokens_ofChain false n rest).symm
  have hcut := evaluate_append_operator (isUnsigned_ofChain n rest) htokens o
  refine ⟨hcut, ?_⟩
  rw [hcut]
  rcases hx : (Formula.ofChain false n rest).value readNumeral with f | x
  · rw [evaluate_of_tokens_eq htokens, Formula.result_of_fault hx] at hv
    cases hv
  · exact cutShort_eq_malformed_iff hx o

/-- The product at the end of a sum is multiplied by what stands before it, and the plus sign is
left alone. -/
theorem evaluate_sum_product_star :
    evaluate "2+3×4".toList = .ok (.ofInt 14) ∧
      evaluate ("2+3×4".toList ++ ['*']) = .error .malformed := by
  have htokens : tokens "2+3×4".toList =
      .numeral ['2'] :: [(.plus, ['3']), (.cross, ['4'])].flatMap pairTokens := by decide
  have hv : evaluate "2+3×4".toList = .ok (.ofInt 14) := by decide +kernel
  have hpending : (Formula.ofChain false ['2'] [(.plus, ['3']), (.cross, ['4'])]).pending .star =
      .ok (.ofInt 24) := by decide +kernel
  obtain ⟨-, hiff⟩ := evaluate_append_operator_eq_malformed_iff htokens hv .star
  exact ⟨hv, hiff.2 ⟨by decide, _, hpending⟩⟩

/-- A star after a difference is not refused: the two numbers are multiplied, and the minus sign
changes the sign of the product. -/
theorem evaluate_difference_star_ne :
    tokens "2-3".toList = [.numeral ['2'], .operator .minus, .numeral ['3']] ∧
      evaluate "2-3".toList = .ok (.ofInt (-1)) ∧
      evaluate ("2-3".toList ++ [Operator.star.char]) = .ok (.ofInt (-6)) ∧
      evaluate ("2-3".toList ++ [Operator.star.char]) ≠ .error .malformed := by
  have h : evaluate ("2-3".toList ++ [Operator.star.char]) = .ok (.ofInt (-6)) := by decide +kernel
  refine ⟨by decide, by decide +kernel, h, ?_⟩
  rw [h]
  rintro ⟨⟩

end SpokenCalculator
