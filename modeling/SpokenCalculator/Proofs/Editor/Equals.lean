import SpokenCalculator.Editor.Transition
import SpokenCalculator.Proofs.Expression.ResultText

/-!
# Evaluation of the line

* `keyboardLine_append`, `keyboardLine_of_numeral`: what the line is evaluated as;
* `press_equals`, `solve_of_ok`, `solve_of_error`: the state that an evaluation leaves;
* `evaluate_resultText_and_press_equals_again`: results are evaluated to themselves, so that a
  second evaluation changes nothing on the screen.
-/

namespace SpokenCalculator.Editor
open Text

/-! ### The evaluated text -/

theorem keyboardLine_append (a b : Text) :
    keyboardLine (a ++ b) = keyboardLine a ++ keyboardLine b := by
  simp [keyboardLine, without]

theorem keyboardSign_of_isNumeralChar {c : Char} (h : Token.isNumeralChar c = true) :
    keyboardSign c = c := by
  unfold keyboardSign
  split
  · exact absurd h (by decide)
  · exact absurd h (by decide)
  · exact absurd h (by decide)
  · rfl

/-- A numeral is evaluated as it is. -/
theorem keyboardLine_of_numeral {t : Text} (h : ∀ c ∈ t, Token.isNumeralChar c = true) :
    keyboardLine t = t := by
  have hmap : t.map keyboardSign = t := by
    conv_rhs => rw [← List.map_id t]
    exact List.map_congr_left fun c hc => keyboardSign_of_isNumeralChar (h c hc)
  rw [keyboardLine, hmap, without, List.filter_eq_self]
  intro c hc
  refine bne_iff_ne.2 ?_
  rintro rfl
  exact absurd (h ' ' hc) (by decide)

theorem keyboardLine_signChars (s : Bool) : keyboardLine (signChars s) = signChars s := by
  cases s <;> rfl

/-- The text of a result is evaluated as it is. -/
theorem keyboardLine_resultText {v : Binary64} (h : roundPlaces v = .ok v) :
    keyboardLine (resultText v) = resultText v := by
  obtain ⟨s, r, hr, t, -, htext, hplain, -⟩ := exists_resultText h
  rw [htext, keyboardLine_append, keyboardLine_signChars,
    keyboardLine_of_numeral (isNumeralChar_of_isPlain hplain).2]

/-- The text of a result is not empty. -/
theorem resultText_ne_nil {v : Binary64} (h : roundPlaces v = .ok v) : resultText v ≠ [] := by
  obtain ⟨s, r, hr, t, -, htext, hplain, -⟩ := exists_resultText h
  rw [htext]
  exact List.append_ne_nil_of_right_ne_nil _ (isNumeralChar_of_isPlain hplain).1

/-! ### The state after an evaluation -/

theorem press_of_act {learning : Bool} {s : State} {c : Command} {o : Outcome}
    (h : act learning { s with failed := false } c = .ok o) :
    press learning s c = .ok (o.1, felt c ++ shown s o.1 ++ o.2) := by
  rw [press, h]
  rfl

/-- What a press leaves is what its command does to a line that shows no failure. -/
theorem exists_act_of_press {learning : Bool} {s s' : State} {c : Command} {effects : List Effect}
    (h : press learning s c = .ok (s', effects)) :
    ∃ o, act learning { s with failed := false } c = .ok o ∧ o.1 = s' ∧
      effects = felt c ++ shown s o.1 ++ o.2 := by
  rcases hact : act learning { s with failed := false } c with e | o
  · rw [press, hact] at h
    cases h
  · rw [press_of_act hact] at h
    cases h
    exact ⟨o, rfl, rfl, rfl⟩

theorem press_equals (learning : Bool) (s : State) :
    press learning s .equals =
      .ok ((solve learning { s with failed := false }).1,
        felt .equals ++ shown s (solve learning { s with failed := false }).1 ++
          (solve learning { s with failed := false }).2) := press_of_act rfl

theorem solve_of_ok {s : State} {v : Binary64} (learning : Bool) (hne : s.line ≠ [])
    (h : evaluate (keyboardLine s.line) = .ok v) :
    (solve learning s).1 = ⟨resultText v, resultText v, true, s.line, false⟩ := by
  rw [solve, if_neg hne, h]

theorem solve_of_error {s : State} {f : Fault} (learning : Bool) (hne : s.line ≠ [])
    (h : evaluate (keyboardLine s.line) = .error f) :
    (solve learning s).1 =
      { s with evaluatedLine := s.line, evaluated := true, failed := true } := by
  rw [solve, if_neg hne, h]

/-- An evaluation without a failure leaves an empty line as it is, or leaves a result. -/
theorem solve_cases {learning : Bool} {s : State}
    (h : (solve learning { s with failed := false }).1.failed = false) :
    s.line = [] ∧ (solve learning { s with failed := false }).1 = { s with failed := false } ∨
      ∃ v, roundPlaces v = .ok v ∧
        (solve learning { s with failed := false }).1 =
          ⟨resultText v, resultText v, true, s.line, false⟩ := by
  by_cases hne : s.line = []
  · refine Or.inl ⟨hne, ?_⟩
    rw [solve, if_pos hne]
  · rcases hv : evaluate (keyboardLine s.line) with f | v
    · rw [solve_of_error (s := { s with failed := false }) learning hne hv] at h
      cases h
    · exact Or.inr ⟨v, roundPlaces_of_evaluate hv, solve_of_ok learning hne hv⟩

/-- **Evaluating the text of a value gives the value, and a second evaluation of the line leaves
the line and the number being typed as they are.** -/
theorem evaluate_resultText_and_press_equals_again :
    (∀ e v, evaluate e = .ok v → evaluate (resultText v) = .ok v) ∧
      ∀ learning again s s' effects,
        press learning s .equals = .ok (s', effects) → s'.failed = false →
          ∃ s'' effects', press again s' .equals = .ok (s'', effects') ∧ s''.failed = false ∧
            s''.line = s'.line ∧ s''.operand = s'.operand := by
  refine ⟨fun e v h => evaluate_resultText (roundPlaces_of_evaluate h), ?_⟩
  intro learning again s s' effects h hfailed
  rw [press_equals, Except.ok.injEq, Prod.mk.injEq] at h
  obtain ⟨hs, -⟩ := h
  rw [← hs] at hfailed
  refine ⟨_, _, press_equals again s', ?_⟩
  rcases solve_cases hfailed with ⟨hnil, hsame⟩ | ⟨v, hv, hres⟩
  · rw [hsame] at hs
    subst hs
    rw [solve, if_pos hnil]
    exact ⟨rfl, rfl, rfl⟩
  · rw [hres] at hs
    subst hs
    have heval : evaluate (keyboardLine (resultText v)) = .ok v := by
      rw [keyboardLine_resultText hv, evaluate_resultText hv]
    rw [solve_of_ok again (resultText_ne_nil hv) heval]
    exact ⟨rfl, rfl, rfl⟩

theorem press_equals_again_ten_quarters :
    evaluate "2.5".toList = .ok (.ofInt 5 / .ofInt 2) ∧
      ∃ s effects, press true ⟨"2.5".toList, "2.5".toList, true, "10 ÷ 4".toList, false⟩ .equals =
          .ok (s, effects) ∧
        s.failed = false ∧ s.line = "2.5".toList ∧ s.operand = "2.5".toList := by
  have heval : evaluate "10/4".toList = .ok (.ofInt 5 / .ofInt 2) := by decide +kernel
  have htext : resultText (.ofInt 5 / .ofInt 2) = "2.5".toList := by decide +kernel
  have hpress : press false ⟨"10 ÷ 4".toList, ['4'], false, [], false⟩ .equals =
      .ok (⟨"2.5".toList, "2.5".toList, true, "10 ÷ 4".toList, false⟩,
        [.vibrate, .display "2.5".toList, .speak "Result is 2.5".toList,
          .record "10 ÷ 4 = 2.5".toList]) := by decide +kernel
  have hfirst := evaluate_resultText_and_press_equals_again.1 _ _ heval
  rw [htext] at hfirst
  exact ⟨hfirst, evaluate_resultText_and_press_equals_again.2 false true _ _ _ hpress rfl⟩

end SpokenCalculator.Editor
