import SpokenCalculator.Proofs.Editor.Typing

/-!
# The sign of the number being typed

* `Shows`: the screen shows the outcome of an evaluation;
* `press_sign`: a sign is put in front of the number being typed;
* `shows_signedResult_iff`: when a number with a sign after an operator is evaluated as a negative
  number.
-/

namespace SpokenCalculator.Editor
open Text

/-- The screen shows an outcome: a failure, or a result that is also the number being typed. -/
def Shows (s : State) : Except Fault Binary64 → Prop
  | .ok v => s.failed = false ∧ s.line = resultText v ∧ s.operand = resultText v
  | .error _ => s.failed = true

/-- What the screen shows after an evaluation determines the result. -/
theorem shows_solve_iff {s : State} (learning : Bool) (hne : s.line ≠ [])
    {x : Except Fault Binary64} (hx : ∀ v, x = .ok v → roundPlaces v = .ok v) :
    Shows (solve learning s).1 x ↔ (evaluate (keyboardLine s.line)).toOption = x.toOption := by
  rcases he : evaluate (keyboardLine s.line) with f | v
  · rw [solve_of_error learning hne he]
    rcases x with g | w
    · exact iff_of_true rfl rfl
    · exact iff_of_false (fun h => by cases h.1) (by rintro ⟨⟩)
  · rw [solve_of_ok learning hne he]
    rcases x with g | w
    · exact iff_of_false (by rintro ⟨⟩) (by rintro ⟨⟩)
    · constructor
      · rintro ⟨-, h, -⟩
        exact congrArg some (resultText_inj (roundPlaces_of_evaluate he) (hx w rfl) h)
      · intro h
        obtain rfl : v = w := Option.some.inj h
        exact ⟨rfl, rfl, rfl⟩

/-- A plain numeral gets a sign in front. -/
theorem toggled_of_isPlain {n : Text} (hn : Numeral.isPlain n = true) :
    toggled n = ('-' :: n, "negative".toList) := by
  unfold toggled
  split
  · exact absurd ((isNumeralChar_of_isPlain hn).2 '-' (List.mem_cons_self ..)) (by decide)
  · rfl

theorem space_notMem_of_isPlain {n : Text} (hn : Numeral.isPlain n = true) : ' ' ∉ n := by
  intro h
  exact absurd ((isNumeralChar_of_isPlain hn).2 ' ' h) (by decide)

theorem toggleSign_of_isPlain {s : State} {n line : Text} (hs : s.operand = n)
    (hn : Numeral.isPlain n = true) (hline : replaceLast? n ('-' :: n) s.line = some line) :
    toggleSign s =
      ({ s with line := line, operand := '-' :: n, evaluated := false },
        [.speak "negative".toList]) := by
  have hne : s.operand ≠ [] := hs ▸ (isNumeralChar_of_isPlain hn).1
  rw [toggleSign, if_neg hne, State.replaceOperand?, hs, toggled_of_isPlain hn, hline]
  rfl

/-- A sign is put in front of the number being typed. -/
theorem press_sign {s : State} (hs : Typed s) {before n : Text} (hn : Numeral.isPlain n = true)
    (hline : s.line = before ++ ' ' :: n) (learning : Bool) :
    ∃ s' effects, press learning s .sign = .ok (s', effects) ∧
      s'.line = before ++ ' ' :: '-' :: n := by
  have hne := (isNumeralChar_of_isPlain hn).1
  have hoperand : s.operand = n := by
    rw [hs.endsInOperand, hline, lastPart_append_cons (space_notMem_of_isPlain hn)]
  -- at the end of the line is the last occurrence of the number
  have hreplace : replaceLast? n ('-' :: n) s.line = some (before ++ ' ' :: '-' :: n) := by
    have h := replaceLast?_append ('-' :: n) (before ++ [' ']) hne
    simpa [hline] using h
  have htoggle := toggleSign_of_isPlain (s := { s with failed := false }) hoperand hn hreplace
  exact ⟨_, _, press_of_act rfl, congrArg (fun r : Outcome => r.1.line) htoggle⟩

/-- **When a number with a sign after an operator is evaluated as a negative number.** -/
theorem shows_signedResult_iff {s : State} (hs : Typed s) {m n : Text}
    {rest : List (Operation × Text)} {o : Operation} (hm : Numeral.isPlain m = true)
    (hrest : ∀ p ∈ rest, Numeral.isPlain p.2 = true) (hn : Numeral.isPlain n = true)
    (hline : s.line = chainLine m rest ++ pairLine (o, n)) (learning again : Bool) :
    ∃ s' s'' effects effects', press learning s .sign = .ok (s', effects) ∧
      press again s' .equals = .ok (s'', effects') ∧
      (Shows s'' ((chainFormula m rest).signedResult o.keyboard n) ↔
        (chainFormula m rest).ReadsSign o.keyboard n) := by
  have hbefore : s.line = (chainLine m rest ++ [' ', o.glyph]) ++ ' ' :: n := by
    simp [hline, pairLine]
  obtain ⟨s', effects, hpress, hline'⟩ := press_sign hs hn hbefore learning
  have htext : s'.line = chainLine m rest ++ pairLine (o, '-' :: n) := by
    simp [hline', pairLine]
  have htokens : tokens (keyboardLine s'.line) =
      (chainFormula m rest).signedTokens o.keyboard n := by
    obtain ⟨hne, hchars⟩ := isNumeralChar_of_isPlain hn
    have hsign : keyboardLine ('-' :: n) = '-' :: n := by
      rw [← List.singleton_append, keyboardLine_append, keyboardLine_of_numeral hchars]
      rfl
    rw [htext, keyboardLine_append, keyboardLine_pairLine, hsign, tokens_append_operator,
      tokens_keyboardLine_chainLine hm hrest, Formula.signedTokens]
    exact congrArg _ (congrArg _ ((tokens_operator n .minus).trans (by rw [tokens_run hne hchars])))
  have hne : s'.line ≠ [] := by rw [htext]; simp [pairLine]
  refine ⟨s', _, effects, _, hpress, press_equals again s', ?_⟩
  have hiff := evaluate_signed_iff (s := chainFormula m rest) (isUnsigned_ofChain _ _) hn htokens
  rw [← hiff]
  exact shows_solve_iff (s := { s' with failed := false }) again hne fun v hv =>
    roundPlaces_of_signedResult hv

/-- The line `5 × 3`, with the second number being typed. -/
def fiveTimesThree : State := ⟨"5 × 3".toList, ['3'], false, [], false⟩

theorem typed_fiveTimesThree : Typed fiveTimesThree := by
  have h1 : Typed ⟨['5'], ['5'], false, [], false⟩ :=
    @Typed.press _ _ (.digit ['5']) false _ .empty rfl rfl
  have h2 : Typed ⟨"5 × ".toList, [], false, [], false⟩ :=
    @Typed.press _ _ (.operator (some ['*'])) false _ h1 rfl rfl
  exact @Typed.press _ _ (.digit ['3']) false _ h2 rfl rfl

/-- With a sign after the operator, `5 × 3` is not evaluated as the product with a negative
number, which has a result. -/
theorem five_times_minus_three_fails :
    ∃ s s' effects effects', Typed fiveTimesThree ∧
      fiveTimesThree.line = chainLine ['5'] [] ++ pairLine (.mul, ['3']) ∧
      press false fiveTimesThree .sign = .ok (s, effects) ∧
      press false s .equals = .ok (s', effects') ∧ s'.failed = true ∧
      (chainFormula ['5'] []).signedResult .star ['3'] = .ok (.ofInt (-15)) ∧
      ¬ Shows s' ((chainFormula ['5'] []).signedResult .star ['3']) := by
  have hvalue : (chainFormula ['5'] []).signedResult .star ['3'] = .ok (.ofInt (-15)) := by
    decide +kernel
  have hsign : press false fiveTimesThree .sign =
      .ok (⟨"5 × -3".toList, "-3".toList, false, [], false⟩,
        [.vibrate, .display "5 × -3".toList, .speak "negative".toList]) := by decide +kernel
  have hequals : press false ⟨"5 × -3".toList, "-3".toList, false, [], false⟩ .equals =
      .ok (⟨"5 × -3".toList, "-3".toList, true, "5 × -3".toList, true⟩,
        [.vibrate, .display "Error".toList, .speak invalidPhrase, .notify invalidPhrase]) := by
    decide +kernel
  refine ⟨_, _, _, _, typed_fiveTimesThree, rfl, hsign, hequals, rfl, hvalue, ?_⟩
  rw [hvalue]
  rintro ⟨h, -⟩
  cases h

theorem shows_five_times_minus_three_iff :
    ∃ s s' effects effects', press false fiveTimesThree .sign = .ok (s, effects) ∧
      press true s .equals = .ok (s', effects') ∧
      (Shows s' ((chainFormula ['5'] []).signedResult .star ['3']) ↔
        (chainFormula ['5'] []).ReadsSign .star ['3']) :=
  shows_signedResult_iff typed_fiveTimesThree (m := ['5']) (n := ['3']) (o := .mul) (by decide)
    (fun p hp => absurd hp List.not_mem_nil) (by decide) rfl false true

end SpokenCalculator.Editor
