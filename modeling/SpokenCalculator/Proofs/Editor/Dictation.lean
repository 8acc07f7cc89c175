import SpokenCalculator.Proofs.Editor.Speech
import SpokenCalculator.Proofs.Phrase.Utterance

/-!
# Speaking and typing

What is said becomes the line at once, with words and spaces of its own; what is typed grows key by
key.  Both lines are evaluated as the same text, so that the results agree and the same is said of
them.

* `keys`: the commands by which a calculation is typed;
* `pressAll_keys`: they leave the line that is meant;
* `solve_agree`: lines that are evaluated as the same text leave the same;
* `press_phrase_agrees_with_keys`: to say a calculation and to type it.
-/

namespace SpokenCalculator.Editor
open Phrase Text

/-! ### Typing -/

/-- The state with a line and the number being typed at its end, before any evaluation. -/
def State.typing (line operand : Text) : State := ⟨line, operand, false, [], false⟩

/-- Commands one after another, up to the first that cannot be carried out. -/
def pressAll (learning : Bool) (s : State) (cs : List Command) : Except EditError State :=
  cs.foldlM (fun s c => (press learning s c).map Prod.fst) s

theorem pressAll_cons {learning : Bool} {s s' : State} {c : Command} {effects : List Effect}
    (h : press learning s c = .ok (s', effects)) (cs : List Command) :
    pressAll learning s (c :: cs) = pressAll learning s' cs := by
  rw [pressAll, List.foldlM_cons, h]
  rfl

theorem pressAll_append {learning : Bool} {s s' : State} {cs : List Command}
    (h : pressAll learning s cs = .ok s') (ds : List Command) :
    pressAll learning s (cs ++ ds) = pressAll learning s' ds := by
  rw [pressAll] at h
  rw [pressAll, List.foldlM_append, h]
  rfl

/-- The command for a character of a number. -/
def keyOf (c : Char) : Command := if c = '.' then .point else .digit [c]

/-- The commands by which a number is typed. -/
def numeralKeys (t : Text) : List Command := t.map keyOf

/-- The commands by which a calculation is typed. -/
def keys (u : Utterance) : List Command :=
  numeralKeys u.first.numeral ++
    u.rest.flatMap fun p => .operator (some p.1.sign) :: numeralKeys p.2.numeral

theorem pressAll_digits (learning : Bool) {t : Text} (ht : IsDigits t) (line operand : Text) :
    pressAll learning (.typing line operand) (numeralKeys t) =
      .ok (.typing (line ++ t) (operand ++ t)) := by
  induction t generalizing line operand with
  | nil => rw [List.append_nil, List.append_nil]; rfl
  | cons c t ih =>
    obtain ⟨hc, ht⟩ := List.forall_mem_cons.1 ht
    have hkey : keyOf c = .digit [c] := by
      refine if_neg ?_
      rintro rfl
      exact absurd hc (by decide)
    have hact : act learning (.typing line operand) (.digit [c]) =
        .ok (.typing (line ++ [c]) (operand ++ [c]), [.speak [c]]) := act_digit learning _ hc
    have hpress := press_of_act (s := .typing line operand) hact
    rw [numeralKeys, List.map_cons, hkey, pressAll_cons hpress]
    have h := ih ht (line ++ [c]) (operand ++ [c])
    rw [List.append_assoc, List.append_assoc] at h
    exact h

theorem pressAll_numeral (learning : Bool) (line : Text) (x : Operand) :
    pressAll learning (.typing line []) (numeralKeys x.numeral) =
      .ok (.typing (line ++ x.numeral) x.numeral) := by
  cases x with
  | whole w => exact pressAll_digits learning w.isDigits.2 line []
  | fraction w point hpoint f =>
    -- so far there are only digits, so the point is accepted
    have hnone : '.' ∉ (State.typing (line ++ w.numeral) w.numeral).operand := by
      intro hmem
      exact absurd (w.isDigits.2 '.' hmem) (by decide)
    have hact : act learning (.typing (line ++ w.numeral) w.numeral) .point =
        .ok (.typing (line ++ w.numeral ++ ['.']) (w.numeral ++ ['.']),
          [.speak "decimal".toList]) := act_point learning hnone
    have hwhole := pressAll_digits learning w.isDigits.2 line []
    have hpress := press_of_act (s := .typing (line ++ w.numeral) w.numeral) hact
    have hfraction := pressAll_digits learning f.isDigits.2 (line ++ w.numeral ++ ['.'])
      (w.numeral ++ ['.'])
    have hkeys : numeralKeys (Operand.fraction w point hpoint f).numeral =
        numeralKeys w.numeral ++ .point :: numeralKeys f.numeral := by
      rw [Operand.numeral, numeralKeys, List.map_append, List.map_cons]
      rfl
    rw [hkeys, pressAll_append hwhole, List.nil_append, pressAll_cons hpress, hfraction,
      Operand.numeral]
    simp

theorem pressAll_pairs (learning : Bool) (rest : List (SpokenOperation × Operand)) (before : Text)
    (x : Operand) :
    ∃ operand, pressAll learning (.typing (before ++ x.numeral) x.numeral)
        (rest.flatMap fun p => .operator (some p.1.sign) :: numeralKeys p.2.numeral) =
      .ok (.typing (before ++ x.numeral ++
        (rest.map fun p => (p.1.operation, p.2.numeral)).flatMap pairLine) operand) := by
  induction rest generalizing before x with
  | nil =>
    refine ⟨x.numeral, ?_⟩
    rw [List.map_nil, List.flatMap_nil, List.flatMap_nil, List.append_nil]
    rfl
  | cons p rest ih =>
    obtain ⟨o, y⟩ := p
    have htakes : (State.typing (before ++ x.numeral) x.numeral).takesOperator = true :=
      takesOperator_of_line x.isPlain_numeral rfl
    have hact : act learning (.typing (before ++ x.numeral) x.numeral) (.operator (some o.sign)) =
        .ok (.typing (before ++ x.numeral ++ [' ', o.operation.glyph, ' ']) [],
          [.speak o.operation.name]) := act_operator learning htakes o.isSign
    have hpress := press_of_act (s := .typing (before ++ x.numeral) x.numeral) hact
    have hnumeral := pressAll_numeral learning
      (before ++ x.numeral ++ [' ', o.operation.glyph, ' ']) y
    obtain ⟨operand, hrest⟩ := ih (before ++ x.numeral ++ [' ', o.operation.glyph, ' ']) y
    refine ⟨operand, ?_⟩
    rw [List.flatMap_cons, List.cons_append, pressAll_cons hpress, pressAll_append hnumeral, hrest]
    simp [pairLine]

/-- The keys of a calculation leave the line that is meant. -/
theorem pressAll_keys (learning : Bool) (u : Utterance) :
    ∃ operand, pressAll learning .empty (keys u) = .ok (.typing u.line operand) := by
  obtain ⟨operand, hrest⟩ := pressAll_pairs learning u.rest [] u.first
  have hempty : State.empty = .typing [] [] := rfl
  refine ⟨operand, ?_⟩
  rw [keys, hempty, pressAll_append (pressAll_numeral learning [] u.first), hrest]
  rfl

/-! ### Evaluation -/

/-- Lines that are evaluated as the same text have the same result or none, and the same is said. -/
theorem solve_agree (learning : Bool) {s t : State} (hs : s.line ≠ []) (ht : t.line ≠ [])
    (h : keyboardLine s.line = keyboardLine t.line) :
    (∃ said, (solve learning s).2.filter Effect.isSpoken = [.speak said] ∧
        (solve learning t).2.filter Effect.isSpoken = [.speak said]) ∧
      (((solve learning s).1.failed = false ∧ (solve learning t).1.failed = false ∧
          (solve learning s).1.line = (solve learning t).1.line ∧
          (solve learning s).1.operand = (solve learning t).1.operand) ∨
        ((solve learning s).1.failed = true ∧ (solve learning t).1.failed = true)) := by
  rw [solve, solve, if_neg hs, if_neg ht, h]
  rcases evaluate (keyboardLine t.line) with f | v
  · exact ⟨⟨_, rfl, rfl⟩, Or.inr ⟨rfl, rfl⟩⟩
  · exact ⟨⟨_, rfl, rfl⟩, Or.inl ⟨rfl, rfl, rfl, rfl⟩⟩

theorem line_ne_nil_of_keyboardLine {line : Text} (h : keyboardLine line ≠ []) : line ≠ [] := by
  rintro rfl
  exact h rfl

/-- **To say a calculation and to type it leave the same.**  A phrase is taken in any state, and the
keys are all accepted from the empty line on.  Either both lines have no value and both screens show
a failure, or both end in the same result; and in both cases the same is said. -/
theorem press_phrase_agrees_with_keys (u : Utterance) (learning : Bool) (s : State) :
    ∃ s₁ effects₁ typed s₂ effects₂ said,
      press learning s (.phrase (some u.said)) = .ok (s₁, effects₁) ∧
      pressAll learning .empty (keys u) = .ok typed ∧
      press learning typed .equals = .ok (s₂, effects₂) ∧
      effects₁.filter Effect.isSpoken = [.speak said] ∧
      effects₂.filter Effect.isSpoken = [.speak said] ∧
      ((s₁.failed = false ∧ s₂.failed = false ∧ s₁.line = s₂.line ∧ s₁.operand = s₂.operand) ∨
        (s₁.failed = true ∧ s₂.failed = true ∧
          s₁.display = "Error".toList ∧ s₂.display = "Error".toList)) := by
  obtain ⟨operand, htyped⟩ := pressAll_keys learning u
  have htypedLine : u.line ≠ [] := line_ne_nil_of_keyboardLine u.keyboardLine_line_ne_nil
  -- the line of the phrase has spaces of its own, but what is evaluated of it is the same
  obtain ⟨line, hline⟩ : ∃ line, expression u.said = line := ⟨_, rfl⟩
  have hkeyboard : keyboardLine line = keyboardLine u.line := by
    rw [← hline, u.keyboardLine_expression_said]
  have hne : line ≠ [] := by
    refine line_ne_nil_of_keyboardLine ?_
    rw [hkeyboard]
    exact u.keyboardLine_line_ne_nil
  obtain ⟨⟨said, hsaid₁, hsaid₂⟩, hagree⟩ := solve_agree learning
    (s := ({ s with failed := false } : State).withLine line) (t := .typing u.line operand)
    hne htypedLine hkeyboard
  have hact := act_phrase learning { s with failed := false } (some u.said)
  rw [Option.getD_some, solvePhrase_of_ne_nil (by rw [hline]; exact hne), hline] at hact
  refine ⟨_, _, _, _, _, said, press_of_act hact, htyped, press_equals learning _, ?_, ?_, ?_⟩
  · rw [filter_isSpoken_press]
    exact hsaid₁
  · rw [filter_isSpoken_press]
    exact hsaid₂
  · refine hagree.imp_right fun hfailed => ⟨hfailed.1, hfailed.2, ?_, ?_⟩
    · exact if_pos hfailed.1
    · exact if_pos hfailed.2

/-- Two and a half divided by four, said after a failure, and typed. -/
theorem press_phrase_agrees_with_keys_two_point_five :
    ∃ s₁ effects₁ typed s₂ effects₂ said,
      press true ⟨"1 +".toList, [], true, "1 +".toList, true⟩
          (.phrase (some "Two point 5 divided by FOUR".toList)) = .ok (s₁, effects₁) ∧
      pressAll true .empty
          [.digit ['2'], .point, .digit ['5'], .operator (some ['÷']), .digit ['4']] = .ok typed ∧
      press true typed .equals = .ok (s₂, effects₂) ∧
      s₁.line = "0.625".toList ∧ s₂.line = "0.625".toList ∧ s₁.operand = s₂.operand ∧
      effects₁.filter Effect.isSpoken = [.speak said] ∧
      effects₂.filter Effect.isSpoken = [.speak said] := by
  have hsaid : twoPointFiveByFour.said = "Two point 5 divided by FOUR".toList := by decide
  have hkeys : keys twoPointFiveByFour =
      [.digit ['2'], .point, .digit ['5'], .operator (some ['÷']), .digit ['4']] := rfl
  obtain ⟨s₁, effects₁, typed, s₂, effects₂, said, hvoice, htyped, hequals, hsaid₁, hsaid₂,
    hagree⟩ := press_phrase_agrees_with_keys twoPointFiveByFour true
      ⟨"1 +".toList, [], true, "1 +".toList, true⟩
  rw [hsaid] at hvoice
  rw [hkeys] at htyped
  have hresult : (press true ⟨"1 +".toList, [], true, "1 +".toList, true⟩
      (.phrase (some "Two point 5 divided by FOUR".toList))).map
        (fun o => (o.1.failed, o.1.line)) = .ok (false, "0.625".toList) := by decide +kernel
  rw [hvoice] at hresult
  obtain ⟨hfailed, hline⟩ := Prod.mk.inj (Except.ok.inj hresult)
  rcases hagree with ⟨-, -, hlines, hoperands⟩ | ⟨hfailed', -⟩
  · exact ⟨s₁, effects₁, typed, s₂, effects₂, said, hvoice, htyped, hequals, hline,
      hlines.symm.trans hline, hoperands, hsaid₁, hsaid₂⟩
  · exact absurd (hfailed.symm.trans hfailed') Bool.false_ne_true

end SpokenCalculator.Editor
