import SpokenCalculator.Proofs.Editor.Change

/-!
# What is typed is erased again

A step back takes away what the last accepted key added.  A digit and a point are one character.  An
operator is accepted only where the line does not end with a space, so it goes with its own two
spaces and no other.  After the first key there is no evaluation to take back, whatever was there
before.

* `Added`: what an accepted key adds to the line;
* `Accepted`: keys one after another, each of which changes the line;
* `exists_added_of_press`, `press_backspace_of_added`: one key, and the step back over it;
* `exists_stepBackAll_of_accepted`: as many steps back as keys.
-/

namespace SpokenCalculator.Editor
open Text

variable {s s' t : State} {c : Command} {cs : List Command} {learning : Bool}
  {effects : List Effect} {line added : Text}

/-! ### One key -/

/-- What an accepted key adds to the line: one character that is neither a space nor the sign of an
operation, or an operator where the line does not end with a space. -/
inductive Added (line : Text) : Text → Prop
  | char {c : Char} (hc : isOperandChar c = true) : Added line [c]
  | operator (hlast : line.getLast? ≠ some ' ') (o : Operation) : Added line (operatorText o)

theorem change_of_isTyping (hc : c.isTyping = true)
    (h : press learning s c = .ok (s', effects)) : Change { s with failed := false } c s' := by
  cases c with
  | digit label =>
    obtain ⟨o, hact, rfl, -⟩ := exists_act_of_press h
    obtain ⟨t, -, rfl⟩ := act_digit_eq_ok_iff.1 hact
    exact change_typeDigit _ label t
  | point =>
    cases h
    exact change_typePoint _
  | operator sign =>
    cases h
    exact change_typeOperator _ sign
  | _ => cases hc

/-- An accepted key adds something at the end of the line, and leaves no evaluation to take back. -/
theorem exists_added_of_press (hc : c.isTyping = true)
    (h : press learning s c = .ok (s', effects)) (hline : s'.line ≠ s.line) :
    s'.evaluated = false ∧ ∃ added, Added s.line added ∧ s'.line = s.line ++ added := by
  cases change_of_isTyping hc h with
  | refused => exact absurd rfl hline
  | digit hd => exact ⟨rfl, _, .char (isOperandChar_of_isAsciiDigit hd), rfl⟩
  | point => exact ⟨rfl, _, .char (by decide), rfl⟩
  | operator _ hlast o => exact ⟨rfl, _, .operator hlast o, rfl⟩
  | _ => cases hc

/-- What a key added is what is erased next. -/
theorem Added.erase (h : Added line added) :
    ∃ d, (dropTail (· == ' ') (line ++ added)).getLast? = some d ∧
      eraseLast (line ++ added) d = line := by
  cases h with
  | char hd =>
    obtain ⟨d, hlast, herase⟩ :=
      erase_operand line ⟨List.cons_ne_nil _ [], isOperandText_singleton hd⟩
    exact ⟨d, hlast, herase.trans (List.append_nil line)⟩
  | operator hlast o =>
    obtain ⟨hglyph, herase⟩ := erase_operatorText line o
    exact ⟨o.glyph, hglyph, herase.trans (dropTail_of_getLast hlast)⟩

theorem Added.ne_nil (h : Added line added) : added ≠ [] := by
  cases h <;> exact List.cons_ne_nil _ _

/-- **A step back takes away what the last key added.** -/
theorem press_backspace_of_added (h : Added line added) (hline : s.line = line ++ added)
    (hs : s.evaluated = false) (learning : Bool) :
    ∃ s' effects, press learning s .backspace = .ok (s', effects) ∧ s'.line = line ∧
      s'.evaluated = false := by
  obtain ⟨d, hlast, herase⟩ := h.erase
  have hne : s.line ≠ [] := by
    rw [hline]
    exact List.append_ne_nil_of_right_ne_nil line h.ne_nil
  have hact : act learning { s with failed := false } .backspace =
      .ok ({ s with line := line, operand := s.operand.dropLast, failed := false },
        [.speak (erasedPhrase d)]) := by
    show stepBack _ = _
    rw [stepBack, if_neg (by simp [hs]), erase, if_neg hne]
    simp only [hline, hlast, herase]
  exact ⟨_, _, press_of_act hact, rfl, hs⟩

/-! ### Many keys -/

/-- Digits, points and operators that are typed one after another, each of which changes the
line. -/
inductive Accepted : State → List Command → State → Prop
  | nil (s : State) : Accepted s [] s
  | cons {s s' t : State} {c : Command} {cs : List Command} {learning : Bool}
      {effects : List Effect} (hc : c.isTyping = true)
      (h : press learning s c = .ok (s', effects)) (hline : s'.line ≠ s.line)
      (hrest : Accepted s' cs t) : Accepted s (c :: cs) t

/-- Steps back one after another, up to the first that cannot be taken.  At each of them the user is
a learner or not. -/
def stepBackAll (learners : List Bool) (s : State) : Except EditError State :=
  learners.foldlM (fun s learning => (press learning s .backspace).map Prod.fst) s

theorem stepBackAll_concat {learners : List Bool} (h : stepBackAll learners s = .ok s')
    (hpress : press learning s' .backspace = .ok (t, effects)) :
    stepBackAll (learners ++ [learning]) s = .ok t := by
  rw [stepBackAll] at h
  rw [stepBackAll, List.foldlM_append, h]
  show stepBackAll [learning] s' = .ok t
  rw [stepBackAll, List.foldlM_cons, hpress]
  rfl

/-- The steps back go through the lines of the keys, the last one first. -/
theorem Accepted.exists_stepBackAll (h : Accepted s cs t) {learners : List Bool}
    (hlength : learners.length = cs.length) :
    ∃ u, stepBackAll learners t = .ok u ∧ u.line = s.line ∧
      (s.evaluated = false → u.evaluated = false) := by
  induction h generalizing learners with
  | nil s =>
    rw [List.length_eq_zero_iff.1 hlength]
    exact ⟨s, rfl, rfl, id⟩
  | @cons s s' t c cs learning effects hc hpress hline hrest ih =>
    obtain ⟨hevaluated, added, hadded, hline'⟩ := exists_added_of_press hc hpress hline
    obtain ⟨learners, last, rfl⟩ : ∃ before last, learners = before ++ [last] :=
      ⟨_, _, (List.dropLast_concat_getLast (List.ne_nil_of_length_eq_add_one hlength)).symm⟩
    rw [List.length_append, List.length_cons] at hlength
    obtain ⟨u, hu, huline, huevaluated⟩ := ih (Nat.succ.inj hlength)
    obtain ⟨v, _, hv, hvline, hvevaluated⟩ :=
      press_backspace_of_added hadded (huline.trans hline') (huevaluated hevaluated) last
    exact ⟨v, stepBackAll_concat hu hv, hvline, fun _ => hvevaluated⟩

/-- **What is typed is erased again.**  After keys each of which was accepted, from whatever state,
as many steps back can be taken, and they bring back the line. -/
theorem exists_stepBackAll_of_accepted {s t : State} {cs : List Command} (h : Accepted s cs t)
    {learners : List Bool} (hlength : learners.length = cs.length) :
    ∃ u, stepBackAll learners t = .ok u ∧ u.line = s.line := by
  obtain ⟨u, hu, hline, -⟩ := h.exists_stepBackAll hlength
  exact ⟨u, hu, hline⟩

/-- Two keys after a failure, which the first of them takes off the screen, so that the steps back
erase and do not bring back the line that was evaluated. -/
theorem exists_stepBackAll_after_failure :
    Accepted ⟨"5 + ".toList, [], true, "5 + ".toList, true⟩
        [.digit ['3'], .operator (some ['-'])]
        ⟨"5 + 3 − ".toList, [], false, "5 + ".toList, false⟩ ∧
      ∃ u, stepBackAll [true, false] ⟨"5 + 3 − ".toList, [], false, "5 + ".toList, false⟩ = .ok u ∧
        u.line = "5 + ".toList := by
  have h : Accepted ⟨"5 + ".toList, [], true, "5 + ".toList, true⟩
      [.digit ['3'], .operator (some ['-'])]
      ⟨"5 + 3 − ".toList, [], false, "5 + ".toList, false⟩ :=
    @Accepted.cons _ ⟨"5 + 3".toList, ['3'], false, "5 + ".toList, false⟩ _ _ _ false _ rfl rfl
      (by decide) (@Accepted.cons _ _ _ _ _ true _ rfl rfl (by decide) (.nil _))
  exact ⟨h, exists_stepBackAll_of_accepted h rfl⟩

end SpokenCalculator.Editor
