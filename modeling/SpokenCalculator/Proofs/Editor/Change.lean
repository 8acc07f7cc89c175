import SpokenCalculator.Proofs.Editor.Restore

/-!
# What a command changes

Whatever is asked for, the line is left in one of a few ways: as it was, with something more at its
end, with another number at its end, with less at its end, empty, as a line that was evaluated
before, or evaluated.  An invariant of the line is an invariant of each of these changes.

* `Solved`: what an evaluation leaves;
* `Change`: what each command can leave, and when;
* `Tidy.change`, `change_of_press`: every command makes one of these changes;
* `Run.invariant`: what the changes of a run keep.
-/

namespace SpokenCalculator.Editor
open Text

/-- What an evaluation of the line leaves: the same line with a failure on the screen, or the result
in its place. -/
inductive Solved (s : State) : State → Prop
  | failed {f : Fault} (hv : evaluate (keyboardLine s.line) = .error f) :
      Solved s { s with evaluatedLine := s.line, evaluated := true, failed := true }
  | valued {v : Binary64} (hv : evaluate (keyboardLine s.line) = .ok v) :
      Solved s ⟨resultText v, resultText v, true, s.line, false⟩

/-- What a command can leave. -/
inductive Change (s : State) : Command → State → Prop
  /-- A command that evaluates no line is refused, or only heard. -/
  | refused {c : Command} (h : evaluated? s c = none) : Change s c s
  | digit {label : Label} {d : Char} (hd : isAsciiDigit d = true) :
      Change s (.digit label) (s.append [d])
  | point (h : '.' ∉ s.operand) : Change s .point (s.append ['.'])
  | operator {sign : Option Text} (hne : s.line ≠ []) (hlast : s.line.getLast? ≠ some ' ')
      (o : Operation) :
      Change s (.operator sign)
        { s with line := s.line ++ operatorText o, operand := [], evaluated := false }
  | percent {front : Text} (hline : s.line = front ++ s.operand) {v : Binary64}
      (hv : Binary64.ofText? s.operand = some v) :
      Change s .percent (s.withOperand front (resultText (v / hundred)))
  | sign {front : Text} (hline : s.line = front ++ s.operand) (hne : s.operand ≠ []) :
      Change s .sign (s.withOperand front (toggled s.operand).1)
  /-- There is nothing to erase. -/
  | nothing (h : s.line = []) : Change s .backspace { s with evaluated := false }
  | erased {c : Char} (hc : (dropTail (· == ' ') s.line).getLast? = some c) :
      Change s .backspace
        { s with line := eraseLast s.line c, operand := s.operand.dropLast, evaluated := false }
  /-- The line that was evaluated is brought back. -/
  | restored (h : s.evaluated = true) :
      Change s .backspace
        { s with line := s.evaluatedLine, operand := [], evaluated := false }
  | clear : Change s .clear .empty
  | equals {s' : State} (hne : s.line ≠ []) (h : Solved s s') : Change s .equals s'
  | phrase {heard : Option Text} {s' : State} (hne : Phrase.expression (heard.getD []) ≠ [])
      (h : Solved (s.withLine (Phrase.expression (heard.getD []))) s') :
      Change s (.phrase heard) s'

variable {s : State}

theorem solved_solve (hne : s.line ≠ []) (learning : Bool) : Solved s (solve learning s).1 := by
  rcases hv : evaluate (keyboardLine s.line) with f | v
  · rw [solve_of_error learning hne hv]
    exact .failed hv
  · rw [solve_of_ok learning hne hv]
    exact .valued hv

theorem solved_solve_withLine (s : State) {line : Text} (hne : line ≠ []) (learning : Bool) :
    Solved (s.withLine line) (solve learning (s.withLine line)).1 :=
  solved_solve hne learning

theorem change_typeDigit (s : State) (label : Label) (t : Codes) :
    Change s (.digit label) (typeDigit s t).1 := by
  unfold typeDigit
  split
  · split_ifs with hd
    · exact .digit hd
    · exact .refused rfl
  · exact .refused rfl

theorem change_typePoint (s : State) : Change s .point (typePoint s).1 := by
  unfold typePoint
  split_ifs with hpoint
  · exact .refused rfl
  · exact .point (by simpa using hpoint)

theorem change_typeOperator (s : State) (sign : Option Text) :
    Change s (.operator sign) (typeOperator s sign).1 := by
  unfold typeOperator
  split
  · exact .refused rfl
  · rename_i o _
    split_ifs with htakes
    · obtain ⟨hne, hlast⟩ : s.line ≠ [] ∧ s.line.getLast? ≠ some ' ' := by
        simpa [State.takesOperator] using htakes
      exact .operator hne hlast o
    · exact .refused rfl

theorem Tidy.change_takePercent (hs : Tidy s) : Change s .percent (Editor.takePercent s).1 := by
  obtain ⟨front, hline⟩ := hs.ends
  by_cases hne : s.operand = []
  · rw [takePercent_of_eq_nil hne]
    exact .refused rfl
  · rcases hv : Binary64.ofText? s.operand with - | v
    · rw [takePercent_of_none hv]
      exact .refused rfl
    · rw [takePercent_of_some hline.symm hne hv]
      exact .percent hline.symm hv

theorem Tidy.change_toggleSign (hs : Tidy s) : Change s .sign (Editor.toggleSign s).1 := by
  obtain ⟨front, hline⟩ := hs.ends
  by_cases hne : s.operand = []
  · rw [toggleSign_of_eq_nil hne]
    exact .refused rfl
  · rw [toggleSign_of_ne_nil hline.symm hne]
    exact .sign hline.symm hne

/-- Erasing leaves no evaluation to take back, if there was none. -/
theorem change_erase {o : Outcome} (ho : erase { s with evaluated := false } = .ok o) :
    Change s .backspace o.1 := by
  unfold erase at ho
  split_ifs at ho with hnil
  · cases ho
    exact .nothing hnil
  · split at ho
    · cases ho
    · rename_i c hc
      cases ho
      exact .erased hc

theorem change_stepBack {o : Outcome} (ho : stepBack s = .ok o) : Change s .backspace o.1 := by
  unfold stepBack at ho
  split_ifs at ho with hevaluated hnil
  · exact change_erase ho
  · cases ho
    exact .restored hevaluated
  · have hsame : { s with evaluated := false } = s := by
      rw [Bool.not_eq_true] at hevaluated
      rw [← hevaluated]
    exact change_erase (hsame ▸ ho)

/-- **Every command makes one of these changes.** -/
theorem Tidy.change (hs : Tidy s) {c : Command} {learning : Bool} {o : Outcome}
    (ho : act learning s c = .ok o) : Change s c o.1 := by
  cases c with
  | digit label =>
    obtain ⟨t, -, rfl⟩ := act_digit_eq_ok_iff.1 ho
    exact change_typeDigit s label t
  | point =>
    cases ho
    exact change_typePoint s
  | operator sign =>
    cases ho
    exact change_typeOperator s sign
  | percent =>
    cases ho
    exact hs.change_takePercent
  | sign =>
    cases ho
    exact hs.change_toggleSign
  | backspace => exact change_stepBack ho
  | clear =>
    cases ho
    exact .clear
  | equals =>
    cases ho
    by_cases hne : s.line = []
    · rw [Editor.solve, if_pos hne]
      exact .refused (if_pos hne)
    · exact .equals hne (solved_solve hne learning)
  | phrase heard =>
    obtain rfl := Except.ok.inj ho
    by_cases hne : Phrase.expression (heard.getD []) = []
    · have hnone : evaluated? s (.phrase heard) = none := evaluated?_phrase_of_eq_nil hne s
      rw [solvePhrase_of_eq_nil hne]
      exact .refused hnone
    · simp only [solvePhrase_of_ne_nil hne]
      exact .phrase hne (solved_solve_withLine s hne learning)
  | silence code =>
    cases ho
    exact .refused rfl
  | foreign value => exact absurd ho (act_foreign_ne_ok _ _ _ _)

/-! ### Runs -/

theorem Run.reached {ps : List Press} (hs : Run ps s) : Reached (fun _ => True) s := by
  induction hs with
  | start => exact .empty
  | press _ h ih => exact .press ih trivial h

/-- What a press leaves is a change of the line that shows no failure. -/
theorem change_of_press {ps : List Press} (hs : Run ps s) {s' : State} {c : Command}
    {learning : Bool} {effects : List Effect} (h : press learning s c = .ok (s', effects)) :
    Change { s with failed := false } c s' := by
  obtain ⟨o, hact, rfl, -⟩ := exists_act_of_press h
  exact hs.reached.tidy.unfailed.change hact

/-- **What holds of the empty line and is kept by the changes that allowed presses make holds as
long as all presses are allowed.** -/
theorem Run.invariant {I : State → Prop} {allowed : Press → Prop} (hempty : I .empty)
    (hchange : ∀ {s s' : State} {c : Command}, Tidy s → I s → allowed ⟨s, c⟩ →
      Change { s with failed := false } c s' → I s')
    {ps : List Press} (hs : Run ps s) (hps : ∀ p ∈ ps, allowed p) : I s := by
  induction hs with
  | start => exact hempty
  | @press ps s s' c learning effects hs h ih =>
    obtain ⟨hallowed, hps⟩ := List.forall_mem_cons.1 hps
    exact hchange hs.reached.tidy (ih hps) hallowed (change_of_press hs h)

end SpokenCalculator.Editor
