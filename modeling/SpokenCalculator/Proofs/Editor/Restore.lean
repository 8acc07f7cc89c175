import SpokenCalculator.Proofs.Editor.Ends

/-!
# The way back to the evaluated line

An evaluation leaves its result in the place of the line, or the line with a failure on the screen.
In both cases the line that was evaluated is kept until something else is typed, and a step back
brings it back.  Which line that is can be told from the presses alone: it is the one of the last
press that evaluated any, whatever was refused since.

* `evaluated?`: the line that a command evaluates;
* `Run`: presses from the empty line on, and `lastEvaluated`, the line that they evaluated last;
* `SameEvaluation`: what every command that evaluates nothing leaves of an evaluation;
* `Keeps.press`, `Run.keeps`: what one press keeps, and what a run does;
* `press_backspace_of_run`: a step back after an evaluation.
-/

namespace SpokenCalculator.Editor

/-! ### Runs -/

/-- The line that a command evaluates, if it does: the line that is there, or the expression of a
phrase. -/
def evaluated? (s : State) : Command → Option Text
  | .equals => if s.line = [] then none else some s.line
  | .phrase heard =>
    if Phrase.expression (heard.getD []) = [] then none
    else some (Phrase.expression (heard.getD []))
  | _ => none

theorem evaluated?_phrase_of_eq_nil {heard : Option Text}
    (h : Phrase.expression (heard.getD []) = []) (s : State) :
    evaluated? s (.phrase heard) = none := by
  rw [evaluated?, if_pos h]

theorem evaluated?_phrase_of_ne_nil {heard : Option Text}
    (h : Phrase.expression (heard.getD []) ≠ []) (s : State) :
    evaluated? s (.phrase heard) = some (Phrase.expression (heard.getD [])) := by
  rw [evaluated?, if_neg h]

/-- A press: the line that it found, and its command. -/
structure Press where
  before : State
  command : Command

/-- The line that a press evaluated. -/
def Press.evaluated? (p : Press) : Option Text := Editor.evaluated? p.before p.command

/-- The line that presses evaluated last, the most recent press being the first. -/
def lastEvaluated (ps : List Press) : Option Text := ps.findSome? Press.evaluated?

/-- Presses from the empty line on, the most recent first, and what they leave. -/
inductive Run : List Press → State → Prop
  | start : Run [] .empty
  | press {ps : List Press} {s s' : State} {c : Command} {learning : Bool} {effects : List Effect}
      (hs : Run ps s) (h : press learning s c = .ok (s', effects)) : Run (⟨s, c⟩ :: ps) s'

/-! ### Commands that evaluate nothing -/

/-- No failure is shown, and an evaluation that can be taken back is the same as before. -/
structure SameEvaluation (s s' : State) : Prop where
  failed : s'.failed = false
  evaluated : s'.evaluated = true → s.evaluated = true ∧ s'.evaluatedLine = s.evaluatedLine

variable {s s' : State}

theorem SameEvaluation.refl (h : s.failed = false) : SameEvaluation s s := ⟨h, fun he => ⟨he, rfl⟩⟩

/-- After a change of the line there is no evaluation to take back. -/
theorem sameEvaluation_of_eq_false (hfailed : s'.failed = false) (h : s'.evaluated = false) :
    SameEvaluation s s' :=
  ⟨hfailed, fun he => absurd he (by rw [h]; decide)⟩

theorem sameEvaluation_typeDigit (h : s.failed = false) (label : Codes) :
    SameEvaluation s (typeDigit s label).1 := by
  unfold typeDigit
  split
  · split_ifs
    · exact sameEvaluation_of_eq_false h rfl
    · exact .refl h
  · exact .refl h

theorem sameEvaluation_typePoint (h : s.failed = false) : SameEvaluation s (typePoint s).1 := by
  unfold typePoint
  split_ifs
  · exact .refl h
  · exact sameEvaluation_of_eq_false h rfl

theorem sameEvaluation_typeOperator (h : s.failed = false) (sign : Option Text) :
    SameEvaluation s (typeOperator s sign).1 := by
  unfold typeOperator
  split
  · exact .refl h
  · split_ifs
    · exact sameEvaluation_of_eq_false h rfl
    · exact .refl h

theorem sameEvaluation_replaceOperand (h : s.failed = false) {number : Text}
    (hs' : s.replaceOperand? number = some s') : SameEvaluation s s' := by
  obtain ⟨line, -, rfl⟩ := Option.map_eq_some_iff.1 hs'
  exact sameEvaluation_of_eq_false h rfl

theorem sameEvaluation_takePercent (h : s.failed = false) :
    SameEvaluation s (takePercent s).1 := by
  unfold takePercent
  split_ifs
  · exact .refl h
  · split
    · exact .refl h
    · rename_i s' hs'
      obtain ⟨v, -, hreplace⟩ := Option.bind_eq_some_iff.1 hs'
      exact sameEvaluation_replaceOperand h hreplace

theorem sameEvaluation_toggleSign (h : s.failed = false) : SameEvaluation s (toggleSign s).1 := by
  unfold toggleSign
  split_ifs
  · exact .refl h
  · split
    · exact .refl h
    · rename_i s' hs'
      exact sameEvaluation_replaceOperand h hs'

theorem sameEvaluation_erase {o : Outcome} (h : s.failed = false) (ho : erase s = .ok o) :
    SameEvaluation s o.1 := by
  unfold erase at ho
  split_ifs at ho
  · cases ho
    exact .refl h
  · split at ho
    · cases ho
    · cases ho
      exact ⟨h, fun he => ⟨he, rfl⟩⟩

/-- After a step back the evaluation is not taken back a second time. -/
theorem sameEvaluation_stepBack {o : Outcome} (h : s.failed = false) (ho : stepBack s = .ok o) :
    SameEvaluation s o.1 := by
  unfold stepBack at ho
  split_ifs at ho
  · have herase := sameEvaluation_erase (s := { s with evaluated := false }) h ho
    refine sameEvaluation_of_eq_false herase.failed ?_
    exact Bool.eq_false_iff.2 fun he => absurd (herase.evaluated he).1 Bool.false_ne_true
  · cases ho
    exact sameEvaluation_of_eq_false h rfl
  · exact sameEvaluation_erase h ho

/-! ### Evaluations -/

theorem State.line_withLine (s : State) (line : Text) : (s.withLine line).line = line := rfl

/-- What an evaluation of a line leaves: the line, to be brought back, and the line itself with a
failure where it has no value. -/
structure Evaluates (line : Text) (s : State) : Prop where
  ne_nil : line ≠ []
  evaluated : s.evaluated = true
  evaluatedLine : s.evaluatedLine = line
  failed_iff : s.failed = true ↔ ∃ f, evaluate (keyboardLine line) = .error f
  line_of_failed : s.failed = true → s.line = line

theorem evaluates_solve (learning : Bool) {line : Text} (hline : s.line = line)
    (hne : line ≠ []) : Evaluates line (solve learning s).1 := by
  subst hline
  rcases hv : evaluate (keyboardLine s.line) with f | v
  · rw [solve_of_error learning hne hv]
    exact ⟨hne, rfl, rfl, ⟨fun _ => ⟨f, hv⟩, fun _ => rfl⟩, fun _ => rfl⟩
  · rw [solve_of_ok learning hne hv]
    refine ⟨hne, rfl, rfl, ⟨fun h => absurd h Bool.false_ne_true, ?_⟩,
      fun h => absurd h Bool.false_ne_true⟩
    rintro ⟨f, hf⟩
    cases hv.symm.trans hf

/-- **A command evaluates the line that it should, or leaves an evaluation as it was.** -/
theorem act_cases {learning : Bool} {c : Command} {o : Outcome} (h : s.failed = false)
    (ho : act learning s c = .ok o) :
    evaluated? s c = none ∧ SameEvaluation s o.1 ∨
      ∃ line, evaluated? s c = some line ∧ Evaluates line o.1 := by
  cases c with
  | equals =>
    cases ho
    by_cases hne : s.line = []
    · refine Or.inl ⟨if_pos hne, ?_⟩
      rw [solve, if_pos hne]
      exact .refl h
    · exact Or.inr ⟨s.line, if_neg hne, evaluates_solve learning rfl hne⟩
  | phrase heard =>
    obtain rfl := Except.ok.inj ho
    by_cases hne : Phrase.expression (heard.getD []) = []
    · refine Or.inl ⟨evaluated?_phrase_of_eq_nil hne s, ?_⟩
      rw [solvePhrase_of_eq_nil hne]
      exact .refl h
    · refine Or.inr ⟨_, evaluated?_phrase_of_ne_nil hne s, ?_⟩
      simp only [solvePhrase_of_ne_nil hne]
      exact evaluates_solve learning (State.line_withLine s _) hne
  | digit label =>
    obtain ⟨t, -, rfl⟩ := act_digit_eq_ok_iff.1 ho
    exact Or.inl ⟨rfl, sameEvaluation_typeDigit h t⟩
  | point =>
    cases ho
    exact Or.inl ⟨rfl, sameEvaluation_typePoint h⟩
  | operator sign =>
    cases ho
    exact Or.inl ⟨rfl, sameEvaluation_typeOperator h sign⟩
  | percent =>
    cases ho
    exact Or.inl ⟨rfl, sameEvaluation_takePercent h⟩
  | sign =>
    cases ho
    exact Or.inl ⟨rfl, sameEvaluation_toggleSign h⟩
  | backspace => exact Or.inl ⟨rfl, sameEvaluation_stepBack h ho⟩
  | clear =>
    cases ho
    exact Or.inl ⟨rfl, sameEvaluation_of_eq_false rfl rfl⟩
  | silence code =>
    cases ho
    exact Or.inl ⟨rfl, .refl h⟩
  | foreign value => exact absurd ho (act_foreign_ne_ok _ _ _ _)

/-! ### What a run keeps -/

/-- The line that was evaluated last is the one that a step back brings back, and it is still there
where a failure is shown. -/
structure Keeps (last : Option Text) (s : State) : Prop where
  evaluated : s.evaluated = true → s.evaluatedLine ≠ [] ∧ last = some s.evaluatedLine
  failed : s.failed = true → s.evaluated = true ∧ s.line = s.evaluatedLine

theorem keeps_empty : Keeps none .empty := ⟨nofun, nofun⟩

theorem Evaluates.keeps {line : Text} (h : Evaluates line s) : Keeps (some line) s where
  evaluated _ := by
    rw [h.evaluatedLine]
    exact ⟨h.ne_nil, rfl⟩
  failed hfailed := ⟨h.evaluated, (h.line_of_failed hfailed).trans h.evaluatedLine.symm⟩

theorem Keeps.of_sameEvaluation {last : Option Text} (h : Keeps last s)
    (hsame : SameEvaluation s s') : Keeps last s' where
  evaluated he := by
    obtain ⟨hs, hline⟩ := hsame.evaluated he
    rw [hline]
    exact h.evaluated hs
  failed hfailed := absurd hfailed (by rw [hsame.failed]; decide)

/-- **A press keeps the line that was evaluated last**, and shows a failure exactly if it evaluated
a line without a value. -/
theorem Keeps.press {last : Option Text} (h : Keeps last s) {c : Command} {learning : Bool}
    {effects : List Effect} (hpress : press learning s c = .ok (s', effects)) :
    Keeps ((evaluated? s c).or last) s' ∧
      (s'.failed = true ↔ ∃ line f, evaluated? s c = some line ∧
        evaluate (keyboardLine line) = .error f) := by
  obtain ⟨o, hact, rfl, -⟩ := exists_act_of_press hpress
  have hunfailed : Keeps last { s with failed := false } := ⟨h.evaluated, nofun⟩
  have hsame : evaluated? { s with failed := false } c = evaluated? s c := rfl
  rcases act_cases rfl hact with ⟨hnone, ho⟩ | ⟨line, hsome, ho⟩
  · rw [← hsame, hnone, ho.failed]
    refine ⟨hunfailed.of_sameEvaluation ho, fun hfalse => absurd hfalse Bool.false_ne_true, ?_⟩
    rintro ⟨line, f, hline, -⟩
    cases hline
  · rw [← hsame, hsome, ho.failed_iff]
    refine ⟨ho.keeps, fun ⟨f, hf⟩ => ⟨line, f, rfl, hf⟩, ?_⟩
    rintro ⟨line', f, hline, hf⟩
    cases hline
    exact ⟨f, hf⟩

theorem Run.keeps {ps : List Press} (hs : Run ps s) : Keeps (lastEvaluated ps) s := by
  induction hs with
  | start => exact keeps_empty
  | @press ps s s' c learning effects hs h ih =>
    have hlast : lastEvaluated (⟨s, c⟩ :: ps) = (evaluated? s c).or (lastEvaluated ps) := by
      rw [lastEvaluated, List.findSome?_cons]
      cases hc : Press.evaluated? ⟨s, c⟩ <;> rw [Press.evaluated?] at hc <;> rw [hc] <;> rfl
    rw [hlast]
    exact (ih.press h).1

/-- A failure is shown exactly right after an evaluation of a line without a value. -/
theorem Run.failed_iff {ps : List Press} (hs : Run ps s) :
    s.failed = true ↔ ∃ p rest line f, ps = p :: rest ∧ p.evaluated? = some line ∧
      evaluate (keyboardLine line) = .error f := by
  cases hs with
  | start =>
    refine ⟨nofun, ?_⟩
    rintro ⟨p, rest, line, f, hps, -⟩
    cases hps
  | press hs h =>
    rw [(hs.keeps.press h).2]
    constructor
    · rintro ⟨line, f, hline, hf⟩
      exact ⟨_, _, line, f, rfl, hline, hf⟩
    · rintro ⟨p, rest, line, f, hps, hline, hf⟩
      cases hps
      exact ⟨line, f, hline, hf⟩

/-- The state in which a line was brought back. -/
def State.restored (line : Text) : State := ⟨line, [], false, line, false⟩

theorem press_backspace_of_evaluated (learning : Bool) (h : s.evaluated = true)
    (hne : s.evaluatedLine ≠ []) :
    press learning s .backspace = .ok (.restored s.evaluatedLine,
      [.vibrate, .display s.evaluatedLine, .speak "restored".toList]) := by
  have hact : act learning { s with failed := false } .backspace =
      .ok (.restored s.evaluatedLine, [.speak "restored".toList]) := by
    show stepBack _ = _
    rw [stepBack, if_pos h, if_neg hne]
    rfl
  have hchange : State.restored s.evaluatedLine ≠ s := by
    intro heq
    rw [← heq] at h
    cases h
  have hdisplay : (State.restored s.evaluatedLine).display = s.evaluatedLine := if_neg hne
  rw [press_of_act hact, shown, if_neg hchange, hdisplay]
  rfl

/-- **After an evaluation a step back brings back the line that was evaluated last.**  This holds
as long as nothing was changed since, and a failure is shown only right after an evaluation that
failed, with the line still there. -/
theorem press_backspace_of_run {ps : List Press} (hs : Run ps s) :
    (s.evaluated = true → s.evaluatedLine ≠ [] ∧ lastEvaluated ps = some s.evaluatedLine ∧
      ∀ learning, press learning s .backspace = .ok (.restored s.evaluatedLine,
        [.vibrate, .display s.evaluatedLine, .speak "restored".toList])) ∧
      (s.failed = true → s.evaluated = true ∧ s.line = s.evaluatedLine) ∧
      (s.failed = true ↔ ∃ p rest line f, ps = p :: rest ∧ p.evaluated? = some line ∧
        evaluate (keyboardLine line) = .error f) := by
  refine ⟨fun he => ?_, hs.keeps.failed, hs.failed_iff⟩
  obtain ⟨hne, hlast⟩ := hs.keeps.evaluated he
  exact ⟨hne, hlast, fun learning => press_backspace_of_evaluated learning he hne⟩

/-- A phrase without a value, a silence that takes the failure off the screen, and a step back to
the phrase. -/
theorem press_backspace_five_over_zero :
    ∃ ps p, Run ps ⟨"5 / 0".toList, [], true, "5 / 0".toList, true⟩ ∧
      (∃ line f, (ps.head?.bind Press.evaluated?) = some line ∧
        evaluate (keyboardLine line) = .error f) ∧
      Run (p :: ps) ⟨"5 / 0".toList, [], true, "5 / 0".toList, false⟩ ∧
      p.evaluated? = none ∧ lastEvaluated (p :: ps) = some "5 / 0".toList ∧
      press false ⟨"5 / 0".toList, [], true, "5 / 0".toList, false⟩ .backspace =
        .ok (.restored "5 / 0".toList,
          [.vibrate, .display "5 / 0".toList, .speak "restored".toList]) := by
  have hphrase : press true .empty (.phrase (some "five over zero".toList)) =
      .ok (⟨"5 / 0".toList, [], true, "5 / 0".toList, true⟩,
        [.display "Error".toList, .notify "Heard: five over zero".toList, .speak invalidPhrase,
          .notify invalidPhrase]) := by decide +kernel
  have h1 := Run.start.press hphrase
  have h2 : Run [⟨⟨"5 / 0".toList, [], true, "5 / 0".toList, true⟩, .silence none⟩,
      ⟨.empty, .phrase (some "five over zero".toList)⟩]
      ⟨"5 / 0".toList, [], true, "5 / 0".toList, false⟩ :=
    @Run.press _ _ _ (.silence none) true _ h1 rfl
  obtain ⟨-, -, hfailed⟩ := press_backspace_of_run h1
  obtain ⟨hback, -, -⟩ := press_backspace_of_run h2
  obtain ⟨p, rest, line, f, hps, hline, hf⟩ := hfailed.1 rfl
  obtain ⟨-, hlast, hpress⟩ := hback rfl
  refine ⟨_, _, h1, ⟨line, f, ?_, hf⟩, h2, rfl, hlast, hpress false⟩
  rw [hps]
  exact hline

end SpokenCalculator.Editor
