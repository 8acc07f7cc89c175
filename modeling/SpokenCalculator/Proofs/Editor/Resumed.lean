import SpokenCalculator.Proofs.Editor.Change

/-!
# Numbers that are typed on

A step back that erases an operator, or brings back a line that was evaluated, leaves an operand at
the end of the line of which no number is being typed.  What is typed next goes on with that
operand, but the number being typed is only what is typed from then on, and so a percent and a sign
take a part of the operand.  The line before the number being typed stays the same until there is no
such number, or until it is the whole line.

* `lastPart_append`, `endsInOperand_iff`: the number being typed as a part of the operand at
  the end;
* `SameFront`: what stands before the number being typed stays there;
* `Uncovers`, `Change.front`: what each command does to the number being typed;
* `visited`, `begunOn`, `Run.line_eq`: the line on which the number being typed was begun;
* `press_percent_and_sign_of_run`: when a percent and a sign change the whole operand at the end.
-/

namespace SpokenCalculator.Editor
open Text

/-! ### The operand at the end of a line -/

theorem lastPart_append {t : Text} (ht : ' ' ∉ t) (line : Text) :
    lastPart (line ++ t) = lastPart line ++ t := by
  induction t using List.reverseRecOn with
  | nil => rw [List.append_nil, List.append_nil]
  | append_singleton t c ih =>
    rw [List.mem_append, not_or, List.mem_singleton] at ht
    rw [← List.append_assoc, lastPart_append_of_ne (Ne.symm ht.2), ih ht.1, List.append_assoc]

theorem lastPart_append_operatorText (line : Text) (o : Operation) :
    lastPart (line ++ operatorText o) = [] := by
  have hspace : operatorText o = [' ', o.glyph] ++ [' '] := rfl
  rw [hspace, ← List.append_assoc, lastPart_append_space]

theorem IsOperandText.space_notMem {t : Text} (h : IsOperandText t) : ' ' ∉ t := by
  intro hspace
  exact absurd (h ' ' hspace) (by decide)

/-- The number being typed is the whole operand at the end just if no part of that operand stands
before it. -/
theorem endsInOperand_iff {s : State} {front : Text} (hline : s.line = front ++ s.operand)
    (hoperand : IsOperandText s.operand) : EndsInOperand s ↔ lastPart front = [] := by
  rw [EndsInOperand, hline, lastPart_append hoperand.space_notMem, List.self_eq_append_left]

/-! ### What stands before the number being typed -/

/-- What stands before the number being typed is the same in both states. -/
def SameFront (s s' : State) : Prop :=
  ∀ front, s.line = front ++ s.operand → s'.line = front ++ s'.operand

variable {s s' : State}

theorem SameFront.refl (s : State) : SameFront s s := fun _ h => h

theorem sameFront_append (s : State) (t : Text) : SameFront s (s.append t) := by
  intro front hline
  show s.line ++ t = front ++ (s.operand ++ t)
  rw [hline, List.append_assoc]

/-- Another number ends the line where the one being typed did. -/
theorem sameFront_withOperand {front : Text} (hline : s.line = front ++ s.operand) (number : Text) :
    SameFront s (s.withOperand front number) := by
  intro front' hline'
  obtain rfl : front = front' := List.append_cancel_right (hline.symm.trans hline')
  rfl

/-- Erasing takes the last character of the number being typed, if there is one. -/
theorem sameFront_erased (hoperand : IsOperandText s.operand) (hne : s.operand ≠ []) {c : Char}
    (hc : (dropTail (· == ' ') s.line).getLast? = some c) :
    SameFront s
      { s with line := eraseLast s.line c, operand := s.operand.dropLast, evaluated := false } := by
  intro front hline
  obtain ⟨d, hlast, herase⟩ := erase_operand front ⟨hne, hoperand⟩
  rw [← hline] at hlast herase
  rw [Option.some.inj (hc.symm.trans hlast)]
  exact herase

/-- An evaluation keeps the line and the number being typed, or makes the result both of them. -/
theorem Solved.front (h : Solved s s') :
    s'.line = s.line ∧ s'.operand = s.operand ∨ s'.operand = s'.line := by
  cases h with
  | failed hv => exact Or.inl ⟨rfl, rfl⟩
  | valued hv => exact Or.inr rfl

/-! ### All commands -/

/-- A step back that does not take the last character of the number being typed: there is none, or
an evaluation is taken back. -/
def Uncovers (s : State) (c : Command) : Prop :=
  c = .backspace ∧ (s.operand = [] ∨ s.evaluated = true)

/-- **A command changes nothing before the number being typed, or makes it the whole line, or ends
it.**  In the last case the line ends with a space, unless it was a phrase, or a step back that
uncovered an operand. -/
theorem Change.front {c : Command} (h : Change s c s') (hoperand : IsOperandText s.operand) :
    SameFront s s' ∨ s'.operand = s'.line ∨
      s'.operand = [] ∧ (lastPart s'.line = [] ∨ c.isPhrase = true ∨ Uncovers s c) := by
  cases h with
  | refused => exact Or.inl (.refl s)
  | digit => exact Or.inl (sameFront_append s _)
  | point => exact Or.inl (sameFront_append s _)
  | operator _ _ o =>
    exact Or.inr (Or.inr ⟨rfl, Or.inl (lastPart_append_operatorText s.line o)⟩)
  | percent hline => exact Or.inl (sameFront_withOperand hline _)
  | sign hline => exact Or.inl (sameFront_withOperand hline _)
  | nothing => exact Or.inl fun _ hline => hline
  | erased hc =>
    by_cases hnil : s.operand = []
    · have hnil' : s.operand.dropLast = [] := by rw [hnil, List.dropLast_nil]
      exact Or.inr (Or.inr ⟨hnil', Or.inr (Or.inr ⟨rfl, Or.inl hnil⟩)⟩)
    · exact Or.inl (sameFront_erased hoperand hnil hc)
  | restored hevaluated =>
    exact Or.inr (Or.inr ⟨rfl, Or.inr (Or.inr ⟨rfl, Or.inr hevaluated⟩)⟩)
  | clear => exact Or.inr (Or.inl rfl)
  | equals _ h =>
    rcases h.front with ⟨hline, hsame⟩ | hwhole
    · refine Or.inl fun front hfront => ?_
      rw [hline, hsame]
      exact hfront
    · exact Or.inr (Or.inl hwhole)
  | phrase _ h =>
    rcases h.front with ⟨-, hnil⟩ | hwhole
    · exact Or.inr (Or.inr ⟨hnil, Or.inr (Or.inl rfl)⟩)
    · exact Or.inr (Or.inl hwhole)

/-! ### Runs -/

/-- What a press does to the number being typed. -/
theorem press_front {ps : List Press} (hs : Run ps s) {c : Command} {learning : Bool}
    {effects : List Effect} (h : press learning s c = .ok (s', effects)) :
    SameFront s s' ∨ s'.operand = s'.line ∨
      s'.operand = [] ∧ (lastPart s'.line = [] ∨ c.isPhrase = true ∨ Uncovers s c) :=
  (change_of_press hs h).front hs.reached.tidy.operand

/-- The states that a run went through, the most recent first. -/
def visited (s : State) (ps : List Press) : List State := s :: ps.map Press.before

theorem visited_cons (s : State) (p : Press) (ps : List Press) :
    visited s (p :: ps) = s :: visited p.before ps := rfl

/-- The line on which the number being typed was begun, by the states that led to it, the most
recent first: the line of the latest state in which no number was being typed, or nothing if the
number has become the whole line since. -/
def begunOn : List State → Text
  | [] => []
  | s :: ss => if s.operand = s.line then [] else if s.operand = [] then s.line else begunOn ss

/-- **The line is the one on which the number being typed was begun, and this number.** -/
theorem Run.line_eq {ps : List Press} (hs : Run ps s) :
    s.line = begunOn (visited s ps) ++ s.operand := by
  induction hs with
  | start => rfl
  | @press ps s s' c learning effects hs h ih =>
    rw [visited_cons, begunOn]
    split_ifs with hwhole hnil
    · exact hwhole.symm
    · rw [hnil, List.append_nil]
    · rcases press_front hs h with hsame | hwhole' | ⟨hnil', -⟩
      · exact hsame _ ih
      · exact absurd hwhole' hwhole
      · exact absurd hnil' hnil

/-- Without phrases and without steps back that uncover an operand, the number being typed is the
whole operand at the end. -/
theorem Run.endsInOperand {ps : List Press} (hs : Run ps s)
    (hps : ∀ p ∈ ps, p.command.isPhrase = false ∧ ¬ Uncovers p.before p.command) :
    EndsInOperand s := by
  induction hs with
  | start => rfl
  | @press ps s s' c learning effects hs h ih =>
    obtain ⟨hphrase, hcovers⟩ := hps _ (List.mem_cons_self ..)
    have hends := ih fun p hp => hps p (List.mem_cons_of_mem _ hp)
    have hoperand' := (hs.press h).reached.tidy.operand
    rcases press_front hs h with hsame | hwhole | ⟨hnil, hlast | hphrase' | huncovers⟩
    · obtain ⟨front, hline⟩ := hs.reached.tidy.ends
      refine (endsInOperand_iff (hsame front hline.symm) hoperand').2 ?_
      exact (endsInOperand_iff hline.symm hs.reached.tidy.operand).1 hends
    · have hline : s'.line = [] ++ s'.operand := hwhole.symm
      exact (endsInOperand_iff hline hoperand').2 rfl
    · exact hnil.trans hlast.symm
    · exact absurd hphrase' (by rw [hphrase]; decide)
    · exact absurd huncovers hcovers

/-- **The number being typed ends the line, and it is the whole operand at the end just if that
operand was empty when the number was begun.**  This is so unless a step back has uncovered an
operand, or a phrase left one.  A percent and a sign replace the number being typed and leave the
line on which it was begun as it is. -/
theorem press_percent_and_sign_of_run {ps : List Press} (hs : Run ps s) :
    s.line = begunOn (visited s ps) ++ s.operand ∧
      (s.operand = lastPart s.line ↔ lastPart (begunOn (visited s ps)) = []) ∧
      ((∀ p ∈ ps, p.command.isPhrase = false ∧ ¬ Uncovers p.before p.command) →
        s.operand = lastPart s.line) ∧
      (s.operand ≠ [] → ∀ learning,
        (∀ v, Binary64.ofText? s.operand = some v →
          (press learning s .percent).map Prod.fst =
            .ok { s.withOperand (begunOn (visited s ps)) (resultText (v / hundred)) with
              failed := false }) ∧
        (press learning s .sign).map Prod.fst =
          .ok { s.withOperand (begunOn (visited s ps)) (toggled s.operand).1 with
            failed := false }) := by
  have hline := hs.line_eq
  refine ⟨hline, endsInOperand_iff hline hs.reached.tidy.operand, hs.endsInOperand, ?_⟩
  intro hne learning
  constructor
  · intro v hv
    rw [map_press_percent, takePercent_of_some (s := { s with failed := false }) hline hne hv]
    rfl
  · rw [map_press_sign, toggleSign_of_ne_nil (s := { s with failed := false }) hline hne]
    rfl

/-- The line `56`, of which the five was left by a step back over an operator. -/
def fiftySix : State := ⟨"56".toList, ['6'], false, [], false⟩

/-- The presses that lead to this line. -/
def fiftySixPresses : List Press :=
  [⟨⟨['5'], [], false, [], false⟩, .digit ['6']⟩,
    ⟨⟨"5 + ".toList, [], false, [], false⟩, .backspace⟩,
    ⟨⟨['5'], ['5'], false, [], false⟩, .operator (some ['+'])⟩, ⟨.empty, .digit ['5']⟩]

theorem run_fiftySix : Run fiftySixPresses fiftySix := by
  have h1 : Run [⟨.empty, .digit ['5']⟩] ⟨['5'], ['5'], false, [], false⟩ :=
    @Run.press _ _ _ (.digit ['5']) false _ .start rfl
  have h2 := @Run.press _ _ ⟨"5 + ".toList, [], false, [], false⟩ (.operator (some ['+'])) false _
    h1 rfl
  have h3 := @Run.press _ _ ⟨['5'], [], false, [], false⟩ .backspace false _ h2 rfl
  exact @Run.press _ _ fiftySix (.digit ['6']) false _ h3 rfl

theorem press_percent_and_sign_fifty_six :
    fiftySix.line = ['5'] ++ fiftySix.operand ∧
      (press false fiftySix .percent).map Prod.fst =
        .ok ⟨"50.06".toList, "0.06".toList, false, [], false⟩ ∧
      (press false fiftySix .sign).map Prod.fst =
        .ok ⟨"5-6".toList, "-6".toList, false, [], false⟩ := by
  obtain ⟨hline, -, -, h⟩ := press_percent_and_sign_of_run run_fiftySix
  have hsix : Binary64.ofText? ['6'] = some (.ofInt 6) := by decide +kernel
  have hpercent : resultText (.ofInt 6 / hundred) = "0.06".toList := by decide +kernel
  obtain ⟨hsome, hsign⟩ := h (List.cons_ne_nil _ _) false
  refine ⟨hline, (hsome _ hsix).trans ?_, hsign⟩
  rw [hpercent]
  rfl

/-- The number being typed is the six, so a percent does not take the whole number at the end. -/
theorem operand_fifty_six_ne :
    Run fiftySixPresses fiftySix ∧ (∀ p ∈ fiftySixPresses, p.command.isPhrase = false) ∧
      fiftySix.operand ≠ [] ∧ fiftySix.operand ≠ lastPart fiftySix.line ∧
      lastPart fiftySix.line = "56".toList ∧ Binary64.ofText? "56".toList = some (.ofInt 56) ∧
      resultText (.ofInt 56 / hundred) = "0.56".toList ∧
      (press false fiftySix .percent).map (fun o => o.1.line) = .ok "50.06".toList :=
  ⟨run_fiftySix, by decide, by decide, by decide, by decide, by decide +kernel, by decide +kernel,
    by decide +kernel⟩

end SpokenCalculator.Editor
