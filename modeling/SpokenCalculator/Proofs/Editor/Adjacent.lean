import SpokenCalculator.Proofs.Editor.Change

/-!
# Operators next to each other

An operator is refused on a line that ends with a space, as every line does after an operator was
typed.  A phrase comes without a space at its end, so the line that it leaves can end with an
operator that is not noticed.  This is the only way: whatever is typed after the beginning of a
phrase ends with a character of a number, or with an operator and its space, and what is erased
again leaves what was there before.

* `EndsWithOperator`: lines whose last character other than a space is the sign of an operation;
* `Grown`: what typing makes of the beginning of a phrase;
* `Grown.erase`: what is erased of such a line;
* `lastPhrase`, `GrownState.of_change`, `Run.grownState`: the phrase that a run goes on from;
* `endsWithOperator_iff_of_run`: when an operator is put next to another.
-/

namespace SpokenCalculator.Editor
open Text

/-! ### Signs of operations -/

/-- One of the signs of operations, on the screen or in a phrase.  The hyphen is not one of them: it
is also the sign of a number. -/
def isOperatorSign (c : Char) : Bool := isGlyph c || c == '*' || c == '/'

/-- The last character of the line other than a space is the sign of an operation. -/
def EndsWithOperator (line : Text) : Prop :=
  ∃ c, (dropTail (· == ' ') line).getLast? = some c ∧ isOperatorSign c = true

/-- A character of numbers: neither a space nor the sign of an operation. -/
def isNumberChar (c : Char) : Bool := c != ' ' && !isOperatorSign c

/-- A text of such characters. -/
def IsNumberText (t : Text) : Prop := ∀ c ∈ t, isNumberChar c = true

theorem isNumberChar_of_isAsciiDigit {c : Char} (hc : isAsciiDigit c = true) :
    isNumberChar c = true :=
  of_isAsciiDigit (P := (isNumberChar · = true)) (by decide) hc

theorem isOperandChar_of_isNumberChar {c : Char} (hc : isNumberChar c = true) :
    isOperandChar c = true := by
  rw [isNumberChar, isOperatorSign, Bool.and_eq_true, Bool.not_eq_true', Bool.or_eq_false_iff,
    Bool.or_eq_false_iff] at hc
  rw [isOperandChar, hc.1, hc.2.1.1]
  rfl

theorem isNumberText_nil : IsNumberText [] := fun _ hc => absurd hc List.not_mem_nil

theorem IsNumberText.append {a b : Text} (ha : IsNumberText a) (hb : IsNumberText b) :
    IsNumberText (a ++ b) :=
  fun c hc => (List.mem_append.1 hc).elim (ha c) (hb c)

theorem isNumberText_resultText (x : Binary64) : IsNumberText (resultText x) :=
  forall_mem_resultText (fun _ hc => isNumberChar_of_isAsciiDigit hc)
    (List.all_eq_true.1 (by decide)) x

theorem IsNumberText.toggled {t : Text} (h : IsNumberText t) : IsNumberText (toggled t).1 :=
  forall_mem_toggled (by decide) h

/-! ### Lines that go on from a phrase -/

/-- A beginning of a phrase to which characters of numbers were added, and operators where the line
did not end with a space. -/
inductive Grown (phrase : Text) : Text → Prop
  | start {line : Text} (h : line <+: phrase) : Grown phrase line
  | char {line : Text} (h : Grown phrase line) {c : Char} (hc : isNumberChar c = true) :
      Grown phrase (line ++ [c])
  | operator {line : Text} (h : Grown phrase line) (hlast : line.getLast? ≠ some ' ')
      (o : Operation) : Grown phrase (line ++ operatorText o)

variable {phrase line : Text}

theorem grown_nil (phrase : Text) : Grown phrase [] := .start List.nil_prefix

theorem Grown.append (h : Grown phrase line) {t : Text} (ht : IsNumberText t) :
    Grown phrase (line ++ t) := by
  induction t using List.reverseRecOn with
  | nil => rwa [List.append_nil]
  | append_singleton t c ih =>
    rw [← List.append_assoc]
    exact (ih fun d hd => ht d (List.mem_append_left _ hd)).char
      (ht c (List.mem_append_right _ (List.mem_singleton_self c)))

theorem Grown.of_append_singleton {c : Char} (hc : c ≠ ' ') (h : Grown phrase (line ++ [c])) :
    Grown phrase line := by
  generalize hl : line ++ [c] = l at h
  cases h with
  | start h => exact .start ((hl ▸ List.prefix_append line [c]).trans h)
  | char h hd =>
    obtain ⟨rfl, -⟩ := List.append_inj' hl rfl
    exact h
  | @operator l h hlast o =>
    have hoperator : line ++ [c] = l ++ [' ', o.glyph] ++ [' '] := by
      rw [hl, operatorText, List.append_assoc]
      rfl
    exact absurd (List.cons.inj (List.append_inj' hoperator rfl).2).1 hc

/-- What stands before characters of numbers is such a line as well. -/
theorem Grown.of_append {t : Text} (ht : IsNumberText t) (h : Grown phrase (line ++ t)) :
    Grown phrase line := by
  induction t using List.reverseRecOn with
  | nil => rwa [List.append_nil] at h
  | append_singleton t c ih =>
    have hc := ht c (List.mem_append_right _ (List.mem_singleton_self c))
    rw [isNumberChar, Bool.and_eq_true, bne_iff_ne] at hc
    rw [← List.append_assoc] at h
    exact ih (fun d hd => ht d (List.mem_append_left _ hd)) (h.of_append_singleton hc.1)

/-- **Erasing takes back what was typed last, or a part of the phrase.** -/
theorem Grown.erase (h : Grown phrase line) {c : Char}
    (hc : (dropTail (· == ' ') line).getLast? = some c) : Grown phrase (eraseLast line c) := by
  cases h with
  | start h => exact .start ((eraseLast_isPrefix line c).trans h)
  | @char line h d hd =>
    have hoperand : IsOperand [d] :=
      ⟨List.cons_ne_nil _ _, isOperandText_singleton (isOperandChar_of_isNumberChar hd)⟩
    obtain ⟨e, hlast, herase⟩ := erase_operand line hoperand
    rw [Option.some.inj (hc.symm.trans hlast), herase, List.dropLast_singleton, List.append_nil]
    exact h
  | @operator line h hlast o =>
    obtain ⟨hglyph, herase⟩ := erase_operatorText line o
    rw [Option.some.inj (hc.symm.trans hglyph), herase, dropTail_of_getLast hlast]
    exact h

/-- Only a beginning of the phrase ends with the sign of an operation. -/
theorem Grown.isPrefix_of_endsWithOperator (h : Grown phrase line)
    (hlast : line.getLast? ≠ some ' ') (hends : EndsWithOperator line) : line <+: phrase := by
  obtain ⟨c, hc, hsign⟩ := hends
  rw [dropTail_of_getLast hlast] at hc
  cases h with
  | start h => exact h
  | char h hd =>
    rw [List.getLast?_concat, Option.some.injEq] at hc
    rw [hc, isNumberChar, hsign, Bool.not_true, Bool.and_false] at hd
    cases hd
  | operator h _ o =>
    rw [operatorText, List.getLast?_append_of_ne_nil _ (List.cons_ne_nil _ _)] at hlast
    exact absurd rfl hlast

/-! ### What one press does -/

variable {s s' : State}

/-- The line and the line that was evaluated go on from a phrase, and a number is being typed. -/
structure GrownState (phrase : Text) (s : State) : Prop where
  line : Grown phrase s.line
  operand : IsNumberText s.operand
  evaluated : Grown phrase s.evaluatedLine

theorem grownState_empty (phrase : Text) : GrownState phrase .empty :=
  ⟨grown_nil phrase, isNumberText_nil, grown_nil phrase⟩

theorem GrownState.append (h : GrownState phrase s) {c : Char} (hc : isNumberChar c = true) :
    GrownState phrase (s.append [c]) :=
  ⟨h.line.char hc, h.operand.append (List.forall_mem_singleton.2 hc), h.evaluated⟩

theorem GrownState.withOperand (h : GrownState phrase s) {front : Text}
    (hline : s.line = front ++ s.operand) {number : Text} (hnumber : IsNumberText number) :
    GrownState phrase (s.withOperand front number) where
  line := by
    have hfront := h.line
    rw [hline] at hfront
    exact (hfront.of_append h.operand).append hnumber
  operand := hnumber
  evaluated := h.evaluated

/-- Whatever line was evaluated before, the one that is there is evaluated now. -/
theorem Solved.grownState (h : Solved s s') (hline : Grown phrase s.line)
    (hoperand : IsNumberText s.operand) : GrownState phrase s' := by
  cases h with
  | failed hv => exact ⟨hline, hoperand, hline⟩
  | @valued v hv =>
    have hresult := isNumberText_resultText v
    exact ⟨(grown_nil phrase).append hresult, hresult, hline⟩

/-- A phrase that was taken for the line is its own beginning. -/
theorem grown_withLine (s : State) (line : Text) : Grown line (s.withLine line).line :=
  .start List.prefix_rfl

/-- The expression of the phrase that a press took for the line. -/
def Press.phrase? (p : Press) : Option Text := if p.command.isPhrase then p.evaluated? else none

theorem phrase?_eq_none {c : Command} (h : evaluated? s c = none) :
    Press.phrase? ⟨s, c⟩ = none := by
  unfold Press.phrase?
  split_ifs
  · exact h
  · rfl

theorem phrase?_phrase {heard : Option Text} (hne : Phrase.expression (heard.getD []) ≠ []) :
    Press.phrase? ⟨s, .phrase heard⟩ = some (Phrase.expression (heard.getD [])) :=
  (if_pos rfl).trans (evaluated?_phrase_of_ne_nil hne s)

/-- **What a command leaves goes on from the phrase that it takes, or from the one before.** -/
theorem GrownState.of_change (h : GrownState phrase s) {c : Command} (hchange : Change s c s') :
    GrownState ((Press.phrase? ⟨s, c⟩).getD phrase) s' := by
  cases hchange with
  | refused hnone =>
    rw [phrase?_eq_none hnone]
    exact h
  | digit hd => exact h.append (isNumberChar_of_isAsciiDigit hd)
  | point => exact h.append (by decide)
  | operator _ hlast o => exact ⟨h.line.operator hlast o, isNumberText_nil, h.evaluated⟩
  | percent hline => exact h.withOperand hline (isNumberText_resultText _)
  | sign hline => exact h.withOperand hline h.operand.toggled
  | nothing => exact ⟨h.line, h.operand, h.evaluated⟩
  | erased hc =>
    exact ⟨h.line.erase hc, fun d hd => h.operand d (List.dropLast_subset _ hd), h.evaluated⟩
  | restored => exact ⟨h.evaluated, isNumberText_nil, h.evaluated⟩
  | clear => exact grownState_empty phrase
  | equals _ hsolved => exact hsolved.grownState h.line h.operand
  | phrase hne hsolved =>
    rw [phrase?_phrase hne, Option.getD_some]
    exact hsolved.grownState (grown_withLine s _) isNumberText_nil

/-! ### Runs -/

/-- The expression of the last phrase that was taken for the line, the most recent press being the
first; nothing if there was no phrase. -/
def lastPhrase (ps : List Press) : Text := (ps.findSome? Press.phrase?).getD []

theorem lastPhrase_cons (p : Press) (ps : List Press) :
    lastPhrase (p :: ps) = p.phrase?.getD (lastPhrase ps) := by
  rw [lastPhrase, List.findSome?_cons]
  cases p.phrase? <;> rfl

theorem lastPhrase_of_buttons {ps : List Press}
    (hps : ∀ p ∈ ps, p.command.isPhrase = false) : lastPhrase ps = [] := by
  have hnone : ps.findSome? Press.phrase? = none := by
    refine List.findSome?_eq_none_iff.2 fun p hp => ?_
    rw [Press.phrase?, hps p hp, if_neg Bool.false_ne_true]
  rw [lastPhrase, hnone]
  rfl

/-- **A run goes on from the last phrase.** -/
theorem Run.grownState {ps : List Press} (hs : Run ps s) : GrownState (lastPhrase ps) s := by
  induction hs with
  | start => exact grownState_empty _
  | @press ps s s' c learning effects hs h ih =>
    rw [lastPhrase_cons]
    exact GrownState.of_change (s := { s with failed := false }) ⟨ih.line, ih.operand, ih.evaluated⟩
      (change_of_press hs h)

/-- **An operator is put next to another just where the line is a beginning of the last phrase up to
an operator**, and so never with buttons alone. -/
theorem endsWithOperator_iff_of_run {ps : List Press} (hs : Run ps s) {sign : Option Text}
    {learning : Bool} {effects : List Effect}
    (h : press learning s (.operator sign) = .ok (s', effects)) (hchange : s'.line ≠ s.line) :
    (∃ o, s'.line = s.line ++ operatorText o) ∧
      (EndsWithOperator s.line ↔ ∃ before c, isOperatorSign c = true ∧ s.line = before ++ [c] ∧
        before ++ [c] <+: lastPhrase ps) ∧
      ((∀ p ∈ ps, p.command.isPhrase = false) → ¬ EndsWithOperator s.line) := by
  cases change_of_press hs h with
  | refused => exact absurd rfl hchange
  | operator hne hlast o =>
    have hbegin := hs.grownState.line.isPrefix_of_endsWithOperator hlast
    refine ⟨⟨o, rfl⟩, ⟨fun hends => ?_, ?_⟩, fun hps hends => ?_⟩
    · obtain ⟨c, hc, hsign⟩ := id hends
      rw [dropTail_of_getLast hlast] at hc
      obtain ⟨before, hline⟩ := List.getLast?_eq_some_iff.1 hc
      exact ⟨before, c, hsign, hline, hline ▸ hbegin hends⟩
    · rintro ⟨before, c, hsign, hline, -⟩
      refine ⟨c, ?_, hsign⟩
      rw [dropTail_of_getLast hlast]
      exact List.getLast?_eq_some_iff.2 ⟨before, hline⟩
    · have hnil := hbegin hends
      rw [lastPhrase_of_buttons hps, List.prefix_nil] at hnil
      exact hne hnil

/-- The line `5 +` of a phrase that has no value. -/
def fivePlus : State := ⟨"5 +".toList, [], true, "5 +".toList, true⟩

/-- The phrase that leads to this line. -/
def fivePlusPresses : List Press := [⟨.empty, .phrase (some "five plus".toList)⟩]

theorem run_fivePlus : Run fivePlusPresses fivePlus := by
  have hphrase : press true .empty (.phrase (some "five plus".toList)) =
      .ok (fivePlus, [.display "Error".toList, .notify "Heard: five plus".toList,
        .speak invalidPhrase, .notify invalidPhrase]) := by decide +kernel
  exact Run.start.press hphrase

/-- The line with a digit after the phrase. -/
def fivePlusThree : State := ⟨"5 +3".toList, ['3'], false, "5 +".toList, false⟩

/-- The digit is not a part of the phrase, so the line ends with a number. -/
theorem not_endsWithOperator_five_plus_three :
    Run (⟨fivePlus, .digit ['3']⟩ :: fivePlusPresses) fivePlusThree ∧
      (press false fivePlusThree (.operator (some ['*']))).map Prod.fst =
        .ok ⟨"5 +3 × ".toList, [], false, "5 +".toList, false⟩ ∧
      ¬ EndsWithOperator fivePlusThree.line := by
  have hrun : Run (⟨fivePlus, .digit ['3']⟩ :: fivePlusPresses) fivePlusThree :=
    @Run.press _ _ fivePlusThree (.digit ['3']) false _ run_fivePlus rfl
  have hpress : press false fivePlusThree (.operator (some ['*'])) =
      .ok (⟨"5 +3 × ".toList, [], false, "5 +".toList, false⟩,
        [.vibrate, .display "5 +3 × ".toList, .speak "multiply".toList]) := rfl
  obtain ⟨-, hends, -⟩ := endsWithOperator_iff_of_run hrun hpress (by decide)
  refine ⟨hrun, congrArg (Except.map Prod.fst) hpress, fun h => ?_⟩
  obtain ⟨before, c, -, hline, hbegin⟩ := hends.1 h
  rw [← hline] at hbegin
  exact absurd hbegin (by decide +kernel)

/-- An operator is accepted right after the phrase, where it follows another one. -/
theorem endsWithOperator_five_plus :
    Run fivePlusPresses fivePlus ∧
      press false fivePlus (.operator (some ['*'])) =
        .ok (⟨"5 + × ".toList, [], false, "5 +".toList, false⟩,
          [.vibrate, .display "5 + × ".toList, .speak "multiply".toList]) ∧
      "5 + × ".toList ≠ fivePlus.line ∧ EndsWithOperator fivePlus.line :=
  ⟨run_fivePlus, rfl, by decide, '+', rfl, rfl⟩

end SpokenCalculator.Editor
