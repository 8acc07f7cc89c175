import SpokenCalculator.Proofs.Editor.Grammar
import SpokenCalculator.Proofs.Expression.Soundness
import SpokenCalculator.Proofs.Json.Within

/-!
# Both ends of the line

Buttons and phrases alike leave a line that begins with no space and ends with the number being
typed.  Because of its end, a percent or a sign replaces that number and nothing else.  Because of
its beginning, a step back always finds a character to erase: a line without the spaces at its end
is not empty.

* `BeginsWithoutSpace`: texts that do not begin with a space;
* `Tidy`: both ends of the line, and the beginning of the line that was evaluated;
* `Tidy.press`, `Reached.tidy`: one press of any command, and all of them;
* `press_percent_and_sign_of_reached`: a percent and a sign replace the number being typed;
* `Command.HasText`: commands whose value has a text, where one is asked for;
* `exists_press_of_reached`: these of the known commands are carried out.
-/

namespace SpokenCalculator.Editor
open Text

/-! ### The beginning of a text -/

/-- The text does not begin with a space. -/
def BeginsWithoutSpace (t : Text) : Prop := t.head? ≠ some ' '

theorem beginsWithoutSpace_nil : BeginsWithoutSpace [] := nofun

theorem BeginsWithoutSpace.append {a b : Text} (ha : BeginsWithoutSpace a)
    (hb : a = [] → BeginsWithoutSpace b) : BeginsWithoutSpace (a ++ b) := by
  cases a with
  | nil => exact hb rfl
  | cons c a => exact ha

theorem BeginsWithoutSpace.of_isPrefix {a b : Text} (hb : BeginsWithoutSpace b) (h : a <+: b) :
    BeginsWithoutSpace a := by
  obtain ⟨r, rfl⟩ := h
  cases a with
  | nil => exact beginsWithoutSpace_nil
  | cons c a => exact hb

theorem IsOperandText.beginsWithoutSpace {t : Text} (h : IsOperandText t) :
    BeginsWithoutSpace t := by
  intro hspace
  exact absurd (h ' ' (List.mem_of_mem_head? hspace)) (by decide)

theorem beginsWithoutSpace_trim (t : Text) : BeginsWithoutSpace (trim t) := by
  refine BeginsWithoutSpace.of_isPrefix ?_ (dropTail_isPrefix isBlank _)
  intro hspace
  have h := List.head?_dropWhile_not isBlank t
  rw [hspace] at h
  exact absurd h (by decide)

/-- A line that does not begin with a space is not made of spaces only. -/
theorem BeginsWithoutSpace.dropTail_ne_nil {t : Text} (h : BeginsWithoutSpace t) (hne : t ≠ []) :
    dropTail (· == ' ') t ≠ [] := by
  obtain ⟨c, r, rfl⟩ := List.exists_cons_of_ne_nil hne
  intro hnil
  have hall := List.rdropWhile_eq_nil_iff.1 hnil c (List.mem_cons_self ..)
  exact h (congrArg some (beq_iff_eq.1 hall))

theorem eraseLast_isPrefix (line : Text) (c : Char) : eraseLast line c <+: line := by
  have hlast := (List.dropLast_prefix (dropTail (· == ' ') line)).trans (dropTail_isPrefix _ line)
  unfold eraseLast
  split
  · exact (dropTail_isPrefix _ _).trans hlast
  · exact hlast

/-! ### What one press leaves -/

/-- The line begins with no space and ends with the number being typed, which holds neither a space
nor the sign of an operation; and the line that was evaluated begins with no space. -/
structure Tidy (s : State) : Prop where
  begins : BeginsWithoutSpace s.line
  ends : s.operand <:+ s.line
  operand : IsOperandText s.operand
  evaluated : BeginsWithoutSpace s.evaluatedLine

theorem tidy_empty : Tidy .empty :=
  ⟨beginsWithoutSpace_nil, List.suffix_rfl, isOperandText_nil, beginsWithoutSpace_nil⟩

theorem Tidy.append {s : State} (hs : Tidy s) {c : Char} (hc : isOperandChar c = true) :
    Tidy (s.append [c]) where
  begins := hs.begins.append fun _ => (isOperandText_singleton hc).beginsWithoutSpace
  ends := List.suffix_append_inj_of_length_eq rfl |>.2 ⟨hs.ends, rfl⟩
  operand := hs.operand.append (isOperandText_singleton hc)
  evaluated := hs.evaluated

theorem Tidy.typeDigit {s : State} (hs : Tidy s) (label : Codes) : Tidy (typeDigit s label).1 := by
  unfold Editor.typeDigit
  split
  · split
    · rename_i c hc
      exact hs.append (isOperandChar_of_isAsciiDigit hc)
    · exact hs
  · exact hs

theorem Tidy.typePoint {s : State} (hs : Tidy s) : Tidy (typePoint s).1 := by
  unfold Editor.typePoint
  split
  · exact hs
  · exact hs.append (by decide)

/-- An operator is accepted only on a line that is not empty, so its space is not the first
character. -/
theorem Tidy.typeOperator {s : State} (hs : Tidy s) (sign : Option Text) :
    Tidy (typeOperator s sign).1 := by
  unfold Editor.typeOperator
  split
  · exact hs
  · split
    · rename_i htakes
      refine ⟨hs.begins.append fun hnil => ?_, List.nil_suffix, isOperandText_nil, hs.evaluated⟩
      rw [State.takesOperator, hnil] at htakes
      cases htakes
    · exact hs

/-! ### Another number in the place of the one being typed -/

/-- The state with a number after what stands before the one being typed. -/
def State.withOperand (s : State) (before number : Text) : State :=
  { s with line := before ++ number, operand := number, evaluated := false }

/-- At the end of the line is the last occurrence of the number being typed, so nothing else is
replaced. -/
theorem replaceOperand?_of_ends {s : State} {before : Text} (hline : s.line = before ++ s.operand)
    (hne : s.operand ≠ []) (number : Text) :
    s.replaceOperand? number = some (s.withOperand before number) := by
  rw [State.replaceOperand?, hline, replaceLast?_append number before hne]
  rfl

theorem Tidy.withOperand {s : State} (hs : Tidy s) {before : Text}
    (hline : s.line = before ++ s.operand) {number : Text} (hnumber : IsOperandText number) :
    Tidy (s.withOperand before number) where
  begins :=
    (hs.begins.of_isPrefix ⟨s.operand, hline.symm⟩).append fun _ => hnumber.beginsWithoutSpace
  ends := List.suffix_append before number
  operand := hnumber
  evaluated := hs.evaluated

theorem takePercent_of_some {s : State} {before : Text} (hline : s.line = before ++ s.operand)
    (hne : s.operand ≠ []) {v : Binary64} (hv : Binary64.ofText? s.operand = some v) :
    takePercent s =
      (s.withOperand before (resultText (v / hundred)), [.speak "percent".toList]) := by
  rw [takePercent, if_neg hne, hv, Option.bind_some, replaceOperand?_of_ends hline hne]

theorem takePercent_of_eq_nil {s : State} (h : s.operand = []) : takePercent s = (s, []) :=
  if_pos h

theorem takePercent_of_none {s : State} (h : Binary64.ofText? s.operand = none) :
    takePercent s = (s, []) := by
  rw [takePercent, h, Option.bind_none, ite_self]

theorem toggleSign_of_ne_nil {s : State} {before : Text} (hline : s.line = before ++ s.operand)
    (hne : s.operand ≠ []) :
    toggleSign s =
      (s.withOperand before (toggled s.operand).1, [.speak (toggled s.operand).2]) := by
  rw [toggleSign, if_neg hne, replaceOperand?_of_ends hline hne]

theorem toggleSign_of_eq_nil {s : State} (h : s.operand = []) : toggleSign s = (s, []) :=
  if_pos h

theorem Tidy.takePercent {s : State} (hs : Tidy s) : Tidy (takePercent s).1 := by
  obtain ⟨before, hline⟩ := hs.ends
  by_cases hne : s.operand = []
  · rw [takePercent_of_eq_nil hne]
    exact hs
  · rcases hv : Binary64.ofText? s.operand with - | v
    · rw [takePercent_of_none hv]
      exact hs
    · rw [takePercent_of_some hline.symm hne hv]
      exact hs.withOperand hline.symm (isOperandText_resultText _)

theorem Tidy.toggleSign {s : State} (hs : Tidy s) : Tidy (toggleSign s).1 := by
  obtain ⟨before, hline⟩ := hs.ends
  by_cases hne : s.operand = []
  · rw [toggleSign_of_eq_nil hne]
    exact hs
  · rw [toggleSign_of_ne_nil hline.symm hne]
    exact hs.withOperand hline.symm hs.operand.toggled

/-! ### Erasing -/

/-- There is a character to erase, and it is the last one of the number being typed unless that is
empty. -/
theorem Tidy.exists_erase {s : State} (hs : Tidy s) : ∃ o, erase s = .ok o ∧ Tidy o.1 := by
  by_cases hnil : s.line = []
  · exact ⟨(s, []), if_pos hnil, hs⟩
  obtain ⟨c, hc⟩ : ∃ c, (dropTail (· == ' ') s.line).getLast? = some c :=
    ⟨_, List.getLast?_eq_some_getLast (hs.begins.dropTail_ne_nil hnil)⟩
  refine ⟨_, by rw [erase, if_neg hnil, hc],
    hs.begins.of_isPrefix (eraseLast_isPrefix s.line c), ?_,
    hs.operand.of_subset (List.dropLast_subset _), hs.evaluated⟩
  show s.operand.dropLast <:+ eraseLast s.line c
  -- the number being typed loses its last character as the line does, or there is none
  by_cases hoperand : s.operand = []
  · rw [hoperand]
    exact List.nil_suffix
  · obtain ⟨before, hline⟩ := hs.ends
    obtain ⟨d, hlast, herase⟩ := erase_operand before ⟨hoperand, hs.operand⟩
    rw [hline] at hlast herase
    rw [Option.some.inj (hc.symm.trans hlast), herase]
    exact List.suffix_append _ _

theorem Tidy.exists_stepBack {s : State} (hs : Tidy s) : ∃ o, stepBack s = .ok o ∧ Tidy o.1 := by
  unfold stepBack
  split
  · split
    · exact Tidy.exists_erase (s := { s with evaluated := false })
        ⟨hs.begins, hs.ends, hs.operand, hs.evaluated⟩
    · exact ⟨_, rfl, hs.evaluated, List.nil_suffix, isOperandText_nil, hs.evaluated⟩
  · exact hs.exists_erase

/-! ### Evaluation -/

theorem Tidy.solve {s : State} (hs : Tidy s) (learning : Bool) : Tidy (solve learning s).1 := by
  by_cases hne : s.line = []
  · rw [Editor.solve, if_pos hne]
    exact hs
  · rcases hv : evaluate (keyboardLine s.line) with f | v
    · rw [solve_of_error learning hne hv]
      exact ⟨hs.begins, hs.ends, hs.operand, hs.begins⟩
    · rw [solve_of_ok learning hne hv]
      have hresult := isOperandText_resultText v
      exact ⟨hresult.beginsWithoutSpace, List.suffix_rfl, hresult, hs.begins⟩

/-- The state with another line, in which no number is being typed. -/
def State.withLine (s : State) (line : Text) : State := { s with line := line, operand := [] }

theorem solvePhrase_of_eq_nil {heard : Text} (h : Phrase.expression heard = []) (learning : Bool)
    (s : State) :
    solvePhrase learning s heard = (s, [.speak silencePhrase, .notify silencePhrase]) :=
  if_pos h

theorem solvePhrase_of_ne_nil {heard : Text} (h : Phrase.expression heard ≠ []) (learning : Bool)
    (s : State) :
    solvePhrase learning s heard =
      ((solve learning (s.withLine (Phrase.expression heard))).1,
        .notify ("Heard: ".toList ++ heard) ::
          (solve learning (s.withLine (Phrase.expression heard))).2) := by
  rw [solvePhrase, if_neg h, State.withLine]

theorem Tidy.withLine {s : State} (hs : Tidy s) {line : Text} (hline : BeginsWithoutSpace line) :
    Tidy (s.withLine line) :=
  ⟨hline, List.nil_suffix, isOperandText_nil, hs.evaluated⟩

/-- A phrase is taken without the blanks at its ends. -/
theorem beginsWithoutSpace_expression (heard : Text) :
    BeginsWithoutSpace (Phrase.expression heard) := by
  rw [Phrase.expression]
  exact beginsWithoutSpace_trim _

theorem Tidy.solvePhrase {s : State} (hs : Tidy s) (learning : Bool) (heard : Text) :
    Tidy (solvePhrase learning s heard).1 := by
  by_cases hne : Phrase.expression heard = []
  · rw [solvePhrase_of_eq_nil hne]
    exact hs
  · simp only [solvePhrase_of_ne_nil hne]
    exact (hs.withLine (beginsWithoutSpace_expression heard)).solve learning

/-! ### All commands -/

/-- The command is one of those that the line knows. -/
def Command.isKnown : Command → Bool
  | .foreign _ => false
  | _ => true

/-- The value of the command has a text, where one is asked for. -/
def Command.HasText : Command → Prop
  | .digit label => label.value.Shows label.room
  | _ => True

theorem act_digit_of_error {label : Label} {e : Json.TextError} (h : label.text = .error e)
    (learning : Bool) (s : State) : act learning s (.digit label) = .error (.unshown e) := by
  rw [act, h]

/-- A known command whose value has a text is carried out, and leaves both ends of the line as they
should be. -/
theorem Tidy.exists_act {s : State} (hs : Tidy s) {c : Command} (hc : c.isKnown = true)
    (htext : c.HasText) (learning : Bool) : ∃ o, act learning s c = .ok o ∧ Tidy o.1 := by
  cases c with
  | digit label =>
    obtain ⟨t, ht⟩ := Json.exists_label_iff.2 htext
    exact ⟨_, act_digit_eq_ok_iff.2 ⟨t, ht, rfl⟩, hs.typeDigit t⟩
  | point => exact ⟨_, rfl, hs.typePoint⟩
  | operator sign => exact ⟨_, rfl, hs.typeOperator sign⟩
  | percent => exact ⟨_, rfl, hs.takePercent⟩
  | sign => exact ⟨_, rfl, hs.toggleSign⟩
  | backspace => exact hs.exists_stepBack
  | clear => exact ⟨_, rfl, tidy_empty⟩
  | equals => exact ⟨_, rfl, hs.solve learning⟩
  | phrase heard => exact ⟨_, rfl, hs.solvePhrase learning (heard.getD [])⟩
  | silence code => exact ⟨_, rfl, hs⟩
  | foreign value => cases hc

/-- An unknown command is refused, and one whose value has no text. -/
theorem isKnown_of_press {learning : Bool} {s s' : State} {c : Command} {effects : List Effect}
    (h : press learning s c = .ok (s', effects)) : c.isKnown = true ∧ c.HasText := by
  obtain ⟨o, hact, -⟩ := exists_act_of_press h
  cases c with
  | digit label =>
    obtain ⟨t, ht, -⟩ := act_digit_eq_ok_iff.1 hact
    exact ⟨rfl, Json.exists_label_iff.1 ⟨t, ht⟩⟩
  | foreign value => exact absurd hact (act_foreign_ne_ok _ _ _ _)
  | _ => exact ⟨rfl, trivial⟩

theorem Tidy.unfailed {s : State} (hs : Tidy s) : Tidy { s with failed := false } :=
  ⟨hs.begins, hs.ends, hs.operand, hs.evaluated⟩

theorem Tidy.press {s s' : State} (hs : Tidy s) {c : Command} {learning : Bool}
    {effects : List Effect} (h : press learning s c = .ok (s', effects)) : Tidy s' := by
  obtain ⟨hknown, htext⟩ := isKnown_of_press h
  obtain ⟨o, hact, htidy⟩ := hs.unfailed.exists_act hknown htext learning
  rw [press_of_act hact] at h
  cases h
  exact htidy

theorem Reached.tidy {allowed : Command → Prop} {s : State} (hs : Reached allowed s) : Tidy s := by
  induction hs with
  | empty => exact tidy_empty
  | press _ _ h ih => exact ih.press h

/-! ### The number being typed -/

theorem map_press_percent (learning : Bool) (s : State) :
    (press learning s .percent).map Prod.fst = .ok (takePercent { s with failed := false }).1 := rfl

theorem map_press_sign (learning : Bool) (s : State) :
    (press learning s .sign).map Prod.fst = .ok (toggleSign { s with failed := false }).1 := rfl

/-- **A percent and a sign replace the number being typed, which is the end of the line, and leave
everything before it as it is.**  They are refused, so that only a failure is taken off the screen,
where no number is being typed, and a percent also where the text being typed is no number. -/
theorem press_percent_and_sign_of_reached {s : State} (hs : Reached (fun _ => True) s) :
    ∃ before, s.line = before ++ s.operand ∧
      (s.operand ≠ [] → ∀ number,
        s.replaceOperand? number = some (s.withOperand before number)) ∧
      ∀ learning,
        (∀ v, s.operand ≠ [] → Binary64.ofText? s.operand = some v →
          (press learning s .percent).map Prod.fst =
            .ok { s.withOperand before (resultText (v / hundred)) with failed := false }) ∧
        (s.operand = [] ∨ Binary64.ofText? s.operand = none →
          (press learning s .percent).map Prod.fst = .ok { s with failed := false }) ∧
        (s.operand ≠ [] → (press learning s .sign).map Prod.fst =
          .ok { s.withOperand before (toggled s.operand).1 with failed := false }) ∧
        (s.operand = [] →
          (press learning s .sign).map Prod.fst = .ok { s with failed := false }) := by
  obtain ⟨before, hline⟩ := hs.tidy.ends
  refine ⟨before, hline.symm, replaceOperand?_of_ends hline.symm, fun learning => ⟨?_, ?_, ?_, ?_⟩⟩
  · intro v hne hv
    rw [map_press_percent,
      takePercent_of_some (s := { s with failed := false }) hline.symm hne hv]
    rfl
  · rintro (hnil | hnone)
    · rw [map_press_percent, takePercent_of_eq_nil (s := { s with failed := false }) hnil]
    · rw [map_press_percent, takePercent_of_none (s := { s with failed := false }) hnone]
  · intro hne
    rw [map_press_sign, toggleSign_of_ne_nil (s := { s with failed := false }) hline.symm hne]
    rfl
  · intro hnil
    rw [map_press_sign, toggleSign_of_eq_nil (s := { s with failed := false }) hnil]

/-- The line `5 + 5`, in which the number being typed stands twice.  Its first number was said. -/
def fivePlusFive : State := ⟨"5 + 5".toList, ['5'], false, ['5'], false⟩

theorem reached_fivePlusFive : Reached (fun _ => True) fivePlusFive := by
  have hphrase : press true .empty (.phrase (some "five".toList)) =
      .ok (⟨['5'], ['5'], true, ['5'], false⟩,
        [.display ['5'], .notify "Heard: five".toList,
          .speak "Let me solve 5 step by step. The result is 5".toList,
          .record "5 = 5".toList]) := by decide +kernel
  have h1 : Reached (fun _ => True) ⟨['5'], ['5'], true, ['5'], false⟩ :=
    .press .empty trivial hphrase
  have h2 : Reached (fun _ => True) ⟨"5 + ".toList, [], false, ['5'], false⟩ :=
    @Reached.press _ _ _ (.operator (some ['+'])) false _ h1 trivial rfl
  exact @Reached.press _ _ _ (.digit ['5']) false _ h2 trivial rfl

theorem press_percent_and_sign_five_plus_five :
    (press true fivePlusFive .percent).map Prod.fst =
        .ok ⟨"5 + 0.05".toList, "0.05".toList, false, ['5'], false⟩ ∧
      (press true fivePlusFive .sign).map Prod.fst =
        .ok ⟨"5 + -5".toList, "-5".toList, false, ['5'], false⟩ := by
  obtain ⟨before, hline, -, h⟩ := press_percent_and_sign_of_reached reached_fivePlusFive
  obtain rfl : before = "5 + ".toList := List.append_cancel_right (hline.symm.trans rfl)
  have hfive : Binary64.ofText? ['5'] = some (.ofInt 5) := by decide +kernel
  have hpercent : resultText (.ofInt 5 / hundred) = "0.05".toList := by decide +kernel
  obtain ⟨hsome, -, hsign, -⟩ := h true
  have hne : fivePlusFive.operand ≠ [] := by decide
  refine ⟨(hsome _ hne hfive).trans ?_, hsign hne⟩
  rw [hpercent]
  rfl

/-! ### Progress -/

theorem isFinite_of_isWhole {x : Binary64} (h : x.isWhole = true) : x.isFinite = true := by
  cases x with
  | finite _ _ _ => rfl
  | _ => cases h

/-- **A known command is carried out after any commands**, if its value has a text where one is
asked for.  The line is not made of spaces only, so that there is a character to erase; a percent of
what is no number leaves it; the stack machine does not break down on any line; and only a finite
result is written as a whole number. -/
theorem exists_press_of_reached {s : State} (hs : Reached (fun _ => True) s) :
    (∀ learning c, c.isKnown = true → c.HasText →
      ∃ s' effects, press learning s c = .ok (s', effects)) ∧
      (s.line ≠ [] → ∃ c ∈ s.line, c ≠ ' ') ∧
      (∀ learning, Binary64.ofText? s.operand = none →
        (press learning s .percent).map Prod.fst = .ok { s with failed := false }) ∧
      (∀ line b, compute (keyboardLine line) ≠ .error (.breakdown b)) ∧
      ∀ x : Binary64, x.isWhole = true → x.isFinite = true := by
  refine ⟨fun learning c hc htext => ?_, fun hne => ?_, fun learning hnone => ?_,
    fun line => (sound_compute _).ne_breakdown, fun x => isFinite_of_isWhole⟩
  · obtain ⟨o, hact, -⟩ := hs.tidy.unfailed.exists_act hc htext learning
    exact ⟨_, _, press_of_act hact⟩
  · obtain ⟨c, r, hline⟩ := List.exists_cons_of_ne_nil hne
    refine ⟨c, hline ▸ List.mem_cons_self .., fun hspace => hs.tidy.begins ?_⟩
    rw [hline, hspace]
    rfl
  · rw [map_press_percent, takePercent_of_none (s := { s with failed := false }) hnone]

/-- A phrase without a value comes back and loses its last letter: the line ends with a space and
can still be erased. -/
theorem exists_press_plus_and_space :
    ∃ s : State, s.line = "+ ".toList ∧ Reached (fun _ => True) s ∧
      (∃ c ∈ s.line, c ≠ ' ') ∧ ∃ s' effects, press false s .backspace = .ok (s', effects) := by
  have hphrase : press true .empty (.phrase (some "plus x".toList)) =
      .ok (⟨"+ x".toList, [], true, "+ x".toList, true⟩,
        [.display "Error".toList, .notify "Heard: plus x".toList, .speak invalidPhrase,
          .notify invalidPhrase]) := by decide +kernel
  have h1 : Reached (fun _ => True) ⟨"+ x".toList, [], true, "+ x".toList, true⟩ :=
    .press .empty trivial hphrase
  have h2 : Reached (fun _ => True) ⟨"+ x".toList, [], false, "+ x".toList, false⟩ :=
    @Reached.press _ _ _ .backspace false _ h1 trivial rfl
  have h3 : Reached (fun _ => True) ⟨"+ ".toList, [], false, "+ x".toList, false⟩ :=
    @Reached.press _ _ _ .backspace false _ h2 trivial rfl
  obtain ⟨hpress, hline, -⟩ := exists_press_of_reached h3
  exact ⟨_, rfl, h3, hline (by decide), hpress false .backspace rfl trivial⟩

/-- An integer of too many digits, as the value of a digit. -/
def longLabel : Label := ⟨.number (.int (Nat.pow 10 Number.maxDigits : ℕ)), 990⟩

theorem text_longLabel : longLabel.text = .error .longInteger := by
  have hlong : Number.isLong (.int (Nat.pow 10 Number.maxDigits : ℕ)) = true := by
    rw [Number.isLong, decide_eq_true_eq, Int.natAbs_natCast]
  exact Json.label_of_isLong hlong 990

/-- The line of a point alone. -/
def lonePoint : State := ⟨['.'], ['.'], false, [], false⟩

/-- The number being typed may be none, and then a percent does nothing to it.  A digit may have a
value without a text, and then it is not carried out. -/
theorem ofText?_lonePoint_and_press_longLabel :
    (Reached (fun _ => True) lonePoint ∧ Binary64.ofText? lonePoint.operand = none ∧
      press false lonePoint .percent = .ok (lonePoint, [.vibrate])) ∧
    Reached (fun _ => True) .empty ∧ (Command.digit longLabel).isKnown = true ∧
      press false .empty (.digit longLabel) = .error (.unshown .longInteger) := by
  have hpoint : Reached (fun _ => True) lonePoint :=
    @Reached.press _ _ _ .point false _ .empty trivial rfl
  refine ⟨⟨hpoint, by decide +kernel, by decide +kernel⟩, .empty, rfl, ?_⟩
  rw [press, act_digit_of_error text_longLabel]
  rfl

end SpokenCalculator.Editor
