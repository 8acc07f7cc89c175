import SpokenCalculator.Proofs.Editor.Equals
import SpokenCalculator.Proofs.Expression.SignedOperand

/-!
# Typed lines

What digits, points and operators leave from the empty line on.  The number being typed is what
follows the last space of the line, because an operator is typed between spaces.

* `Typed`: the states that typing leads to;
* `Typed.endsInOperand`: the number being typed is the end of the line;
* `chainLine`, `chainFormula`: a line of numbers with operators between them, and its formula;
* `tokens_keyboardLine_chainLine`: the tokens of such a line;
* `act_digit`, `act_point`, `act_operator`: what keys do that are accepted;
* `exists_typed_chainLine`: every such line can be typed.
-/

namespace SpokenCalculator

/-- The sign of an operation on the keyboard. -/
def Operation.keyboard : Operation → Operator
  | add => .plus
  | sub => .minus
  | mul => .star
  | div => .slash

namespace Editor
open Text

/-! ### States -/

/-- The commands that type: digits, points and operators. -/
def Command.isTyping : Command → Bool
  | .digit _ | .point | .operator _ => true
  | _ => false

/-- The states that typing leads to from the empty line. -/
inductive Typed : State → Prop
  | empty : Typed .empty
  | press {s s' : State} {c : Command} {learning : Bool} {effects : List Effect} (hs : Typed s)
      (hc : c.isTyping = true) (h : press learning s c = .ok (s', effects)) : Typed s'

/-- What follows the last space of a line. -/
def lastPart (line : Text) : Text := line.rtakeWhile (· != ' ')

theorem lastPart_append_of_ne {c : Char} (hc : c ≠ ' ') (line : Text) :
    lastPart (line ++ [c]) = lastPart line ++ [c] :=
  List.rtakeWhile_concat_pos _ _ _ (bne_iff_ne.2 hc)

theorem lastPart_append_space (line : Text) : lastPart (line ++ [' ']) = [] :=
  List.rtakeWhile_concat_neg _ _ _ (by decide)

theorem lastPart_append_cons {t : Text} (ht : ' ' ∉ t) (line : Text) :
    lastPart (line ++ ' ' :: t) = t := by
  have hrev : ∀ c ∈ t.reverse, (c != ' ') = true := by
    intro c hc
    refine bne_iff_ne.2 ?_
    rintro rfl
    exact ht (List.mem_reverse.1 hc)
  rw [lastPart, List.rtakeWhile, List.reverse_append, List.reverse_cons, List.append_assoc,
    List.takeWhile_append_of_pos hrev, List.singleton_append,
    List.takeWhile_cons_of_neg (by decide), List.append_nil, List.reverse_reverse]

/-- The number being typed is the end of the line. -/
def EndsInOperand (s : State) : Prop := s.operand = lastPart s.line

theorem EndsInOperand.append {s : State} (hs : EndsInOperand s) {c : Char} (hc : c ≠ ' ') :
    EndsInOperand (s.append [c]) := by
  show s.operand ++ [c] = lastPart (s.line ++ [c])
  rw [lastPart_append_of_ne hc, hs]

theorem EndsInOperand.typeDigit {s : State} (hs : EndsInOperand s) (label : Codes) :
    EndsInOperand (typeDigit s label).1 := by
  unfold Editor.typeDigit
  split
  · split
    · rename_i hc
      refine hs.append ?_
      rintro rfl
      exact absurd hc (by decide)
    · exact hs
  · exact hs

theorem EndsInOperand.typePoint {s : State} (hs : EndsInOperand s) :
    EndsInOperand (typePoint s).1 := by
  unfold Editor.typePoint
  split
  · exact hs
  · exact hs.append (by decide)

theorem EndsInOperand.typeOperator {s : State} (hs : EndsInOperand s) (sign : Option Text) :
    EndsInOperand (typeOperator s sign).1 := by
  unfold Editor.typeOperator
  split
  · exact hs
  · split
    · rename_i o _ _
      show [] = lastPart (s.line ++ [' ', o.glyph, ' '])
      rw [show s.line ++ [' ', o.glyph, ' '] = s.line ++ [' ', o.glyph] ++ [' '] by simp,
        lastPart_append_space]
    · exact hs

/-- What a press of a typing command leaves. -/
theorem EndsInOperand.press {s s' : State} (hs : EndsInOperand s) {c : Command}
    (hc : c.isTyping = true) {learning : Bool} {effects : List Effect}
    (h : press learning s c = .ok (s', effects)) : EndsInOperand s' := by
  have hs' : EndsInOperand { s with failed := false } := hs
  cases c with
  | digit label =>
    obtain ⟨o, hact, rfl, -⟩ := exists_act_of_press h
    obtain ⟨t, -, rfl⟩ := act_digit_eq_ok_iff.1 hact
    exact hs'.typeDigit t
  | point =>
    cases h
    exact hs'.typePoint
  | operator sign =>
    cases h
    exact hs'.typeOperator sign
  | _ => cases hc

/-- **The number being typed is what follows the last space of a typed line.** -/
theorem Typed.endsInOperand {s : State} (hs : Typed s) : EndsInOperand s := by
  induction hs with
  | empty => rfl
  | press _ hc h ih => exact ih.press hc h

/-! ### Lines -/

/-- An operator and a number as they are typed. -/
def pairLine (p : Operation × Text) : Text := ' ' :: p.1.glyph :: ' ' :: p.2

/-- A line of numbers with operators between them. -/
def chainLine (m : Text) (rest : List (Operation × Text)) : Text := m ++ rest.flatMap pairLine

/-- The formula of such a line. -/
def chainFormula (m : Text) (rest : List (Operation × Text)) : Formula Text :=
  .ofChain false m (rest.map fun p => (p.1.keyboard, p.2))

theorem keyboardLine_pairLine (o : Operation) (n : Text) :
    keyboardLine (pairLine (o, n)) = o.keyboard.char :: keyboardLine n := by
  cases o <;> rfl

/-- The tokens of operators and numbers after any text. -/
theorem tokens_append_pairs (a : Text) {rest : List (Operation × Text)}
    (hrest : ∀ p ∈ rest, Numeral.isPlain p.2 = true) :
    tokens (a ++ keyboardLine (rest.flatMap pairLine)) =
      tokens a ++ (rest.map fun p => (p.1.keyboard, p.2)).flatMap pairTokens := by
  induction rest generalizing a with
  | nil => simp [keyboardLine, without]
  | cons p rest ih =>
    obtain ⟨hp, hrest⟩ := List.forall_mem_cons.1 hrest
    obtain ⟨hne, hchars⟩ := isNumeralChar_of_isPlain hp
    rw [List.flatMap_cons, keyboardLine_append, keyboardLine_pairLine,
      keyboardLine_of_numeral hchars, List.cons_append, tokens_append_operator, ih p.2 hrest,
      tokens_run hne hchars]
    rfl

/-- The tokens of a line are those of its formula. -/
theorem tokens_keyboardLine_chainLine {m : Text} (hm : Numeral.isPlain m = true)
    {rest : List (Operation × Text)} (hrest : ∀ p ∈ rest, Numeral.isPlain p.2 = true) :
    tokens (keyboardLine (chainLine m rest)) = (chainFormula m rest).tokens := by
  obtain ⟨hne, hchars⟩ := isNumeralChar_of_isPlain hm
  rw [chainLine, keyboardLine_append, keyboardLine_of_numeral hchars, tokens_append_pairs m hrest,
    tokens_run hne hchars, chainFormula, Formula.tokens_ofChain]
  rfl

/-! ### Every line can be typed -/

theorem act_digit (learning : Bool) (s : State) {c : Char} (hc : isAsciiDigit c = true) :
    act learning s (.digit [c]) = .ok (s.append [c], [.speak [c]]) :=
  congrArg Except.ok (if_pos hc)

theorem act_point (learning : Bool) {s : State} (h : '.' ∉ s.operand) :
    act learning s .point = .ok (s.append ['.'], [.speak "decimal".toList]) :=
  congrArg Except.ok (if_neg (by simpa using h))

theorem act_operator (learning : Bool) {s : State} (htakes : s.takesOperator = true) {sign : Text}
    {o : Operation} (ho : Operation.ofSign? sign = some o) :
    act learning s (.operator (some sign)) =
      .ok ({ s with line := s.line ++ [' ', o.glyph, ' '], operand := [], evaluated := false },
        [.speak o.name]) := by
  show Except.ok (typeOperator _ _) = _
  rw [typeOperator, Option.bind_some, ho]
  exact congrArg Except.ok (if_pos htakes)

/-- A digit or a point is typed at the end of the line. -/
theorem Typed.append {s : State} (hs : Typed s) {c : Char}
    (hc : isAsciiDigit c = true ∨ c = '.' ∧ '.' ∉ s.operand) :
    ∃ s', Typed s' ∧ s'.line = s.line ++ [c] ∧ s'.operand = s.operand ++ [c] := by
  rcases hc with hc | ⟨rfl, hpoint⟩
  · exact ⟨_, .press hs rfl (press_of_act (act_digit false _ hc)), rfl, rfl⟩
  · have hact := act_point false (s := { s with failed := false }) hpoint
    exact ⟨_, .press hs rfl (press_of_act hact), rfl, rfl⟩

theorem Typed.append_digits {s : State} (hs : Typed s) {t : Text} (ht : IsDigits t) :
    ∃ s', Typed s' ∧ s'.line = s.line ++ t ∧ s'.operand = s.operand ++ t := by
  induction t generalizing s with
  | nil => exact ⟨s, hs, by simp, by simp⟩
  | cons c t ih =>
    obtain ⟨s₁, hs₁, hline₁, hoperand₁⟩ := hs.append (Or.inl (ht c (List.mem_cons_self ..)))
    obtain ⟨s₂, hs₂, hline₂, hoperand₂⟩ := ih hs₁ fun d hd => ht d (List.mem_cons_of_mem _ hd)
    exact ⟨s₂, hs₂, by simp [hline₂, hline₁], by simp [hoperand₂, hoperand₁]⟩

/-- A plain numeral is typed where no number is begun. -/
theorem Typed.append_numeral {s : State} (hs : Typed s) (hbegin : s.operand = []) {n : Text}
    (hn : Numeral.isPlain n = true) : ∃ s', Typed s' ∧ s'.line = s.line ++ n := by
  obtain ⟨w, -, hw, rfl | ⟨f, -, hf, rfl⟩⟩ := isPlain_iff.1 hn
  · obtain ⟨s₁, hs₁, hline₁, -⟩ := hs.append_digits hw
    exact ⟨s₁, hs₁, hline₁⟩
  · obtain ⟨s₁, hs₁, hline₁, hoperand₁⟩ := hs.append_digits hw
    -- so far there are only digits, so the point is accepted
    have hpoint : '.' ∉ s₁.operand := by
      rw [hoperand₁, hbegin, List.nil_append]
      intro h
      exact absurd (hw '.' h) (by decide)
    obtain ⟨s₂, hs₂, hline₂, -⟩ := hs₁.append (Or.inr ⟨rfl, hpoint⟩)
    obtain ⟨s₃, hs₃, hline₃, -⟩ := hs₂.append_digits hf
    exact ⟨s₃, hs₃, by simp [hline₃, hline₂, hline₁]⟩

/-- An operator is typed after a number. -/
theorem Typed.append_operator {s : State} (hs : Typed s) (htakes : s.takesOperator = true)
    (o : Operation) :
    ∃ s', Typed s' ∧ s'.line = s.line ++ [' ', o.glyph, ' '] ∧ s'.operand = [] := by
  have hact := act_operator false (s := { s with failed := false }) htakes o.ofSign?_glyph
  exact ⟨_, .press hs rfl (press_of_act hact), rfl, rfl⟩

theorem takesOperator_of_line {s : State} {before n : Text} (hn : Numeral.isPlain n = true)
    (hline : s.line = before ++ n) : s.takesOperator = true := by
  obtain ⟨hne, hchars⟩ := isNumeralChar_of_isPlain hn
  have hlast : s.line.getLast? ≠ some ' ' := by
    rw [hline, List.getLast?_append_of_ne_nil before hne]
    intro h
    exact absurd (hchars ' ' (List.mem_of_mem_getLast? h)) (by decide)
  have hempty : s.line ≠ [] := by
    rw [hline]
    exact List.append_ne_nil_of_right_ne_nil before hne
  simp [State.takesOperator, hlast, hempty]

/-- **Every line of plain numerals with operators between them can be typed.** -/
theorem exists_typed_chainLine {m : Text} (hm : Numeral.isPlain m = true)
    {rest : List (Operation × Text)} (hrest : ∀ p ∈ rest, Numeral.isPlain p.2 = true) :
    ∃ s, Typed s ∧ s.line = chainLine m rest ∧ s.takesOperator = true := by
  induction rest using List.reverseRecOn with
  | nil =>
    obtain ⟨s, hs, hline⟩ := Typed.empty.append_numeral rfl hm
    exact ⟨s, hs, by simp [hline, chainLine, State.empty], takesOperator_of_line hm hline⟩
  | append_singleton rest p ih =>
    obtain ⟨s, hs, hline, htakes⟩ := ih fun q hq => hrest q (List.mem_append_left _ hq)
    have hp := hrest p (List.mem_append_right _ (List.mem_singleton_self p))
    obtain ⟨s₁, hs₁, hline₁, hoperand₁⟩ := hs.append_operator htakes p.1
    obtain ⟨s₂, hs₂, hline₂⟩ := hs₁.append_numeral hoperand₁ hp
    refine ⟨s₂, hs₂, ?_, takesOperator_of_line hp hline₂⟩
    simp [hline₂, hline₁, hline, chainLine, pairLine]

end Editor
end SpokenCalculator
