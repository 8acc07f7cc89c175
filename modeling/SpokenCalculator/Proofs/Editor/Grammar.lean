import SpokenCalculator.Proofs.Editor.Typing

/-!
# The grammar of the line

Buttons write operands and operators between spaces, and they change or erase only the last of
them.  So a line is cut in two: a head, in which an operator follows every operand, and the operand
at the end, which may be empty.  Every button leaves the head as it is, ends it with one more
operator, or takes its last operator away.  The number being typed is always within the operand at
the end.

* `Reached`: the states that presses of some commands lead to;
* `IsSentence`: lines of operands with operators between them, and perhaps one at the end;
* `IsHead`, `isSentence_append`, `IsSentence.exists_head`: such lines as a head and an operand;
* `Grammatical`: the head and the operand at the end of a line, and the line that was evaluated;
* `Grammatical.press`, `isSentence_of_reached`: one press of a button, and all of them.
-/

namespace SpokenCalculator.Editor
open Text

/-! ### Reached states -/

/-- The states that presses of allowed commands lead to from the empty line. -/
inductive Reached (allowed : Command → Prop) : State → Prop
  | empty : Reached allowed .empty
  | press {s s' : State} {c : Command} {learning : Bool} {effects : List Effect}
      (hs : Reached allowed s) (hc : allowed c) (h : press learning s c = .ok (s', effects)) :
      Reached allowed s'

/-- The command is a phrase that was heard. -/
def Command.isPhrase : Command → Bool
  | .phrase _ => true
  | _ => false

/-! ### Sentences -/

/-- A character of operands: neither a space nor the sign of an operation. -/
def isOperandChar (c : Char) : Bool := c != ' ' && !isGlyph c

/-- A text of such characters. -/
def IsOperandText (t : Text) : Prop := ∀ c ∈ t, isOperandChar c = true

theorem isOperandText_nil : IsOperandText [] := fun _ hc => absurd hc List.not_mem_nil

/-- An operand: a text of such characters that is not empty. -/
def IsOperand (t : Text) : Prop := t ≠ [] ∧ IsOperandText t

/-- An operator as it is typed. -/
def operatorText (o : Operation) : Text := [' ', o.glyph, ' ']

/-- Nothing, or operands with an operator between each two, and perhaps one at the end. -/
def IsSentence (line : Text) : Prop :=
  line = [] ∨ ∃ m rest tail, IsOperand m ∧ (∀ p ∈ rest, IsOperand p.2) ∧
    (tail = [] ∨ ∃ o, tail = operatorText o) ∧ line = chainLine m rest ++ tail

/-- Operands with an operator after each. -/
inductive IsHead : Text → Prop
  | nil : IsHead []
  | snoc {before m : Text} (h : IsHead before) (hm : IsOperand m) (o : Operation) :
      IsHead (before ++ m ++ operatorText o)

theorem chainLine_append_singleton (m : Text) (rest : List (Operation × Text)) (o : Operation)
    (n : Text) :
    chainLine m (rest ++ [(o, n)]) = chainLine m rest ++ operatorText o ++ n := by
  simp [chainLine, pairLine, operatorText]

theorem forall_mem_append_singleton {rest : List (Operation × Text)}
    (hrest : ∀ p ∈ rest, IsOperand p.2) {n : Text} (hn : IsOperand n) (o : Operation) :
    ∀ p ∈ rest ++ [(o, n)], IsOperand p.2 := by
  intro p hp
  rcases List.mem_append.1 hp with hp | hp
  · exact hrest p hp
  · rw [List.mem_singleton.1 hp]
    exact hn

/-- A head that is not empty is a chain of operands and an operator. -/
theorem IsHead.eq_chainLine {before : Text} (h : IsHead before) :
    before = [] ∨ ∃ m rest o, IsOperand m ∧ (∀ p ∈ rest, IsOperand p.2) ∧
      before = chainLine m rest ++ operatorText o := by
  induction h with
  | nil => exact Or.inl rfl
  | @snoc before n h hn o ih =>
    right
    rcases ih with rfl | ⟨m, rest, o', hm, hrest, rfl⟩
    · exact ⟨n, [], o, hn, fun p hp => absurd hp List.not_mem_nil, by simp [chainLine]⟩
    · exact ⟨m, rest ++ [(o', n)], o, hm, forall_mem_append_singleton hrest hn o',
        by rw [chainLine_append_singleton]⟩

/-- A head and an operand, which may be empty, are a sentence. -/
theorem isSentence_append {before last : Text} (h : IsHead before) (hlast : IsOperandText last) :
    IsSentence (before ++ last) := by
  by_cases hnil : last = []
  · subst hnil
    rw [List.append_nil]
    rcases h.eq_chainLine with rfl | ⟨m, rest, o, hm, hrest, rfl⟩
    · exact Or.inl rfl
    · exact Or.inr ⟨m, rest, _, hm, hrest, Or.inr ⟨o, rfl⟩, rfl⟩
  · right
    rcases h.eq_chainLine with rfl | ⟨m, rest, o, hm, hrest, rfl⟩
    · exact ⟨last, [], [], ⟨hnil, hlast⟩, fun p hp => absurd hp List.not_mem_nil, Or.inl rfl,
        by simp [chainLine]⟩
    · exact ⟨m, rest ++ [(o, last)], [], hm, forall_mem_append_singleton hrest ⟨hnil, hlast⟩ o,
        Or.inl rfl, by rw [chainLine_append_singleton, List.append_nil]⟩

theorem exists_head_chainLine {m : Text} (hm : IsOperand m) {rest : List (Operation × Text)}
    (hrest : ∀ p ∈ rest, IsOperand p.2) :
    ∃ before last, IsHead before ∧ IsOperand last ∧ chainLine m rest = before ++ last := by
  induction rest using List.reverseRecOn with
  | nil => exact ⟨[], m, .nil, hm, by simp [chainLine]⟩
  | append_singleton rest p ih =>
    obtain ⟨before, last, hbefore, hlast, heq⟩ := ih fun q hq => hrest q (List.mem_append_left _ hq)
    have hp := hrest p (List.mem_append_right _ (List.mem_singleton_self p))
    exact ⟨_, p.2, hbefore.snoc hlast p.1, hp, by rw [chainLine_append_singleton, heq]⟩

/-- A sentence is a head and an operand, which may be empty. -/
theorem IsSentence.exists_head {line : Text} (h : IsSentence line) :
    ∃ before last, IsHead before ∧ IsOperandText last ∧ line = before ++ last := by
  rcases h with rfl | ⟨m, rest, tail, hm, hrest, htail, rfl⟩
  · exact ⟨[], [], .nil, isOperandText_nil, rfl⟩
  · obtain ⟨before, last, hbefore, hlast, heq⟩ := exists_head_chainLine hm hrest
    rcases htail with rfl | ⟨o, rfl⟩
    · exact ⟨before, last, hbefore, hlast.2, by rw [heq, List.append_nil]⟩
    · exact ⟨_, [], hbefore.snoc hlast o, isOperandText_nil, by rw [heq, List.append_nil]⟩

/-! ### Operand texts -/

theorem IsOperandText.append {a b : Text} (ha : IsOperandText a) (hb : IsOperandText b) :
    IsOperandText (a ++ b) :=
  fun c hc => (List.mem_append.1 hc).elim (ha c) (hb c)

theorem IsOperandText.of_subset {a b : Text} (hb : IsOperandText b) (h : a ⊆ b) :
    IsOperandText a :=
  fun c hc => hb c (h hc)

theorem isOperandText_singleton {c : Char} (hc : isOperandChar c = true) : IsOperandText [c] :=
  List.forall_mem_singleton.2 hc

theorem isOperandChar_of_isAsciiDigit {c : Char} (hc : isAsciiDigit c = true) :
    isOperandChar c = true :=
  of_isAsciiDigit (P := (isOperandChar · = true)) (by decide) hc

theorem dropTail_isPrefix (p : Char → Bool) (t : Text) : dropTail p t <+: t :=
  List.rdropWhile_prefix p t

theorem exists_fixedText (places : ℕ) (x : Binary64) :
    ∃ w f : Text, IsDigits w ∧ IsDigits f ∧
      x.fixedText places = x.signText ++ (w ++ '.' :: f) :=
  ⟨_, _, isDigits_ofNat _, isDigits_leftpad _ _, rfl⟩

/-- A result is the beginning of a decimal fraction, with or without a sign, or the name of what is
not finite. -/
theorem resultText_cases (x : Binary64) :
    (∃ sign w f : Text, sign <+: ['-'] ∧ IsDigits w ∧ IsDigits f ∧
      resultText x <+: sign ++ (w ++ '.' :: f)) ∨
      resultText x ∈ ["nan".toList, "inf".toList, "-inf".toList] := by
  have hsign : x.signText <+: ['-'] := by
    unfold Binary64.signText
    split
    · exact List.prefix_rfl
    · exact List.nil_prefix
  unfold resultText
  split
  · left
    cases x.truncate with
    | ofNat n =>
      exact ⟨[], ofNat n, [], List.nil_prefix, isDigits_ofNat n, isDigits_zeros 0,
        List.prefix_append _ _⟩
    | negSucc n =>
      exact ⟨['-'], ofNat (n + 1), [], List.prefix_rfl, isDigits_ofNat (n + 1), isDigits_zeros 0,
        (List.prefix_append_right_inj ['-']).2 (List.prefix_append _ _)⟩
  · split
    · obtain ⟨w, f, hw, hf, hfixed⟩ := exists_fixedText 10 x
      exact Or.inl ⟨x.signText, w, f, hsign, hw, hf,
        hfixed ▸ (dropTail_isPrefix _ _).trans (dropTail_isPrefix _ _)⟩
    · right
      unfold Binary64.Names.of
      split
      · exact List.mem_cons_self ..
      · unfold Binary64.signText
        split
        · exact List.mem_cons_of_mem _ (List.mem_cons_of_mem _ (List.mem_cons_self ..))
        · exact List.mem_cons_of_mem _ (List.mem_cons_self ..)

/-- What holds of digits, of a point, of a sign and of the letters of the names holds of every
character of a result. -/
theorem forall_mem_resultText {P : Char → Prop} (hdigit : ∀ c, isAsciiDigit c = true → P c)
    (hother : ∀ c ∈ "-.nanif".toList, P c) (x : Binary64) : ∀ c ∈ resultText x, P c := by
  intro c hc
  rcases resultText_cases x with ⟨sign, w, f, hsign, hw, hf, hbegin⟩ | hname
  · rcases List.mem_append.1 (hbegin.subset hc) with hc | hc
    · exact hother c (List.mem_singleton.1 (hsign.subset hc) ▸ by decide)
    · rcases List.mem_append.1 hc with hc | hc
      · exact hdigit c (hw c hc)
      · rcases List.mem_cons.1 hc with rfl | hc
        · exact hother _ (by decide)
        · exact hdigit c (hf c hc)
  · have hnames : ∀ t ∈ ["nan".toList, "inf".toList, "-inf".toList], t ⊆ "-.nanif".toList := by
      decide
    exact hother c (hnames _ hname hc)

/-- No result holds a space or the sign of an operation, whether finite or not. -/
theorem isOperandText_resultText (x : Binary64) : IsOperandText (resultText x) :=
  forall_mem_resultText (fun _ hc => isOperandChar_of_isAsciiDigit hc)
    (List.all_eq_true.1 (by decide)) x

theorem forall_mem_toggled {P : Char → Prop} {t : Text} (hsign : P '-') (ht : ∀ c ∈ t, P c) :
    ∀ c ∈ (toggled t).1, P c := by
  unfold toggled
  split
  · exact (List.forall_mem_cons.1 ht).2
  · exact List.forall_mem_cons.2 ⟨hsign, ht⟩

theorem IsOperandText.toggled {t : Text} (h : IsOperandText t) :
    IsOperandText (Editor.toggled t).1 :=
  forall_mem_toggled (by decide) h

/-! ### What one press leaves -/

/-- The line is a head and an operand, at whose end is the number being typed, and the line that was
evaluated is a sentence. -/
structure Grammatical (s : State) : Prop where
  head : ∃ before kept, IsHead before ∧ IsOperandText (kept ++ s.operand) ∧
    s.line = before ++ (kept ++ s.operand)
  evaluated : IsSentence s.evaluatedLine

theorem Grammatical.isSentence {s : State} (hs : Grammatical s) : IsSentence s.line := by
  obtain ⟨before, kept, hbefore, hlast, hline⟩ := hs.head
  rw [hline]
  exact isSentence_append hbefore hlast

theorem grammatical_empty : Grammatical .empty where
  head := ⟨[], [], .nil, isOperandText_nil, rfl⟩
  evaluated := Or.inl rfl

/-- A sentence in which no number is being typed. -/
theorem grammatical_of_isSentence {s : State} (hline : IsSentence s.line)
    (hoperand : s.operand = []) (heval : IsSentence s.evaluatedLine) : Grammatical s := by
  obtain ⟨before, last, hbefore, hlast, heq⟩ := hline.exists_head
  refine ⟨⟨before, last, hbefore, ?_, ?_⟩, heval⟩
  · rwa [hoperand, List.append_nil]
  · rw [hoperand, List.append_nil, heq]

theorem Grammatical.append {s : State} (hs : Grammatical s) {c : Char}
    (hc : isOperandChar c = true) : Grammatical (s.append [c]) := by
  obtain ⟨before, kept, hbefore, hlast, hline⟩ := hs.head
  refine ⟨⟨before, kept, hbefore, ?_, ?_⟩, hs.evaluated⟩
  · show IsOperandText (kept ++ (s.operand ++ [c]))
    rw [← List.append_assoc]
    exact hlast.append (isOperandText_singleton hc)
  · show s.line ++ [c] = before ++ (kept ++ (s.operand ++ [c]))
    rw [hline]
    simp

theorem Grammatical.typeDigit {s : State} (hs : Grammatical s) (label : Codes) :
    Grammatical (typeDigit s label).1 := by
  unfold Editor.typeDigit
  split
  · split
    · rename_i c hc
      exact hs.append (isOperandChar_of_isAsciiDigit hc)
    · exact hs
  · exact hs

theorem Grammatical.typePoint {s : State} (hs : Grammatical s) : Grammatical (typePoint s).1 := by
  unfold Editor.typePoint
  split
  · exact hs
  · exact hs.append (by decide)

/-- An operator is accepted only after an operand that is not empty. -/
theorem Grammatical.typeOperator {s : State} (hs : Grammatical s) (sign : Option Text) :
    Grammatical (typeOperator s sign).1 := by
  unfold Editor.typeOperator
  split
  · exact hs
  · rename_i o _
    split
    · rename_i htakes
      obtain ⟨before, kept, hbefore, hlast, hline⟩ := hs.head
      have hne : kept ++ s.operand ≠ [] := by
        intro hnil
        rw [hnil, List.append_nil] at hline
        cases hbefore with
        | nil => simp [State.takesOperator, hline] at htakes
        | snoc _ _ _ => simp [State.takesOperator, hline, operatorText] at htakes
      refine ⟨⟨_, [], hbefore.snoc ⟨hne, hlast⟩ o, isOperandText_nil, ?_⟩, hs.evaluated⟩
      show s.line ++ operatorText o = _
      rw [hline, List.append_nil, List.append_nil]
    · exact hs

/-- The number being typed is at the end of the line, and nothing else is replaced. -/
theorem Grammatical.replaceOperand {s s' : State} (hs : Grammatical s) (hne : s.operand ≠ [])
    {number : Text} (hnumber : IsOperandText number)
    (h : s.replaceOperand? number = some s') : Grammatical s' := by
  obtain ⟨before, kept, hbefore, hlast, hline⟩ := hs.head
  rw [State.replaceOperand?, hline, ← List.append_assoc, replaceLast?_append _ _ hne,
    Option.map_some, Option.some.injEq] at h
  subst h
  refine ⟨⟨before, kept, hbefore, ?_, List.append_assoc _ _ _⟩, hs.evaluated⟩
  exact (hlast.of_subset (List.subset_append_left _ _)).append hnumber

theorem Grammatical.takePercent {s : State} (hs : Grammatical s) :
    Grammatical (takePercent s).1 := by
  unfold Editor.takePercent
  split
  · exact hs
  · rename_i hne
    split
    · exact hs
    · rename_i s' h
      obtain ⟨v, -, hreplace⟩ := Option.bind_eq_some_iff.1 h
      exact hs.replaceOperand hne (isOperandText_resultText _) hreplace

theorem Grammatical.toggleSign {s : State} (hs : Grammatical s) : Grammatical (toggleSign s).1 := by
  unfold Editor.toggleSign
  split
  · exact hs
  · rename_i hne
    split
    · exact hs
    · rename_i s' h
      obtain ⟨before, kept, -, hlast, -⟩ := hs.head
      have hoperand := hlast.of_subset (List.subset_append_right kept s.operand)
      exact hs.replaceOperand hne hoperand.toggled h

/-! ### Erasing -/

theorem dropTail_of_getLast {line : Text} (h : line.getLast? ≠ some ' ') :
    dropTail (· == ' ') line = line := by
  refine dropTail_eq_self fun c hc => ?_
  refine beq_eq_false_iff_ne.2 ?_
  rintro rfl
  exact h hc

theorem dropTail_space_append {t : Text} (ht : IsOperand t) (a : Text) :
    dropTail (· == ' ') (a ++ t) = a ++ t := by
  refine dropTail_eq_self fun c hc => ?_
  rw [List.getLast?_append_of_ne_nil a ht.1] at hc
  have hchar := ht.2 c (List.mem_of_mem_getLast? hc)
  rw [isOperandChar, Bool.and_eq_true, bne_iff_ne] at hchar
  exact beq_eq_false_iff_ne.2 hchar.1

/-- The last character of an operand is erased alone. -/
theorem erase_operand (before : Text) {last : Text} (hlast : IsOperand last) :
    ∃ c, (dropTail (· == ' ') (before ++ last)).getLast? = some c ∧
      eraseLast (before ++ last) c = before ++ last.dropLast := by
  have hglyph : isGlyph (last.getLast hlast.1) = false := by
    have hchar := hlast.2 _ (List.getLast_mem hlast.1)
    rw [isOperandChar, Bool.and_eq_true, Bool.not_eq_true'] at hchar
    exact hchar.2
  refine ⟨last.getLast hlast.1, ?_, ?_⟩
  · rw [dropTail_space_append hlast, List.getLast?_append_of_ne_nil _ hlast.1,
      List.getLast?_eq_some_getLast hlast.1]
  · rw [eraseLast, hglyph, if_neg Bool.false_ne_true, dropTail_space_append hlast,
      List.dropLast_append_of_ne_nil hlast.1]

/-- An operator is erased with its spaces and those before them. -/
theorem erase_operatorText (line : Text) (o : Operation) :
    (dropTail (· == ' ') (line ++ operatorText o)).getLast? = some o.glyph ∧
      eraseLast (line ++ operatorText o) o.glyph = dropTail (· == ' ') line := by
  have hspace : (o.glyph == ' ') = false := by cases o <;> decide
  have hglyph : isGlyph o.glyph = true := by cases o <;> decide
  have hdrop : dropTail (· == ' ') (line ++ operatorText o) = line ++ [' '] ++ [o.glyph] := by
    have h := dropTail_append_cons (· == ' ') (line ++ [' ']) hspace [' ']
    rw [operatorText, ← List.singleton_append, ← List.append_assoc]
    exact h
  refine ⟨by rw [hdrop, List.getLast?_concat], ?_⟩
  rw [eraseLast, hglyph, if_pos rfl, hdrop, List.dropLast_concat]
  exact List.rdropWhile_concat_pos _ _ _ (by decide)

/-- An operator after an operand is erased with both its spaces. -/
theorem erase_operator {m : Text} (hm : IsOperand m) (before : Text) (o : Operation) :
    (dropTail (· == ' ') (before ++ m ++ operatorText o)).getLast? = some o.glyph ∧
      eraseLast (before ++ m ++ operatorText o) o.glyph = before ++ m := by
  have h := erase_operatorText (before ++ m) o
  rwa [dropTail_space_append hm before] at h

/-- Erasing takes a character of the operand at the end, or the operator before it. -/
theorem Grammatical.erase {s : State} (hs : Grammatical s) {o : Outcome} (h : erase s = .ok o) :
    Grammatical o.1 := by
  obtain ⟨before, kept, hbefore, hlast, hline⟩ := hs.head
  unfold Editor.erase at h
  split at h
  · cases h
    exact hs
  · rename_i hne
    by_cases hnil : kept ++ s.operand = []
    · obtain ⟨-, hoperand⟩ := List.append_eq_nil_iff.1 hnil
      rw [hnil, List.append_nil] at hline
      cases hbefore with
      | nil => exact absurd hline hne
      | @snoc before m hbefore hm p =>
        obtain ⟨hgetLast, herase⟩ := erase_operator hm before p
        rw [hline, hgetLast] at h
        cases h
        refine ⟨⟨before, m, hbefore, ?_, ?_⟩, hs.evaluated⟩
        · rw [hoperand, List.dropLast_nil, List.append_nil]
          exact hm.2
        · rw [herase, hoperand, List.dropLast_nil, List.append_nil]
    · obtain ⟨c, hgetLast, herase⟩ := erase_operand before ⟨hnil, hlast⟩
      rw [hline, hgetLast] at h
      cases h
      -- the number being typed loses its last character, or there is none
      by_cases hoperand : s.operand = []
      · rw [hoperand, List.append_nil] at herase hlast
        refine ⟨⟨before, kept.dropLast, hbefore, ?_, ?_⟩, hs.evaluated⟩
        · rw [hoperand, List.dropLast_nil, List.append_nil]
          exact hlast.of_subset (List.dropLast_subset _)
        · rw [hoperand, List.append_nil, herase, List.dropLast_nil, List.append_nil]
      · rw [List.dropLast_append_of_ne_nil hoperand] at herase
        refine ⟨⟨before, kept, hbefore, ?_, herase⟩, hs.evaluated⟩
        exact (hlast.of_subset (List.subset_append_left _ _)).append
          ((hlast.of_subset (List.subset_append_right _ _)).of_subset (List.dropLast_subset _))

theorem Grammatical.stepBack {s : State} (hs : Grammatical s) {o : Outcome}
    (h : stepBack s = .ok o) : Grammatical o.1 := by
  unfold Editor.stepBack at h
  split at h
  · split at h
    · exact Grammatical.erase (s := { s with evaluated := false }) ⟨hs.head, hs.evaluated⟩ h
    · cases h
      exact grammatical_of_isSentence hs.evaluated rfl hs.evaluated
  · exact hs.erase h

/-! ### Evaluation -/

theorem Grammatical.solve {s : State} (hs : Grammatical s) (learning : Bool) :
    Grammatical (solve learning s).1 := by
  by_cases hne : s.line = []
  · rw [Editor.solve, if_pos hne]
    exact hs
  · rcases hv : evaluate (keyboardLine s.line) with f | v
    · rw [solve_of_error learning hne hv]
      exact ⟨hs.head, hs.isSentence⟩
    · rw [solve_of_ok learning hne hv]
      exact ⟨⟨[], [], .nil, isOperandText_resultText v, rfl⟩, hs.isSentence⟩

/-! ### All buttons -/

/-- What a button leaves. -/
theorem Grammatical.press {s s' : State} (hs : Grammatical s) {c : Command}
    (hc : c.isPhrase = false) {learning : Bool} {effects : List Effect}
    (h : press learning s c = .ok (s', effects)) : Grammatical s' := by
  obtain ⟨o, hact, rfl, -⟩ := exists_act_of_press h
  have hs' : Grammatical { s with failed := false } := ⟨hs.head, hs.evaluated⟩
  cases c with
  | digit label =>
    obtain ⟨t, -, rfl⟩ := act_digit_eq_ok_iff.1 hact
    exact hs'.typeDigit t
  | point =>
    cases hact
    exact hs'.typePoint
  | operator sign =>
    cases hact
    exact hs'.typeOperator sign
  | percent =>
    cases hact
    exact hs'.takePercent
  | sign =>
    cases hact
    exact hs'.toggleSign
  | backspace => exact hs'.stepBack hact
  | clear =>
    cases hact
    exact grammatical_empty
  | equals =>
    cases hact
    exact hs'.solve learning
  | phrase heard => cases hc
  | silence code =>
    cases hact
    exact hs'
  | foreign value => exact absurd hact (act_foreign_ne_ok _ _ _ _)

theorem Reached.grammatical {s : State} (hs : Reached (·.isPhrase = false) s) : Grammatical s := by
  induction hs with
  | empty => exact grammatical_empty
  | press _ hc h ih => exact ih.press hc h

/-- **Buttons write sentences.**  The line and the line that was evaluated are operands with an
operator between spaces between each two, and perhaps one at the end. -/
theorem isSentence_of_reached {s : State} (hs : Reached (·.isPhrase = false) s) :
    IsSentence s.line ∧ IsSentence s.evaluatedLine :=
  ⟨hs.grammatical.isSentence, hs.grammatical.evaluated⟩

/-- A sign after an operator, a failure, and three steps back: the line comes back, and loses its
last number. -/
theorem isSentence_five_times_restored :
    Reached (·.isPhrase = false) ⟨"5 × ".toList, [], false, "5 × -3".toList, false⟩ ∧
      IsSentence "5 × ".toList ∧ IsSentence "5 × -3".toList := by
  have h1 : Reached (·.isPhrase = false) ⟨['5'], ['5'], false, [], false⟩ :=
    @Reached.press _ _ _ (.digit ['5']) false _ .empty rfl rfl
  have h2 : Reached (·.isPhrase = false) ⟨"5 × ".toList, [], false, [], false⟩ :=
    @Reached.press _ _ _ (.operator (some ['*'])) false _ h1 rfl rfl
  have h3 : Reached (·.isPhrase = false) ⟨"5 × 3".toList, ['3'], false, [], false⟩ :=
    @Reached.press _ _ _ (.digit ['3']) false _ h2 rfl rfl
  have h4 : Reached (·.isPhrase = false) ⟨"5 × -3".toList, "-3".toList, false, [], false⟩ :=
    @Reached.press _ _ _ .sign true _ h3 rfl rfl
  have hequals : press true ⟨"5 × -3".toList, "-3".toList, false, [], false⟩ .equals =
      .ok (⟨"5 × -3".toList, "-3".toList, true, "5 × -3".toList, true⟩,
        [.vibrate, .display "Error".toList, .speak invalidPhrase, .notify invalidPhrase]) := by
    decide +kernel
  have h5 := Reached.press h4 rfl hequals
  have h6 : Reached (·.isPhrase = false)
      ⟨"5 × -3".toList, [], false, "5 × -3".toList, false⟩ :=
    @Reached.press _ _ _ .backspace true _ h5 rfl rfl
  have h7 : Reached (·.isPhrase = false) ⟨"5 × -".toList, [], false, "5 × -3".toList, false⟩ :=
    @Reached.press _ _ _ .backspace true _ h6 rfl rfl
  have h8 : Reached (·.isPhrase = false) ⟨"5 × ".toList, [], false, "5 × -3".toList, false⟩ :=
    @Reached.press _ _ _ .backspace true _ h7 rfl rfl
  exact ⟨h8, isSentence_of_reached h8⟩

end SpokenCalculator.Editor
