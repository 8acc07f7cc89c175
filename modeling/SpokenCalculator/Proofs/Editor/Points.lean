import SpokenCalculator.Proofs.Editor.Resumed

/-!
# Decimal points

A point is refused where the number being typed has one.  An operand of which only the end is being
typed may have a point before that end, so it can get a second one: by a point, or by a percent that
gives a decimal fraction.  Nothing else that a button does puts two points into an operand.

* `PointsApart`: no operand of a line has two points;
* `pointsApart_append_iff`, `PointsApart.append_operatorText`: more of the operand, or an operator;
* `State.kept`: the part of the operand at the end that is not being typed;
* `AddsPoint`: a command gives a second point to an operand;
* `SinglePoints.of_change`, `not_pointsApart_of_addsPoint`: what one button does;
* `pointsApart_iff_of_run`: when no operand ever has two points.
-/

namespace SpokenCalculator.Editor
open Text

/-! ### Lines -/

/-- No operand of the line has two points: a part of the line without a space has at most one. -/
def PointsApart (line : Text) : Prop := ∀ t, t <:+: line → ' ' ∉ t → t.count '.' ≤ 1

theorem PointsApart.of_isInfix {a b : Text} (hb : PointsApart b) (h : a <:+: b) : PointsApart a :=
  fun t ht hspace => hb t (ht.trans h) hspace

theorem pointsApart_of_count {t : Text} (h : t.count '.' ≤ 1) : PointsApart t :=
  fun _ ht _ => (ht.sublist.count_le '.').trans h

theorem space_notMem_lastPart (line : Text) : ' ' ∉ lastPart line := by
  intro h
  have hne := List.mem_rtakeWhile_imp h
  exact absurd hne (by decide)

/-- An end of the line without a space is within the operand at the end. -/
theorem suffix_lastPart {t line : Text} (h : t <:+ line) (ht : ' ' ∉ t) : t <:+ lastPart line := by
  obtain ⟨r, rfl⟩ := h
  rw [lastPart_append ht]
  exact List.suffix_append _ _

/-- A text without a space goes on with the operand at the end. -/
theorem pointsApart_append_iff {t : Text} (ht : ' ' ∉ t) (line : Text) :
    PointsApart (line ++ t) ↔
      PointsApart line ∧ (lastPart line).count '.' + t.count '.' ≤ 1 := by
  rw [← List.count_append]
  constructor
  · intro h
    refine ⟨h.of_isInfix (List.prefix_append line t).isInfix, h _ ?_ ?_⟩
    · rw [← lastPart_append ht]
      exact (List.rtakeWhile_suffix _ _).isInfix
    · rw [List.mem_append, not_or]
      exact ⟨space_notMem_lastPart line, ht⟩
  · rintro ⟨hline, hcount⟩ u hu hspace
    rcases List.infix_append_iff.1 hu with hu | hu | ⟨a, b, rfl, ha, hb⟩
    · exact hline u hu hspace
    · exact (hu.sublist.trans (List.sublist_append_right _ _)).count_le '.' |>.trans hcount
    · rw [List.mem_append, not_or] at hspace
      have ha' := (suffix_lastPart ha hspace.1).sublist
      exact (ha'.append hb.sublist).count_le '.' |>.trans hcount

theorem PointsApart.append_space {line : Text} (h : PointsApart line) :
    PointsApart (line ++ [' ']) := by
  intro t ht hspace
  rcases List.infix_concat_iff.1 ht with ht | ht
  · rcases List.suffix_concat_iff.1 ht with rfl | ⟨u, rfl, -⟩
    · exact Nat.zero_le _
    · exact absurd (List.mem_append_right _ (List.mem_singleton_self ' ')) hspace
  · exact h t ht hspace

/-- An operator begins a new operand. -/
theorem PointsApart.append_operatorText {line : Text} (h : PointsApart line) (o : Operation) :
    PointsApart (line ++ operatorText o) := by
  have hglyph : PointsApart (line ++ [' '] ++ [o.glyph]) := by
    refine (pointsApart_append_iff (by cases o <;> decide) _).2 ⟨h.append_space, ?_⟩
    rw [lastPart_append_space]
    cases o <;> decide
  have htext : line ++ operatorText o = line ++ [' '] ++ [o.glyph] ++ [' '] := by
    simp [operatorText]
  rw [htext]
  exact hglyph.append_space

/-! ### Points of numbers -/

theorem count_point_of_isDigits {t : Text} (ht : IsDigits t) : t.count '.' = 0 := by
  rw [List.count_eq_zero]
  intro h
  exact absurd (ht '.' h) (by decide)

/-- A result has at most one point. -/
theorem count_point_resultText (x : Binary64) : (resultText x).count '.' ≤ 1 := by
  rcases resultText_cases x with ⟨sign, w, f, hsign, hw, hf, hbegin⟩ | hname
  · refine (hbegin.sublist.count_le '.').trans ?_
    have hcount : sign.count '.' = 0 := Nat.le_zero.1 (hsign.sublist.count_le '.')
    rw [List.count_append, List.count_append, List.count_cons_self, hcount,
      count_point_of_isDigits hw, count_point_of_isDigits hf]
  · have hnames : ∀ t ∈ ["nan".toList, "inf".toList, "-inf".toList], t.count '.' ≤ 1 := by decide
    exact hnames _ hname

theorem count_point_toggled (t : Text) : (toggled t).1.count '.' = t.count '.' := by
  unfold toggled
  split
  · rw [List.count_cons_of_ne (by decide)]
  · exact List.count_cons_of_ne (by decide)

/-! ### What one press does -/

variable {s s' : State}

/-- The part of the operand at the end of the line that is not being typed. -/
def State.kept (s : State) : Text := lastPart (s.line.rdrop s.operand.length)

theorem State.kept_of_line {front : Text} (hline : s.line = front ++ s.operand) :
    s.kept = lastPart front := by
  rw [State.kept, hline, List.rdrop_append_length]

/-- A command gives a second point to the operand at the end of the line: a point that is accepted,
or a percent that gives a decimal fraction, after a part with a point that is not being typed. -/
def AddsPoint (s : State) (c : Command) : Prop :=
  '.' ∈ s.kept ∧ (c = .point ∧ '.' ∉ s.operand ∨
    c = .percent ∧ ∃ v, Binary64.ofText? s.operand = some v ∧ '.' ∈ resultText (v / hundred))

/-- No operand has two points, on the line and on the line that was evaluated. -/
structure SinglePoints (s : State) : Prop where
  line : PointsApart s.line
  evaluated : PointsApart s.evaluatedLine

theorem singlePoints_empty : SinglePoints .empty :=
  ⟨pointsApart_of_count (Nat.zero_le 1), pointsApart_of_count (Nat.zero_le 1)⟩

theorem State.append_eq_withOperand {front : Text} (hline : s.line = front ++ s.operand)
    (t : Text) : s.append t = s.withOperand front (s.operand ++ t) := by
  rw [State.append, State.withOperand, hline, List.append_assoc]

/-- The operand at the end has one point at most, wherever it stands. -/
theorem SinglePoints.count_le (h : SinglePoints s) (hs : Tidy s) :
    s.kept.count '.' + s.operand.count '.' ≤ 1 := by
  obtain ⟨front, hline⟩ := hs.ends
  have hpoints := h.line
  rw [← hline, pointsApart_append_iff hs.operand.space_notMem] at hpoints
  rw [State.kept_of_line hline.symm]
  exact hpoints.2

/-- Another number at the end of the line, with no more points than there is place for. -/
theorem SinglePoints.withOperand (h : SinglePoints s) {front : Text}
    (hline : s.line = front ++ s.operand) {number : Text} (hnumber : IsOperandText number)
    (hcount : s.kept.count '.' + number.count '.' ≤ 1) :
    SinglePoints (s.withOperand front number) where
  line := by
    have hfront := h.line.of_isInfix ⟨[], s.operand, hline.symm⟩
    rw [State.kept_of_line hline] at hcount
    exact (pointsApart_append_iff hnumber.space_notMem front).2 ⟨hfront, hcount⟩
  evaluated := h.evaluated

/-- A character at the end of the line. -/
theorem SinglePoints.append (h : SinglePoints s) (hs : Tidy s) {c : Char}
    (hc : isOperandChar c = true)
    (hcount : s.kept.count '.' + (s.operand ++ [c]).count '.' ≤ 1) :
    SinglePoints (s.append [c]) := by
  obtain ⟨front, hline⟩ := hs.ends
  rw [State.append_eq_withOperand hline.symm]
  exact h.withOperand hline.symm (hs.operand.append (isOperandText_singleton hc)) hcount

/-- A point is typed where no part of the operand has one. -/
theorem SinglePoints.append_point (h : SinglePoints s) (hs : Tidy s) (hoperand : '.' ∉ s.operand)
    (hadds : ¬ AddsPoint s .point) : SinglePoints (s.append ['.']) := by
  have hkept : '.' ∉ s.kept := fun hk => hadds ⟨hk, Or.inl ⟨rfl, hoperand⟩⟩
  refine h.append hs (by decide) ?_
  rw [List.count_append, List.count_eq_zero.2 hkept, List.count_eq_zero.2 hoperand]
  decide

/-- A percent that gives a whole number adds no point, and one that gives a decimal fraction adds
one to an operand that has none. -/
theorem SinglePoints.percent (h : SinglePoints s) (hs : Tidy s) (hadds : ¬ AddsPoint s .percent)
    {front : Text} (hline : s.line = front ++ s.operand) {v : Binary64}
    (hv : Binary64.ofText? s.operand = some v) :
    SinglePoints (s.withOperand front (resultText (v / hundred))) := by
  refine h.withOperand hline (isOperandText_resultText _) ?_
  by_cases hkept : '.' ∈ s.kept
  · have hresult : '.' ∉ resultText (v / hundred) := fun hr =>
      hadds ⟨hkept, Or.inr ⟨rfl, v, hv, hr⟩⟩
    rw [List.count_eq_zero.2 hresult]
    exact (Nat.le_add_right _ _).trans (h.count_le hs)
  · rw [List.count_eq_zero.2 hkept, Nat.zero_add]
    exact count_point_resultText _

theorem SinglePoints.solved (h : SinglePoints s) (hsolved : Solved s s') : SinglePoints s' := by
  cases hsolved with
  | failed hv => exact ⟨h.line, h.line⟩
  | @valued v hv => exact ⟨pointsApart_of_count (count_point_resultText v), h.line⟩

/-- **A button that does not add a second point to an operand keeps the points apart.** -/
theorem SinglePoints.of_change (h : SinglePoints s) (hs : Tidy s) {c : Command}
    (hc : c.isPhrase = false) (hadds : ¬ AddsPoint s c) (hchange : Change s c s') :
    SinglePoints s' := by
  cases hchange with
  | refused => exact h
  | digit hd =>
    refine h.append hs (isOperandChar_of_isAsciiDigit hd) ?_
    rw [List.count_append, count_point_of_isDigits (List.forall_mem_singleton.2 hd)]
    exact h.count_le hs
  | point hoperand => exact h.append_point hs hoperand hadds
  | operator _ _ o => exact ⟨h.line.append_operatorText o, h.evaluated⟩
  | percent hline hv => exact h.percent hs hadds hline hv
  | sign hline hne =>
    refine h.withOperand hline hs.operand.toggled ?_
    rw [count_point_toggled]
    exact h.count_le hs
  | nothing => exact ⟨h.line, h.evaluated⟩
  | erased => exact ⟨h.line.of_isInfix (eraseLast_isPrefix _ _).isInfix, h.evaluated⟩
  | restored => exact ⟨h.evaluated, h.evaluated⟩
  | clear => exact singlePoints_empty
  | equals _ hsolved => exact h.solved hsolved
  | phrase => cases hc

/-- A number with a point after a part with a point. -/
theorem not_pointsApart_withOperand {front : Text} (hline : s.line = front ++ s.operand)
    (hkept : '.' ∈ s.kept) {number : Text} (hnumber : IsOperandText number)
    (hpoint : '.' ∈ number) : ¬ PointsApart (s.withOperand front number).line := by
  intro h
  have hcount := ((pointsApart_append_iff hnumber.space_notMem front).1 h).2
  rw [State.kept_of_line hline] at hkept
  have hfront := List.count_pos_iff.2 hkept
  have hlast := List.count_pos_iff.2 hpoint
  omega

/-- **A command that adds a second point to an operand puts two points into it.** -/
theorem not_pointsApart_of_addsPoint (hs : Tidy s) {c : Command} (hadds : AddsPoint s c)
    {learning : Bool} {o : Outcome} (ho : act learning s c = .ok o) : ¬ PointsApart o.1.line := by
  obtain ⟨front, hline⟩ := hs.ends
  obtain ⟨hkept, ⟨rfl, hoperand⟩ | ⟨rfl, v, hv, hresult⟩⟩ := hadds
  · have hpoint : IsOperandText (s.operand ++ ['.']) :=
      hs.operand.append (isOperandText_singleton (by decide))
    cases ho
    rw [typePoint, if_neg (by simpa using hoperand), State.append_eq_withOperand hline.symm]
    exact not_pointsApart_withOperand hline.symm hkept hpoint
      (List.mem_append_right _ (List.mem_singleton_self '.'))
  · have hne : s.operand ≠ [] := by
      intro hnil
      rw [hnil] at hv
      cases hv
    cases ho
    rw [takePercent_of_some hline.symm hne hv]
    exact not_pointsApart_withOperand hline.symm hkept (isOperandText_resultText _) hresult

/-! ### Runs -/

/-- As long as no press of a button adds a second point, there is none. -/
theorem Run.singlePoints {ps : List Press} (hs : Run ps s)
    (hps : ∀ p ∈ ps, p.command.isPhrase = false ∧ ¬ AddsPoint p.before p.command) :
    SinglePoints s := by
  refine hs.invariant singlePoints_empty (fun {s _ _} htidy hbefore hallowed hchange => ?_) hps
  exact SinglePoints.of_change (s := { s with failed := false }) ⟨hbefore.line, hbefore.evaluated⟩
    htidy.unfailed hallowed.1 hallowed.2 hchange

/-- **No operand ever has two points just if no press adds a second one**: no point is accepted, and
no percent gives a decimal fraction, where the operand at the end has a point before the number
being typed. -/
theorem pointsApart_iff_of_run {ps : List Press} (hs : Run ps s)
    (hbuttons : ∀ p ∈ ps, p.command.isPhrase = false) :
    (∀ t ∈ visited s ps, PointsApart t.line) ↔ ∀ p ∈ ps, ¬ AddsPoint p.before p.command := by
  induction hs with
  | start =>
    refine iff_of_true ?_ (fun p hp => absurd hp List.not_mem_nil)
    exact List.forall_mem_singleton.2 singlePoints_empty.line
  | @press ps s s' c learning effects hs h ih =>
    obtain ⟨hc, hbuttons⟩ := List.forall_mem_cons.1 hbuttons
    rw [visited_cons, List.forall_mem_cons, List.forall_mem_cons, ih hbuttons]
    refine and_congr_left fun hps => ?_
    obtain ⟨o, hact, rfl, -⟩ := exists_act_of_press h
    constructor
    · intro hpoints hadds
      exact not_pointsApart_of_addsPoint hs.reached.tidy.unfailed hadds hact hpoints
    · intro hadds
      refine (Run.singlePoints (hs.press h) ?_).line
      exact List.forall_mem_cons.2 ⟨⟨hc, hadds⟩, fun p hp => ⟨hbuttons p hp, hps p hp⟩⟩

/-- The line `1.5` after a step back over an operator. -/
def onePointFive : State := ⟨"1.5".toList, [], false, [], false⟩

/-- The presses that lead to this line. -/
def onePointFivePresses : List Press :=
  [⟨⟨"1.5 + ".toList, [], false, [], false⟩, .backspace⟩,
    ⟨⟨"1.5".toList, "1.5".toList, false, [], false⟩, .operator (some ['+'])⟩,
    ⟨⟨"1.".toList, "1.".toList, false, [], false⟩, .digit ['5']⟩,
    ⟨⟨['1'], ['1'], false, [], false⟩, .point⟩, ⟨.empty, .digit ['1']⟩]

theorem run_onePointFive : Run onePointFivePresses onePointFive := by
  have h1 := @Run.press _ _ ⟨['1'], ['1'], false, [], false⟩ (.digit ['1']) false _ .start rfl
  have h2 := @Run.press _ _ ⟨"1.".toList, "1.".toList, false, [], false⟩ .point false _ h1 rfl
  have h3 := @Run.press _ _ ⟨"1.5".toList, "1.5".toList, false, [], false⟩ (.digit ['5']) false _
    h2 rfl
  have h4 := @Run.press _ _ ⟨"1.5 + ".toList, [], false, [], false⟩ (.operator (some ['+'])) false _
    h3 rfl
  exact @Run.press _ _ onePointFive .backspace false _ h4 rfl

/-- Before the step back every number is typed from its beginning. -/
theorem pointsApart_one_point_five :
    Run onePointFivePresses onePointFive ∧
      (∀ p ∈ onePointFivePresses, p.command.isPhrase = false) ∧
      ∀ t ∈ visited onePointFive onePointFivePresses, PointsApart t.line := by
  have hbuttons : ∀ p ∈ onePointFivePresses, p.command.isPhrase = false := by decide
  refine ⟨run_onePointFive, hbuttons, (pointsApart_iff_of_run run_onePointFive hbuttons).2 ?_⟩
  have hkept : '.' ∉ State.kept ⟨['1'], ['1'], false, [], false⟩ := by decide
  simp only [onePointFivePresses, List.forall_mem_cons]
  refine ⟨?_, ?_, ?_, fun h => hkept h.1, ?_, fun p hp => absurd hp List.not_mem_nil⟩
  all_goals
    rintro ⟨-, ⟨hc, -⟩ | ⟨hc, -⟩⟩ <;> cases hc

/-- After the step back no number is being typed, so a second point is accepted. -/
theorem not_pointsApart_one_point_five_point :
    Run (⟨onePointFive, .point⟩ :: onePointFivePresses)
        ⟨"1.5.".toList, ".".toList, false, [], false⟩ ∧
      (∀ p ∈ (⟨onePointFive, .point⟩ :: onePointFivePresses : List Press),
        p.command.isPhrase = false) ∧
      ¬ PointsApart "1.5.".toList := by
  refine ⟨@Run.press _ _ _ .point false _ run_onePointFive rfl, by decide, fun h => ?_⟩
  exact absurd (h "1.5.".toList List.infix_rfl (by decide)) (by decide)

end SpokenCalculator.Editor
