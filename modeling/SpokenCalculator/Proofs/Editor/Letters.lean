import SpokenCalculator.Proofs.Editor.Resumed
import SpokenCalculator.Proofs.Editor.Speech
import SpokenCalculator.Proofs.Expression.Literal

/-!
# Letters on the line

A button types a digit, a point or an operator, changes a sign or erases, and an evaluation gives
finite results only.  A letter comes on the line in one way: by a percent of a number that is so
large that it is read as an infinity.  Its hundredth is an infinity as well, and the text of that is
a name.

* `isLineChar`, `IsLineText`: lines without letters;
* `isLineText_resultText_iff`: results without letters;
* `Press.TakesOverflow`: a percent is taken of a number that is too large;
* `WrittenIn.of_change`: which characters one button writes;
* `Unlettered.of_change`, `not_isLineText_of_overflows`: when it writes letters;
* `isLineText_iff_of_run`: when there is never a letter on the line.
-/

namespace SpokenCalculator.Editor
open Text

/-! ### Lines -/

/-- A digit, a point, a hyphen, a space or the sign of an operation on the screen. -/
def isLineChar (c : Char) : Bool := isSignedChar c || c == ' ' || isGlyph c

/-- A text of such characters. -/
def IsLineText (t : Text) : Prop := ∀ c ∈ t, isLineChar c = true

theorem IsLineText.of_subset {a b : Text} (hb : IsLineText b) (h : a ⊆ b) : IsLineText a :=
  fun c hc => hb c (h hc)

theorem isLineText_nil : IsLineText [] := fun _ hc => absurd hc List.not_mem_nil

theorem isLineText_operatorText (o : Operation) : IsLineText (operatorText o) := by
  cases o <;> exact List.all_eq_true.1 (by decide)

theorem isLineText_of_isSigned {t : Text} (ht : IsSigned t) : IsLineText t := by
  intro c hc
  rw [isLineChar, ht c hc, Bool.true_or, Bool.true_or]

theorem isSigned_of_isLineText {t : Text} (ht : IsLineText t) (hoperand : IsOperandText t) :
    IsSigned t := by
  intro c hc
  have hline := ht c hc
  have hchar := hoperand c hc
  rw [isOperandChar, Bool.and_eq_true, Bool.not_eq_true', bne_iff_ne] at hchar
  rwa [isLineChar, hchar.2, beq_eq_false_iff_ne.2 hchar.1, Bool.or_false, Bool.or_false] at hline

/-- Only the names of what is not finite have letters. -/
theorem isLineText_resultText_iff {x : Binary64} :
    IsLineText (resultText x) ↔ x.isFinite = true := by
  constructor
  · intro h
    by_contra hx
    exact absurd (h 'n' (mem_resultText_of_not_isFinite hx)) (by decide)
  · intro hx
    exact isLineText_of_isSigned (isFiniteLiteral_resultText_iff.2 hx).isSigned

/-! ### Percents -/

theorem isFinite_percent (v : Binary64) : (v / hundred).isFinite = v.isFinite := by
  obtain ⟨r, h, hr, hhundred⟩ := Binary64.exists_ofInt (n := 100) (by decide)
  refine Binary64.isFinite_div ?_
  rw [hundred, ← Nat.cast_ofNat, hhundred, Binary64.magnitude, hr]
  exact Nat.le_mul_of_pos_left _ (by decide)

/-- A percent of a number that is too large. -/
def Press.TakesOverflow (p : Press) : Prop := p.command = .percent ∧ Overflows p.before.operand

/-! ### What one press does -/

variable {s s' : State}

/-- The characters of the line, and those of the line that was evaluated, have a property. -/
structure WrittenIn (P : Char → Prop) (s : State) : Prop where
  line : ∀ c ∈ s.line, P c
  evaluated : ∀ c ∈ s.evaluatedLine, P c

section WrittenIn

variable {P : Char → Prop}

theorem writtenIn_empty : WrittenIn P .empty :=
  ⟨fun _ hc => absurd hc List.not_mem_nil, fun _ hc => absurd hc List.not_mem_nil⟩

theorem WrittenIn.operand (h : WrittenIn P s) (hs : Tidy s) : ∀ c ∈ s.operand, P c :=
  fun c hc => h.line c (hs.ends.subset hc)

theorem WrittenIn.append (h : WrittenIn P s) {t : Text} (ht : ∀ c ∈ t, P c) :
    ∀ c ∈ s.line ++ t, P c :=
  List.forall_mem_append.2 ⟨h.line, ht⟩

theorem WrittenIn.withOperand (h : WrittenIn P s) {front : Text}
    (hline : s.line = front ++ s.operand) {number : Text} (hnumber : ∀ c ∈ number, P c) :
    WrittenIn P (s.withOperand front number) := by
  have hfront : ∀ c ∈ front, P c := fun c hc =>
    h.line c (hline ▸ List.mem_append_left s.operand hc)
  exact ⟨List.forall_mem_append.2 ⟨hfront, hnumber⟩, h.evaluated⟩

/-- The value of a line is finite, so its text is without letters. -/
theorem WrittenIn.solved (h : WrittenIn P s) (hP : ∀ c, isLineChar c = true → P c)
    (hsolved : Solved s s') : WrittenIn P s' := by
  cases hsolved with
  | failed hv => exact ⟨h.line, h.line⟩
  | valued hv =>
    have hfinite := isFinite_of_roundPlaces (roundPlaces_of_evaluate hv)
    exact ⟨fun c hc => hP c (isLineText_resultText_iff.2 hfinite c hc), h.line⟩

/-- **A button writes the characters of lines, and a percent those of its result.** -/
theorem WrittenIn.of_change (h : WrittenIn P s) (hP : ∀ c, isLineChar c = true → P c)
    (hs : Tidy s) {c : Command} (hc : c.isPhrase = false)
    (hpercent : c = .percent → ∀ v, Binary64.ofText? s.operand = some v →
      ∀ d ∈ resultText (v / hundred), P d)
    (hchange : Change s c s') : WrittenIn P s' := by
  cases hchange with
  | refused => exact h
  | digit hd =>
    have hchar := isLineText_of_isSigned
      (List.forall_mem_singleton.2 (isSignedChar_of_isAsciiDigit hd))
    exact ⟨h.append fun c hc => hP c (hchar c hc), h.evaluated⟩
  | point => exact ⟨h.append (List.forall_mem_singleton.2 (hP '.' (by decide))), h.evaluated⟩
  | operator _ _ o =>
    exact ⟨h.append fun c hc => hP c (isLineText_operatorText o c hc), h.evaluated⟩
  | percent hline hv => exact h.withOperand hline (hpercent rfl _ hv)
  | sign hline =>
    exact h.withOperand hline (forall_mem_toggled (hP '-' (by decide)) (h.operand hs))
  | nothing => exact ⟨h.line, h.evaluated⟩
  | erased => exact ⟨fun c hc => h.line c ((eraseLast_isPrefix _ _).subset hc), h.evaluated⟩
  | restored => exact ⟨h.evaluated, h.evaluated⟩
  | clear => exact writtenIn_empty
  | equals _ hsolved => exact h.solved hP hsolved
  | phrase => cases hc

end WrittenIn

/-- There is no letter on the line, and none on the line that was evaluated. -/
structure Unlettered (s : State) : Prop where
  line : IsLineText s.line
  evaluated : IsLineText s.evaluatedLine

theorem unlettered_empty : Unlettered .empty := ⟨isLineText_nil, isLineText_nil⟩

theorem Unlettered.operand (h : Unlettered s) (hs : Tidy s) : IsLineText s.operand :=
  h.line.of_subset hs.ends.subset

theorem Unlettered.isSigned_operand (h : Unlettered s) (hs : Tidy s) : IsSigned s.operand :=
  isSigned_of_isLineText (h.operand hs) hs.operand

/-- **A button puts no letter on the line, unless it takes a percent of a number that is too
large.** -/
theorem Unlettered.of_change (h : Unlettered s) (hs : Tidy s) {c : Command}
    (hc : c.isPhrase = false) (htakes : ¬ Press.TakesOverflow ⟨s, c⟩) (hchange : Change s c s') :
    Unlettered s' := by
  have hpercent (hc : c = .percent) (v : Binary64) (hv : Binary64.ofText? s.operand = some v) :
      IsLineText (resultText (v / hundred)) := by
    have hfinite := (isFinite_iff_of_ofText? (h.isSigned_operand hs) hv).2 fun ho => htakes ⟨hc, ho⟩
    rw [← isFinite_percent] at hfinite
    exact isLineText_resultText_iff.2 hfinite
  have hwritten : WrittenIn (isLineChar · = true) s := ⟨h.line, h.evaluated⟩
  obtain ⟨hline, hevaluated⟩ := hwritten.of_change (fun _ hchar => hchar) hs hc hpercent hchange
  exact ⟨hline, hevaluated⟩

/-- **A percent of a number that is too large puts a letter on the line.** -/
theorem not_isLineText_of_overflows (h : Unlettered s) (hs : Tidy s) (ho : Overflows s.operand) :
    ¬ IsLineText (takePercent s).1.line := by
  obtain ⟨front, hline⟩ := hs.ends
  obtain ⟨v, hv, hinfinite⟩ := exists_ofText?_of_overflows (h.isSigned_operand hs) ho
  have hne : s.operand ≠ [] := by
    intro hnil
    rw [hnil] at hv
    cases hv
  rw [takePercent_of_some hline.symm hne hv]
  intro hletters
  rw [← isFinite_percent, ← isLineText_resultText_iff] at hinfinite
  exact hinfinite (hletters.of_subset (List.subset_append_right _ _))

/-- A percent that is accepted gives a finite number just if it is not of a number that is too
large. -/
theorem isFiniteLiteral_takePercent_iff (h : Unlettered s) (hs : Tidy s)
    (hsaid : Effect.speak "percent".toList ∈ (takePercent s).2) :
    IsFiniteLiteral (takePercent s).1.operand ↔ ¬ Overflows s.operand := by
  obtain ⟨front, hline⟩ := hs.ends
  by_cases hne : s.operand = []
  · rw [takePercent_of_eq_nil hne] at hsaid
    exact absurd hsaid List.not_mem_nil
  · rcases hv : Binary64.ofText? s.operand with - | v
    · rw [takePercent_of_none hv] at hsaid
      exact absurd hsaid List.not_mem_nil
    · rw [takePercent_of_some hline.symm hne hv,
        ← isFinite_iff_of_ofText? (h.isSigned_operand hs) hv, ← isFinite_percent]
      exact isFiniteLiteral_resultText_iff

/-! ### Runs -/

/-- As long as no percent of a number that is too large is taken, there is no letter. -/
theorem Run.unlettered {ps : List Press} (hs : Run ps s)
    (hps : ∀ p ∈ ps, p.command.isPhrase = false ∧ ¬ p.TakesOverflow) : Unlettered s := by
  refine hs.invariant unlettered_empty (fun {s _ _} htidy hbefore hallowed hchange => ?_) hps
  exact Unlettered.of_change (s := { s with failed := false }) ⟨hbefore.line, hbefore.evaluated⟩
    htidy.unfailed hallowed.1 hallowed.2 hchange

/-- There is never a letter on the line just if no percent is taken of a number that is too
large. -/
theorem Run.forall_isLineText_iff {ps : List Press} (hs : Run ps s)
    (hbuttons : ∀ p ∈ ps, p.command.isPhrase = false) :
    (∀ t ∈ visited s ps, IsLineText t.line ∧ IsLineText t.operand) ↔
      ∀ p ∈ ps, ¬ p.TakesOverflow := by
  induction hs with
  | start =>
    refine iff_of_true ?_ (fun p hp => absurd hp List.not_mem_nil)
    exact List.forall_mem_singleton.2 ⟨isLineText_nil, isLineText_nil⟩
  | @press ps s s' c learning effects hs h ih =>
    obtain ⟨hc, hbuttons⟩ := List.forall_mem_cons.1 hbuttons
    rw [visited_cons, List.forall_mem_cons, List.forall_mem_cons, ih hbuttons]
    refine and_congr_left fun hps => ?_
    have hbefore := hs.unlettered fun p hp => ⟨hbuttons p hp, hps p hp⟩
    constructor
    · rintro ⟨hline, -⟩ ⟨rfl, ho⟩
      obtain ⟨o, hact, rfl, -⟩ := exists_act_of_press h
      cases hact
      exact not_isLineText_of_overflows (s := { s with failed := false })
        ⟨hbefore.line, hbefore.evaluated⟩ hs.reached.tidy.unfailed ho hline
    · intro htakes
      have hrun := hs.press h
      have hafter := hrun.unlettered <|
        List.forall_mem_cons.2 ⟨⟨hc, htakes⟩, fun p hp => ⟨hbuttons p hp, hps p hp⟩⟩
      exact ⟨hafter.line, hafter.operand hrun.reached.tidy⟩

/-- **Buttons put no letter on the line just if no percent is taken of a number that is too large
for a finite one**, and until then a percent that is accepted gives a plain numeral, perhaps after a
sign, that is read as a finite number, just if it is not of such a number itself. -/
theorem isLineText_iff_of_run {ps : List Press} (hs : Run ps s)
    (hbuttons : ∀ p ∈ ps, p.command.isPhrase = false) :
    ((∀ t ∈ visited s ps, IsLineText t.line ∧ IsLineText t.operand) ↔
        ∀ p ∈ ps, ¬ p.TakesOverflow) ∧
      ((∀ p ∈ ps, ¬ p.TakesOverflow) →
        ∀ learning s' effects, press learning s .percent = .ok (s', effects) →
          .speak "percent".toList ∈ effects →
          (IsFiniteLiteral s'.operand ↔ ¬ Overflows s.operand)) := by
  refine ⟨hs.forall_isLineText_iff hbuttons, fun hps learning s' effects h hsaid => ?_⟩
  have hletters := hs.unlettered fun p hp => ⟨hbuttons p hp, hps p hp⟩
  obtain ⟨o, hact, rfl, rfl⟩ := exists_act_of_press h
  cases hact
  have hspoken := List.mem_filter (p := Effect.isSpoken) |>.2 ⟨hsaid, rfl⟩
  rw [filter_isSpoken_press] at hspoken
  exact isFiniteLiteral_takePercent_iff (s := { s with failed := false })
    ⟨hletters.line, hletters.evaluated⟩ hs.reached.tidy.unfailed (List.mem_filter.1 hspoken).1

/-- A short number is not too large. -/
theorem isLineText_fifty_six :
    Run fiftySixPresses fiftySix ∧ (∀ p ∈ fiftySixPresses, p.command.isPhrase = false) ∧
      (∀ t ∈ visited fiftySix fiftySixPresses, IsLineText t.line ∧ IsLineText t.operand) ∧
      press false fiftySix .percent =
        .ok (⟨"50.06".toList, "0.06".toList, false, [], false⟩,
          [.vibrate, .display "50.06".toList, .speak "percent".toList]) ∧
      IsFiniteLiteral "0.06".toList := by
  have hbuttons : ∀ p ∈ fiftySixPresses, p.command.isPhrase = false := by decide
  have htakes : ∀ p ∈ fiftySixPresses, ¬ p.TakesOverflow := by
    simp only [fiftySixPresses, List.forall_mem_cons]
    refine ⟨?_, ?_, ?_, ?_, fun p hp => absurd hp List.not_mem_nil⟩
    all_goals
      rintro ⟨hc, -⟩
      cases hc
  have hpercent : press false fiftySix .percent =
      .ok (⟨"50.06".toList, "0.06".toList, false, [], false⟩,
        [.vibrate, .display "50.06".toList, .speak "percent".toList]) := by decide +kernel
  obtain ⟨hletters, hfinite⟩ := isLineText_iff_of_run run_fiftySix hbuttons
  refine ⟨run_fiftySix, hbuttons, hletters.2 htakes, hpercent,
    (hfinite htakes _ _ _ hpercent (by decide)).2 ?_⟩
  have hsix : Binary64.ofText? ['6'] = some (.ofInt 6) := by decide +kernel
  have hsigned : IsSigned ['6'] := List.forall_mem_singleton.2 rfl
  exact (isFinite_iff_of_ofText? hsigned hsix).1 (by decide +kernel)

/-- Digits that are typed from the empty line on. -/
theorem exists_run_of_isDigits {t : Text} (ht : IsDigits t) :
    ∃ ps, Run ps ⟨t, t, false, [], false⟩ ∧ ∀ p ∈ ps, p.command.isPhrase = false := by
  induction t using List.reverseRecOn with
  | nil => exact ⟨[], .start, fun p hp => absurd hp List.not_mem_nil⟩
  | append_singleton t c ih =>
    obtain ⟨ps, hrun, hbuttons⟩ := ih ht.of_append_left
    have hc := ht c (List.mem_append_right _ (List.mem_singleton_self c))
    have hpress := press_of_act (s := ⟨t, t, false, [], false⟩) (act_digit false _ hc)
    exact ⟨_, hrun.press hpress, List.forall_mem_cons.2 ⟨rfl, hbuttons⟩⟩

/-- The digits of a number beyond all that are finite. -/
def hugeDigits : Text := '2' :: List.replicate 308 '0'

theorem isDigits_hugeDigits : IsDigits hugeDigits :=
  List.forall_mem_cons.2 ⟨rfl, isDigits_zeros 308⟩

/-- A percent of such a number is accepted and puts the name of an infinity on the line. -/
theorem exists_run_inf :
    ∃ ps s, Run ps s ∧ (∀ p ∈ ps, p.command.isPhrase = false) ∧ s.line = "inf".toList ∧
      s.operand = "inf".toList ∧ ¬ IsLineText s.line ∧ ¬ IsFiniteLiteral s.operand := by
  obtain ⟨ps, hrun, hbuttons⟩ := exists_run_of_isDigits isDigits_hugeDigits
  have hpercent : takePercent ⟨hugeDigits, hugeDigits, false, [], false⟩ =
      (⟨"inf".toList, "inf".toList, false, [], false⟩, [.speak "percent".toList]) := by
    decide +kernel
  have hact : act false ⟨hugeDigits, hugeDigits, false, [], false⟩ .percent =
      .ok (⟨"inf".toList, "inf".toList, false, [], false⟩, [.speak "percent".toList]) :=
    congrArg Except.ok hpercent
  refine ⟨_, _, hrun.press (press_of_act hact), List.forall_mem_cons.2 ⟨rfl, hbuttons⟩, rfl, rfl,
    fun h => ?_, fun h => ?_⟩
  · exact absurd (h 'n' (by decide)) (by decide)
  · exact absurd (h.isSigned 'n' (by decide)) (by decide)

end SpokenCalculator.Editor
