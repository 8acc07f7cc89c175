import Mathlib.Data.Bool.AllAny
import SpokenCalculator.Proofs.Editor.Letters

/-!
# What is said of an erased character

The digits, the point and the signs of the operations on the screen have names, and one of these
that is erased is announced by its name.  Where there is no name nothing but the erasing should be
announced, but then the character itself is spoken.  It can be the hyphen of a sign, or a letter of
the name of an infinity, which no button types.

* `charName?`, `announcement`: the names, and what should be said;
* `Erases`, `erases_eraseLast`: a line before and after a character was erased;
* `isWrittenChar`, `Run.writtenIn`: the characters that buttons bring on the line;
* `exists_press_backspace_of_run`: what a step back does;
* `said_eq_announcement_iff_of_run`: what is said of a step back in a run of buttons.
-/

namespace SpokenCalculator.Editor
open Text

/-! ### Names -/

/-- The characters with a name. -/
def charNames : List (Char × Text) :=
  [('0', "zero".toList), ('1', "one".toList), ('2', "two".toList), ('3', "three".toList),
   ('4', "four".toList), ('5', "five".toList), ('6', "six".toList), ('7', "seven".toList),
   ('8', "eight".toList), ('9', "nine".toList), ('.', "decimal point".toList),
   ('+', "plus".toList), ('−', "minus".toList), ('×', "multiply".toList), ('÷', "divide".toList)]

/-- The name of a character, if it has one. -/
def charName? (c : Char) : Option Text := (charNames.find? (·.1 == c)).map Prod.snd

/-- What should be said of an erased character: its name, if it has one. -/
def announcement (c : Char) : Text :=
  match charName? c with
  | some name => "deleted ".toList ++ name
  | none => "deleted".toList

/-- The character has a name. -/
def IsNamed (c : Char) : Prop := (charName? c).isSome = true

instance (c : Char) : Decidable (IsNamed c) := inferInstanceAs (Decidable (_ = true))

theorem isNamed_of_isAsciiDigit {c : Char} (hc : isAsciiDigit c = true) : IsNamed c :=
  of_isAsciiDigit (P := IsNamed) (by decide) hc

theorem isNamed_of_isGlyph {c : Char} (hc : isGlyph c = true) : IsNamed c := by
  simp only [isGlyph, Bool.or_eq_true, beq_iff_eq] at hc
  rcases hc with ((rfl | rfl) | rfl) | rfl <;> decide

/-- A character with a name is announced by it. -/
theorem erasedPhrase_of_isNamed {c : Char} (h : IsNamed c) : erasedPhrase c = announcement c := by
  have hnames : ∀ p ∈ charNames, erasedPhrase p.1 = announcement p.1 := by decide
  obtain ⟨name, hname⟩ := Option.isSome_iff_exists.1 h
  obtain ⟨p, hp, -⟩ := Option.map_eq_some_iff.1 hname
  have hc : p.1 = c := by simpa using List.find?_some hp
  rw [← hc]
  exact hnames p (List.mem_of_find?_eq_some hp)

/-- A character without a name is spoken itself. -/
theorem erasedPhrase_of_not_isNamed {c : Char} (h : ¬ IsNamed c) (hblank : isBlank c = false) :
    erasedPhrase c = "deleted ".toList ++ [c] ∧ announcement c = "deleted".toList := by
  have hnone : charName? c = none := by simpa [IsNamed] using h
  have hkeys : c ∉ charNames.map Prod.fst := by
    rintro hmem
    obtain ⟨p, hp, rfl⟩ := List.mem_map.1 hmem
    exact List.find?_eq_none.1 (Option.map_eq_none_iff.1 hnone) p hp (beq_self_eq_true p.1)
  have hname : charName c = [c] := by
    unfold charName
    split
    all_goals first
      | rfl
      | exact absurd (by decide) hkeys
  have htrim : trim [c] = [c] := by simp [trim, dropTail, hblank]
  refine ⟨?_, by rw [announcement, hnone]⟩
  rw [erasedPhrase, hname, htrim, if_neg (List.cons_ne_nil c [])]

/-! ### Erased characters -/

/-- The line loses a character, and with it the spaces after it and perhaps those before it. -/
def Erases (before : Text) (c : Char) (after : Text) : Prop :=
  c ≠ ' ' ∧ ∃ inner outer : Text, (∀ d ∈ inner, d = ' ') ∧ (∀ d ∈ outer, d = ' ') ∧
    before = after ++ inner ++ c :: outer

theorem exists_eq_dropTail_space (t : Text) :
    ∃ tail : Text, (∀ d ∈ tail, d = ' ') ∧ t = dropTail (· == ' ') t ++ tail := by
  obtain ⟨tail, htail, heq⟩ := exists_eq_dropTail_append (· == ' ') t
  exact ⟨tail, fun d hd => beq_iff_eq.1 (htail d hd), heq⟩

theorem erases_eraseLast {line : Text} {c : Char}
    (hc : (dropTail (· == ' ') line).getLast? = some c) : Erases line c (eraseLast line c) := by
  obtain ⟨rest, hrest⟩ := List.getLast?_eq_some_iff.1 hc
  have hspace : c ≠ ' ' := by
    have hne : dropTail (· == ' ') line ≠ [] := by
      intro hnil
      rw [hnil] at hc
      cases hc
    rw [List.getLast?_eq_some_getLast hne] at hc
    rw [← Option.some.inj hc]
    exact beq_eq_false_iff_ne.1 (getLast_dropTail (· == ' ') hne)
  obtain ⟨outer, houter, hline⟩ := exists_eq_dropTail_space line
  rw [hrest, List.append_assoc] at hline
  unfold eraseLast
  rw [hrest, List.dropLast_concat]
  split_ifs
  · obtain ⟨inner, hinner, hbefore⟩ := exists_eq_dropTail_space rest
    exact ⟨hspace, inner, outer, hinner, houter, by rw [← hbefore]; exact hline⟩
  · exact ⟨hspace, [], outer, fun d hd => absurd hd List.not_mem_nil, houter,
      by rw [List.append_nil]; exact hline⟩

/-! ### Characters on the line -/

/-- A character that buttons bring on the line: one of a number or an operation, or a letter of the
name of an infinity. -/
def isWrittenChar (c : Char) : Bool := isLineChar c || "inf".toList.contains c

theorem isWrittenChar_of_isLineChar {c : Char} (hc : isLineChar c = true) :
    isWrittenChar c = true := by
  rw [isWrittenChar, hc, Bool.true_or]

/-- A percent is written without other letters, unless it is not-a-number. -/
theorem isWrittenChar_of_mem_percent {v : Binary64} (hv : v ≠ .nan) {c : Char}
    (hc : c ∈ resultText (v / hundred)) : isWrittenChar c = true := by
  by_cases hfinite : v.isFinite = true
  · rw [← isFinite_percent] at hfinite
    exact isWrittenChar_of_isLineChar (isLineText_resultText_iff.2 hfinite c hc)
  · have hinfinite (s : Bool) : ∀ d ∈ resultText (.infinite s / hundred), isWrittenChar d = true :=
      List.all_eq_true.1 (by cases s <;> decide +kernel)
    cases v with
    | nan => exact absurd rfl hv
    | infinite s => exact hinfinite s c hc
    | finite => exact absurd rfl hfinite

/-- A number of such characters is not read as not-a-number. -/
theorem ofText?_ne_nan_of_isWrittenChar {t : Text} (hwritten : ∀ c ∈ t, isWrittenChar c = true)
    (hoperand : IsOperandText t) : Binary64.ofText? t ≠ some .nan := by
  have hchar : ∀ c ∈ t, c.toNat < 0x80 ∧ c.toLower ≠ 'a' := by
    intro c hc
    have hwritten := hwritten c hc
    rw [isWrittenChar, Bool.or_eq_true] at hwritten
    rcases hwritten with hline | hletter
    · have hsigned := isSigned_of_isLineText (List.forall_mem_singleton.2 hline)
        (isOperandText_singleton (hoperand c hc)) c (List.mem_singleton_self c)
      rw [toLower_of_isSignedChar hsigned]
      exact ⟨(toNat_of_isSignedChar hsigned).2.trans_lt (by decide),
        ne_of_isSignedChar hsigned (by decide)⟩
    · have hletters : ∀ c ∈ "inf".toList, c.toNat < 0x80 ∧ c.toLower ≠ 'a' :=
        List.all_iff_forall_prop.1 (by decide)
      exact hletters c (List.contains_iff_mem.1 hletter)
  exact ofText?_ne_nan (fun c hc => (hchar c hc).1) (fun c hc => (hchar c hc).2)

variable {s : State}

/-- **Buttons bring no other characters on the line.** -/
theorem Run.writtenIn {ps : List Press} (hs : Run ps s)
    (hbuttons : ∀ p ∈ ps, p.command.isPhrase = false) : WrittenIn (isWrittenChar · = true) s := by
  refine hs.invariant writtenIn_empty (fun {s _ _} htidy hbefore hc hchange => ?_) hbuttons
  have hunfailed : WrittenIn (isWrittenChar · = true) { s with failed := false } :=
    ⟨hbefore.line, hbefore.evaluated⟩
  refine hunfailed.of_change (fun _ => isWrittenChar_of_isLineChar) htidy.unfailed hc ?_ hchange
  rintro - v hv d hd
  refine isWrittenChar_of_mem_percent ?_ hd
  rintro rfl
  exact ofText?_ne_nan_of_isWrittenChar (hbefore.operand htidy) htidy.operand hv

/-- The only such characters without a name are the hyphen and the letters. -/
theorem mem_of_not_isNamed {c : Char} (hc : isWrittenChar c = true) (hspace : c ≠ ' ')
    (hname : ¬ IsNamed c) : c ∈ "-inf".toList := by
  simp only [isWrittenChar, isLineChar, isSignedChar, Token.isNumeralChar, Bool.or_eq_true,
    beq_iff_eq, List.contains_iff_mem] at hc
  rcases hc with ((((hdigit | rfl) | rfl) | rfl) | hglyph) | hletter
  · exact absurd (isNamed_of_isAsciiDigit hdigit) hname
  · exact absurd (by decide) hname
  · decide
  · exact absurd rfl hspace
  · exact absurd (isNamed_of_isGlyph hglyph) hname
  · exact List.mem_cons_of_mem _ hletter

/-! ### Steps back -/

/-- A step back leaves the line, brings back the one that was evaluated, or erases a character. -/
theorem exists_press_backspace_of_run {ps : List Press} (hs : Run ps s) (learning : Bool) :
    ∃ s' effects, press learning s .backspace = .ok (s', effects) ∧
      (s'.line = s.line ∨ .speak "restored".toList ∈ effects ∨
        ∃ c, (dropTail (· == ' ') s.line).getLast? = some c ∧ s'.line = eraseLast s.line c ∧
          effects.filter Effect.isSpoken = [.speak (erasedPhrase c)]) := by
  cases he : s.evaluated with
  | true =>
    have hpress := press_backspace_of_evaluated learning he (hs.keeps.evaluated he).1
    exact ⟨_, _, hpress, Or.inr (Or.inl (by simp))⟩
  | false =>
    have hstep : act learning { s with failed := false } .backspace =
        erase { s with failed := false } := by
      show stepBack _ = _
      rw [stepBack, if_neg (by rw [he]; decide)]
    by_cases hnil : s.line = []
    · have hact : act learning { s with failed := false } .backspace =
          .ok ({ s with failed := false }, []) := hstep.trans (if_pos hnil)
      exact ⟨_, _, press_of_act hact, Or.inl rfl⟩
    · obtain ⟨c, hc⟩ : ∃ c, (dropTail (· == ' ') s.line).getLast? = some c :=
        ⟨_, List.getLast?_eq_some_getLast (hs.reached.tidy.begins.dropTail_ne_nil hnil)⟩
      have hact : act learning { s with failed := false } .backspace =
          .ok ({ s with
            line := eraseLast s.line c, operand := s.operand.dropLast, failed := false },
            [.speak (erasedPhrase c)]) := by
        rw [hstep, erase, if_neg hnil]
        simp only [hc]
      exact ⟨_, _, press_of_act hact, Or.inr (Or.inr ⟨c, hc, rfl, filter_isSpoken_press ..⟩)⟩

/-- **A step back that erases says what it should just if the character has a name.**  Buttons bring
no characters without a name on the line but the hyphen of a sign and, after a percent of a number
that is too large, the letters of an infinity.  Each of these is spoken itself. -/
theorem said_eq_announcement_iff_of_run {ps : List Press} (hs : Run ps s)
    (hbuttons : ∀ p ∈ ps, p.command.isPhrase = false) (learning : Bool) :
    ∃ s' effects, press learning s .backspace = .ok (s', effects) ∧
      (s'.line ≠ s.line → .speak "restored".toList ∉ effects →
        ∃ c said, Erases s.line c s'.line ∧
          effects.filter Effect.isSpoken = [.speak said] ∧
          (said = announcement c ↔ IsNamed c) ∧
          (¬ IsNamed c → said = "deleted ".toList ++ [c] ∧ announcement c = "deleted".toList ∧
            c ∈ "-inf".toList ∧ (c = '-' ∨ ∃ p ∈ ps, p.TakesOverflow))) := by
  obtain ⟨s', effects, hpress, hcases⟩ := exists_press_backspace_of_run hs learning
  refine ⟨s', effects, hpress, fun hline hrestored => ?_⟩
  obtain ⟨c, hc, herased, hsaid⟩ := (hcases.resolve_left hline).resolve_left hrestored
  have herases := erases_eraseLast hc
  have hmem : c ∈ s.line :=
    (dropTail_isPrefix (· == ' ') s.line).subset (List.mem_of_mem_getLast? hc)
  refine ⟨c, erasedPhrase c, herased ▸ herases, hsaid, ?_⟩
  by_cases hname : IsNamed c
  · exact ⟨iff_of_true (erasedPhrase_of_isNamed hname) hname, fun h => absurd hname h⟩
  · have hletter := mem_of_not_isNamed ((hs.writtenIn hbuttons).line c hmem) herases.1 hname
    have hblank : ∀ c ∈ "-inf".toList, isBlank c = false := List.all_iff_forall_prop.1 (by decide)
    obtain ⟨hspoken, hannouncement⟩ := erasedPhrase_of_not_isNamed hname (hblank c hletter)
    have hhyphen : ∀ c ∈ "-inf".toList, isLineChar c = true → c = '-' :=
      List.all_iff_forall_prop.1 (by decide)
    refine ⟨iff_of_false ?_ hname, fun _ => ⟨hspoken, hannouncement, hletter, ?_⟩⟩
    · rw [hspoken, hannouncement]
      exact fun h => absurd (congrArg List.length h) (by simp)
    · by_contra! hno
      have hletters := hs.unlettered fun p hp => ⟨hbuttons p hp, hno.2 p hp⟩
      exact hno.1 (hhyphen c hletter (hletters.line c hmem))

/-- A digit that is erased is announced by its name. -/
theorem said_eq_announcement_fifty_six :
    Run fiftySixPresses fiftySix ∧ (∀ p ∈ fiftySixPresses, p.command.isPhrase = false) ∧
      press false fiftySix .backspace = .ok (⟨['5'], [], false, [], false⟩,
        [.vibrate, .display ['5'], .speak "deleted six".toList]) ∧
      ∃ c, Erases "56".toList c ['5'] ∧ ("deleted six".toList = announcement c ↔ IsNamed c) := by
  have hbuttons : ∀ p ∈ fiftySixPresses, p.command.isPhrase = false := by decide
  obtain ⟨s', effects, hpress, hsaid⟩ :=
    said_eq_announcement_iff_of_run run_fiftySix hbuttons false
  refine ⟨run_fiftySix, hbuttons, rfl, ?_⟩
  obtain ⟨rfl, rfl⟩ : s' = ⟨['5'], [], false, [], false⟩ ∧
      effects = [.vibrate, .display ['5'], .speak "deleted six".toList] :=
    Prod.ext_iff.1 (Except.ok.inj hpress.symm)
  obtain ⟨c, said, herases, hspoken, hname, -⟩ := hsaid (by decide) (by decide)
  obtain rfl : said = "deleted six".toList := Effect.speak.inj (List.cons.inj hspoken.symm).1
  exact ⟨c, herases, hname⟩

/-- The hyphen of a sign is left when its number is erased, and it is spoken when it is erased
itself. -/
theorem said_ne_announcement_hyphen :
    ∃ ps s, Run ps s ∧ (∀ p ∈ ps, p.command.isPhrase = false) ∧ s.line = ['-'] ∧
      press false s .backspace =
        .ok (.empty, [.vibrate, .display ['0'], .speak "deleted -".toList]) ∧
      Erases ['-'] '-' [] ∧ ¬ IsNamed '-' ∧ announcement '-' = "deleted".toList := by
  have h1 : Run [⟨.empty, .digit ['5']⟩] ⟨['5'], ['5'], false, [], false⟩ :=
    @Run.press _ _ _ (.digit ['5']) false _ .start rfl
  have h2 := @Run.press _ _ ⟨"-5".toList, "-5".toList, false, [], false⟩ .sign false _ h1 rfl
  have h3 := @Run.press _ _ ⟨['-'], ['-'], false, [], false⟩ .backspace false _ h2 rfl
  have hnone : ∀ d ∈ ([] : Text), d = ' ' := fun d hd => absurd hd List.not_mem_nil
  exact ⟨_, _, h3, by decide, rfl, rfl, ⟨by decide, [], [], hnone, hnone, rfl⟩, by decide,
    by decide⟩

end SpokenCalculator.Editor
