import SpokenCalculator.Proofs.Session.Keys

/-!
# Keys that are answered

A key of the console should work or be reported as unknown.  It is reported if there is no button
for it.  A digit of another script than that of the keyboard is a button, and nothing is typed by
it: it is neither typed nor reported.  No other key is lost in this way.

* `IsWorking`, `IsReported`, `IsAnswered`: a key that works, one that is reported, and either;
* `exists_executeAll_of_isQuiet`: no notice is printed for what is felt or shown;
* `isAnswered_iff`: the keys that are answered;
* `isAnswered_iff_of_course`: digits on any line, and keys in the course of a session.
-/

namespace SpokenCalculator.Session
open Text Console Speech
open Editor (Tidy Types Effect)

/-- The key is a button, which is carried out and does something at least on some lines.  If it is a
digit it is typed. -/
def IsWorking (s : Session) (k : Char) : Prop :=
  ∃ c s' effects, Editor.buttonCommand? (keySymbol [k]) = some c ∧ ¬ c.IsIdle ∧
    s.key [k] = (s', .ok (some effects)) ∧
    (isDigit k = true → Types s.editor [k] (s'.editor, effects))

/-- All that comes of the key is a notice that it is unknown. -/
def IsReported (s : Session) (k : Char) : Prop := s.keys [k] = (s.notify (unknownKey k), .ok ())

/-- The key works or is reported. -/
def IsAnswered (s : Session) (k : Char) : Prop := s.IsWorking k ∨ s.IsReported k

variable {s : Session}

/-! ### Digits of other scripts -/

theorem buttonCommand?_keySymbol_of_isDigit {k : Char} (hk : isDigit k = true) :
    Editor.buttonCommand? (keySymbol [k]) = some (.digit [k]) := by
  have hne {l : Char} (hl : isDigit l = false) : [k] ≠ [l] := by
    rintro ⟨rfl⟩
    exact absurd hk (by rw [hl]; decide)
  rw [keySymbol, if_neg (hne (by decide)), if_neg (hne (by decide)), if_neg (hne (by decide)),
    if_neg (hne (by decide)), Editor.buttonCommand?, if_pos hk]

/-- The effect is felt or shown. -/
def IsQuiet (e : Effect) : Prop := e = .vibrate ∨ ∃ t, e = .display t

theorem isQuiet_of_mem_shown {before after : Editor.State} {e : Effect}
    (he : e ∈ Editor.shown before after) : IsQuiet e := by
  unfold Editor.shown at he
  split_ifs at he
  · exact absurd he List.not_mem_nil
  · exact Or.inr ⟨_, List.mem_singleton.1 he⟩

theorem exists_execute_of_isQuiet {e : Effect} (he : IsQuiet e) (s : Session) :
    ∃ s' more, s.execute e = (s', .ok ()) ∧ s'.events = s.events ++ more ∧
      ∀ t, Event.line (noticeLine t) ∉ more := by
  rcases he with rfl | ⟨shown, rfl⟩
  · rw [execute, vibrate]
    split_ifs
    · exact ⟨_, [.print .bell], rfl, rfl, fun t ht => by cases List.mem_singleton.1 ht⟩
    · exact ⟨_, [], rfl, (List.append_nil _).symm, fun t => List.not_mem_nil⟩
  · refine ⟨_, [.line (displayLine shown)], rfl, rfl, fun t ht => ?_⟩
    cases List.mem_singleton.1 ht

/-- No notice is printed for what is felt or shown, and nothing is written. -/
theorem exists_executeAll_of_isQuiet {es : List Effect} (hes : ∀ e ∈ es, IsQuiet e)
    (s : Session) :
    ∃ s' more, s.executeAll es = (s', .ok ()) ∧ s'.events = s.events ++ more ∧
      ∀ t, Event.line (noticeLine t) ∉ more := by
  induction es generalizing s with
  | nil => exact ⟨s, [], rfl, (List.append_nil _).symm, fun t => List.not_mem_nil⟩
  | cons e es ih =>
    obtain ⟨he, hes⟩ := List.forall_mem_cons.1 hes
    obtain ⟨s₁, first, hfirst, hevents, hnone⟩ := exists_execute_of_isQuiet he s
    obtain ⟨s', rest, hrest, hevents', hnone'⟩ := ih hes s₁
    refine ⟨s', first ++ rest, ?_, ?_, fun t ht => (List.mem_append.1 ht).elim (hnone t) (hnone' t)⟩
    · rw [executeAll, hfirst]
      exact hrest
    · rw [hevents', hevents, List.append_assoc]

/-- A digit of another script is a button that does nothing. -/
theorem not_isAnswered_of_not_isAsciiDigit {k : Char} (hk : isDigit k = true)
    (hforeign : ¬ isAsciiDigit k = true) : ¬ s.IsAnswered k := by
  have hbutton := buttonCommand?_keySymbol_of_isDigit hk
  rintro (⟨c, s', effects, hc, hidle, -⟩ | hreported)
  · cases hbutton.symm.trans hc
    exact hidle ((Editor.isIdle_digit_iff k).2 hforeign)
  · let effects := Effect.vibrate :: Editor.shown s.editor { s.editor with failed := false }
    have hquiet : ∀ e ∈ effects, IsQuiet e :=
      List.forall_mem_cons.2 ⟨Or.inl rfl, fun e he => isQuiet_of_mem_shown he⟩
    obtain ⟨s', more, hall, hevents, hnone⟩ := exists_executeAll_of_isQuiet hquiet
      { s with editor := { s.editor with failed := false } }
    have hkey : s.key [k] = (s', .ok (some effects)) := by
      rw [key_of_buttonCommand? s hbutton, handle_of_press
        (Editor.press_digit_of_not_isAsciiDigit s.settings.learning s.editor hforeign), hall]
      rfl
    rw [IsReported, keys, hkey] at hreported
    have hnotice : more = [Event.line (noticeLine (unknownKey k))] :=
      List.append_cancel_left (hevents.symm.trans (congrArg (fun r => r.1.events) hreported))
    rw [hnotice] at hnone
    exact hnone _ (List.mem_singleton_self _)

/-! ### All keys -/

theorem editor_executeAll (s : Session) (es : List Effect) :
    (s.executeAll es).1.editor = s.editor := by
  induction es generalizing s with
  | nil => rfl
  | cons e es ih =>
    have he : (s.execute e).1.editor = s.editor :=
      (congrArg Calculation.editor (s.calculation_execute e)).trans
        (s.calculation.editor_execute e)
    rw [executeAll, ← he]
    rcases s.execute e with ⟨s', e' | _⟩
    · rfl
    · exact ih s'

/-- A button works unless a document breaks off, if it does something at all and types what is a
digit. -/
theorem isWorking_of_not_isBroken (hs : Tidy s.editor) {k : Char} {c : Editor.Command}
    (hc : Editor.buttonCommand? (keySymbol [k]) = some c) (hidle : ¬ c.IsIdle)
    (hbroken : ¬ (s.key [k]).IsBroken)
    (htypes : isDigit k = true → ∀ o, Editor.press s.settings.learning s.editor c = .ok o →
      Types s.editor [k] o) : s.IsWorking k := by
  rcases key_cases hs [k] with ⟨hnone, -⟩ | ⟨c', o, hc', hpress, hstate, hresult⟩
  · cases hnone.symm.trans hc
  · cases hc'.symm.trans hc
    have heditor : (s.key [k]).1.editor = o.1 := by
      rw [hstate, editor_executeAll]
    refine ⟨c, (s.key [k]).1, o.2, hc, hidle,
      Prod.ext rfl (hresult.resolve_right hbroken), fun hk => ?_⟩
    rw [heditor]
    exact htypes hk o hpress

theorem isWorking_of_isAsciiDigit (hs : Tidy s.editor) {k : Char} (hk : isDigit k = true)
    (hascii : isAsciiDigit k = true) (hbroken : ¬ (s.key [k]).IsBroken) : s.IsWorking k := by
  refine isWorking_of_not_isBroken hs (buttonCommand?_keySymbol_of_isDigit hk)
    (fun hidle => (Editor.isIdle_digit_iff k).1 hidle hascii) hbroken fun _ o ho => ?_
  obtain ⟨o', hpress, htypes⟩ :=
    Editor.press_digit_of_isAsciiDigit s.settings.learning s.editor hascii
  cases ho.symm.trans hpress
  exact htypes

/-- A key that is no digit works if it is a button and is reported otherwise. -/
theorem isAnswered_of_not_isDigit (hs : Tidy s.editor) {k : Char} (hk : ¬ isDigit k = true)
    (hbroken : ¬ (s.key [k]).IsBroken) : s.IsAnswered k := by
  rcases hbutton : Editor.buttonCommand? (keySymbol [k]) with - | c
  · right
    rw [IsReported, keys, key_of_none s hbutton]
    rfl
  · refine Or.inl (isWorking_of_not_isBroken hs hbutton ?_ hbroken fun h => absurd h hk)
    rcases Editor.buttonCommand?_cases hbutton with ⟨d, hd, hsymbol, -⟩ | hmem
    · -- the symbols of keys that are letters are no digits
      unfold keySymbol at hsymbol
      split_ifs at hsymbol <;> cases hsymbol
      · exact absurd hd (by decide)
      · exact absurd hd (by decide)
      · exact absurd hd hk
    · exact Editor.not_isIdle_of_mem_buttons hmem

/-- **A key is answered unless it is a digit of another script than that of the keyboard.** -/
theorem isAnswered_iff (hs : Tidy s.editor) {k : Char} (hbroken : ¬ (s.key [k]).IsBroken) :
    s.IsAnswered k ↔ (isDigit k = true → isAsciiDigit k = true) := by
  constructor
  · intro hanswered hk
    by_contra hforeign
    exact not_isAnswered_of_not_isAsciiDigit hk hforeign hanswered
  · intro h
    by_cases hk : isDigit k = true
    · exact Or.inl (isWorking_of_isAsciiDigit hs hk (h hk) hbroken)
    · exact isAnswered_of_not_isDigit hs hk hbroken

/-- **Digits are typed and keys are answered just if the digits are those of the keyboard.**  The
button of a digit types and speaks it on every line just if it is one of the keyboard.  In the
course of a session the keys of a line are pressed to the last one, unless a document breaks off
where it is written, and each that is reached is answered, by working or by a notice that it is
unknown, just if it is no digit of another script. -/
theorem isAnswered_iff_of_course {s₀ : Session} {as : List Action} {rs : List Reply}
    (hs : s₀.IsNew) (h : Course s₀ as rs s) :
    (∀ d label, Editor.buttonCommand? [d] = some (.digit label) → ∀ learning e,
        (∃ o, Editor.press learning e (.digit label) = .ok o ∧ Types e [d] o) ↔
          isAsciiDigit d = true) ∧
      ∀ t ks, Request.ofLine t = .keys ks →
        ((s.line t).2 = .ok true ∨ (s.line t).IsBroken) ∧
        ∀ before k after, ks = before ++ k :: after →
          ((s.keys before).2 = .ok () ∨ (s.line t).IsBroken) ∧
          ∀ s', s.keys before = (s', .ok ()) → (s.line t).1 = (s'.keys (k :: after)).1 ∧
            (¬ (s'.key [k]).IsBroken →
              (s'.IsAnswered k ↔ (isDigit k = true → isAsciiDigit k = true))) := by
  refine ⟨fun d label hlabel learning e => ?_, fun t ks ht => ?_⟩
  · obtain ⟨d', -, hd, hdigit⟩ | hmem := Editor.buttonCommand?_cases hlabel
    · cases hd
      cases hdigit
      exact Editor.exists_types_iff learning e d
    · simp [Editor.buttons, Editor.operatorButton] at hmem
  · have htidy := h.tidy hs
    have hline : s.line t = ((s.keys ks).1, (s.keys ks).2.map fun _ => true) := by
      rw [line, ht, fulfil, Result.as]
    refine ⟨?_, ?_⟩
    · rw [hline]
      rcases keys_cases htidy ks with hok | ⟨e, he⟩
      · exact Or.inl (by rw [hok]; rfl)
      · exact Or.inr ⟨e, by rw [he]; rfl⟩
    · rintro before k after rfl
      rw [hline, keys_append]
      refine ⟨?_, fun s' hbefore => ?_⟩
      · rcases keys_cases htidy before with hok | ⟨e, he⟩
        · exact Or.inl hok
        · refine Or.inr ⟨e, ?_⟩
          rw [show s.keys before = ((s.keys before).1, .error (.write e)) from Prod.ext rfl he]
          rfl
      · rw [hbefore]
        refine ⟨rfl, isAnswered_iff ?_⟩
        have hafter := tidy_keys htidy before
        rw [hbefore] at hafter
        exact hafter

/-- A digit and a letter in a new session: the one is typed and the other is reported. -/
theorem isAnswered_seven_z :
    ∃ s', (begin .sound .shell .initial).keys ['7'] = (s', .ok ()) ∧
      (begin .sound .shell .initial).IsAnswered '7' ∧ s'.IsAnswered 'z' ∧
      s'.editor.line = ['7'] ∧ ((begin .sound .shell .initial).line "7z".toList).2 = .ok true ∧
      ((begin .sound .shell .initial).line "7z".toList).1.screen.notice =
        "Tecla desconocida: z".toList := by
  obtain ⟨-, hlines⟩ := isAnswered_iff_of_course (isNew_begin .sound .shell .initial) .start
  have hkeys : Request.ofLine "7z".toList = .keys "7z".toList := by decide +kernel
  obtain ⟨-, hanswered⟩ := hlines _ _ hkeys
  obtain ⟨-, hseven⟩ := hanswered [] '7' ['z'] rfl
  obtain ⟨-, hz⟩ := hanswered ['7'] 'z' [] rfl
  have hunbroken : ¬ ((begin .sound .shell .initial).key ['7']).IsBroken := by
    have hkey : ((begin .sound .shell .initial).key ['7']).2.isOk = true := by decide +kernel
    rintro ⟨e, he⟩
    rw [he] at hkey
    cases hkey
  have hbefore : (begin .sound .shell .initial).keys ['7'] =
      (((begin .sound .shell .initial).keys ['7']).1, .ok ()) := by
    refine Prod.ext rfl ?_
    decide +kernel
  have hnone : Editor.buttonCommand? (keySymbol ['z']) = none := by decide +kernel
  refine ⟨_, hbefore, ((hseven _ rfl).2 hunbroken).2 fun _ => rfl,
    ((hz _ hbefore).2 ?_).2 fun h => absurd h (by decide), ?_, ?_, ?_⟩
  · rw [key_of_none _ hnone]
    rintro ⟨e, he⟩
    cases he
  · decide +kernel
  · decide +kernel
  · decide +kernel

/-- A raised two is the button of a digit, is not typed and is not reported. -/
theorem not_isAnswered_raised_two :
    Editor.buttonCommand? ['²'] = some (.digit ['²']) ∧
      Editor.press false .empty (.digit ['²']) = .ok (.empty, [.vibrate]) ∧
      (¬ ∃ o, Editor.press false .empty (.digit ['²']) = .ok o ∧ Types .empty ['²'] o) ∧
      Request.ofLine ['²'] = .keys ['²'] ∧ ¬ (begin .sound .shell .initial).IsAnswered '²' := by
  have hdigit : isDigit '²' = true := by decide
  have hforeign : ¬ isAsciiDigit '²' = true := by decide
  refine ⟨buttonCommand?_keySymbol_of_isDigit hdigit, by decide, ?_, by decide +kernel,
    not_isAnswered_of_not_isAsciiDigit hdigit hforeign⟩
  rw [Editor.exists_types_iff]
  exact hforeign

end SpokenCalculator.Session
