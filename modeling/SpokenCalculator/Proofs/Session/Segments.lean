import Mathlib.Data.Bool.AllAny
import SpokenCalculator.Proofs.Phrase.Reading
import SpokenCalculator.Proofs.Session.Keys

/-!
# Keys on one line and on several

A line is looked at for a request before its characters are taken for keys.  No request but one for
keys can be made of the keys of the console alone, however they are cut into lines; and of keys, the
blanks at the ends of a line and the case of letters do not count.  So the keys of several lines are
those of one line, and a session takes them one after another in either case.

* `IsKeyText`, `keysOf`: texts of keys and spaces, and the keys in them;
* `ofLine_of_isKeyText`: such a text asks for its keys;
* `Session.lines_of_isKeyText`: lines of keys up to an error, and `performAll_of_isKeyText`, all of
  them;
* `Session.lines_eq_line_of_isKeyText`: the same keys on one line and on several.
-/

namespace SpokenCalculator
open Text

/-! ### Texts of keys -/

/-- The keys of the console, letters in either case, and the space. -/
def keyChars : Text := "0123456789.+-*/xX%=nNbBcC ".toList

/-- There is nothing but keys and spaces in the text. -/
def IsKeyText (t : Text) : Prop := ∀ c ∈ t, c ∈ keyChars

instance (t : Text) : Decidable (IsKeyText t) := List.decidableBAll (· ∈ keyChars) t

/-- The keys in a text. -/
def keysOf (t : Text) : Text := without ' ' (t.map Char.toLower)

theorem keysOf_append (a b : Text) : keysOf (a ++ b) = keysOf a ++ keysOf b := by
  rw [keysOf, List.map_append, without, List.filter_append]
  rfl

theorem IsKeyText.lower_eq {t : Text} (ht : IsKeyText t) : lower t = t.map Char.toLower := by
  have hascii : ∀ c ∈ keyChars, c.toNat < 128 := List.all_iff_forall_prop.1 (by decide)
  exact Phrase.lower_of_ascii fun c hc => hascii c (ht c hc)

theorem IsKeyText.isSpaced {t : Text} (ht : IsKeyText t) : Phrase.IsSpaced t := by
  have hspace : ∀ c ∈ keyChars, isBlank c = true → c = ' ' :=
    List.all_iff_forall_prop.1 (by decide)
  exact fun c hc => hspace c (ht c hc)

theorem IsKeyText.trim {t : Text} (ht : IsKeyText t) : IsKeyText (trim t) := by
  obtain ⟨before, after, -, -, heq⟩ := exists_eq_append_trim t
  intro c hc
  refine ht c ?_
  rw [heq]
  exact List.mem_append_right _ (List.mem_append_left _ hc)

/-! ### Requests -/

/-- A text asks for keys unless it has a letter of another request. -/
theorem ofLine_of_notMem {t : Text} (ht : ∀ c ∈ "qhvtls".toList, c ∉ lower (trim t)) :
    Request.ofLine t = .keys (without ' ' (lower (trim t))) := by
  have hne {u : Text} (hu : ∃ c ∈ "qhvtls".toList, c ∈ u) : lower (trim t) ≠ u := by
    rintro rfl
    obtain ⟨c, hc, hmem⟩ := hu
    exact ht c hc hmem
  have hphrase : ¬ (lower (trim t) = Request.phraseWord ∨
      (Request.phraseWord ++ [' ']).isPrefixOf (lower (trim t)) = true) := by
    rintro (h | h)
    · exact hne ⟨'s', by decide, by decide⟩ h
    · exact ht 's' (by decide) ((List.isPrefixOf_iff_prefix.1 h).subset (by decide))
  rw [Request.ofLine]
  simp only [if_neg (hne ⟨'q', by decide, List.mem_singleton_self _⟩),
    if_neg (hne ⟨'h', by decide, List.mem_singleton_self _⟩),
    if_neg (hne (u := ['h', 'c']) ⟨'h', by decide, by decide⟩),
    if_neg (hne ⟨'v', by decide, List.mem_singleton_self _⟩),
    if_neg (hne ⟨'t', by decide, List.mem_singleton_self _⟩),
    if_neg (hne ⟨'l', by decide, List.mem_singleton_self _⟩), if_neg hphrase]

/-- **A text of keys asks for its keys.** -/
theorem ofLine_of_isKeyText {t : Text} (ht : IsKeyText t) :
    Request.ofLine t = .keys (keysOf t) := by
  have hletters : ∀ c ∈ "qhvtls".toList, c ∉ keyChars.map Char.toLower :=
    List.all_iff_forall_prop.1 (by decide)
  have hlower : lower (trim t) = (trim t).map Char.toLower := ht.trim.lower_eq
  have hkeys : Request.ofLine t = .keys (keysOf (trim t)) := by
    rw [keysOf, ← hlower]
    refine ofLine_of_notMem fun c hc hmem => ?_
    rw [hlower] at hmem
    exact hletters c hc (List.map_subset _ (fun d hd => ht.trim d hd) hmem)
  rw [hkeys, Phrase.eq_of_trim keysOf_append rfl ht.isSpaced]

namespace Session

/-! ### Lines of keys -/

theorem line_of_isKeyText (s : Session) {t : Text} (ht : IsKeyText t) :
    s.line t = ((s.keys (keysOf t)).1, (s.keys (keysOf t)).2.map fun _ => true) := by
  rw [line, ofLine_of_isKeyText ht, fulfil, Result.as]

/-- **Lines of keys are carried out as their keys one after another.** -/
theorem lines_of_isKeyText (s : Session) {ts : List Text} (hts : ∀ t ∈ ts, IsKeyText t) :
    s.lines false ts =
      ((s.keys (keysOf ts.flatten)).1, (s.keys (keysOf ts.flatten)).2.map fun _ => false) := by
  induction ts generalizing s with
  | nil => rfl
  | cons t rest ih =>
    obtain ⟨ht, hrest⟩ := List.forall_mem_cons.1 hts
    have hask : s.ask false = s := rfl
    rw [lines, hask, line_of_isKeyText s ht, List.flatten_cons, keysOf_append, keys_append]
    rcases s.keys (keysOf t) with ⟨s₁, e | _⟩
    · rfl
    · exact ih s₁ hrest

/-- Lines of keys that are entered one after another. -/
theorem performAll_of_isKeyText {s s' : Session} {ts : List Text}
    (hts : ∀ t ∈ ts, IsKeyText t) (hkeys : s.keys (keysOf ts.flatten) = (s', .ok ())) :
    s.performAll (ts.map .line) = s' := by
  induction ts generalizing s with
  | nil => exact congrArg Prod.fst hkeys
  | cons t rest ih =>
    obtain ⟨ht, hrest⟩ := List.forall_mem_cons.1 hts
    rw [List.flatten_cons, keysOf_append, keys_append] at hkeys
    rcases hfirst : s.keys (keysOf t) with ⟨s₁, e | _⟩ <;> rw [hfirst] at hkeys
    · cases hkeys
    · have hperform : (s.perform (.line t)).1 = s₁ := by
        rw [perform, line_of_isKeyText s ht, hfirst]
        rfl
      rw [List.map_cons, performAll_cons, hperform]
      exact ih hrest hkeys

/-- **The same keys on one line and on several.**  However a text of keys is cut into lines, these
leave the session as the text does on a line of its own: the line under edit, the history, the
screen, what was printed, the messages that wait and the preferences.  None of them ends the
session.  In the course of a session all of them are carried out, unless a document breaks off where
it is written; then the rest of the text on one line is lost. -/
theorem lines_eq_line_of_isKeyText (s : Session) {t : Text} (ht : IsKeyText t) {ts : List Text}
    (hcut : ts.flatten = t) :
    (s.lines false ts).1 = (s.line t).1 ∧
      (s.lines false ts).2 = (s.line t).2.map (fun _ => false) ∧
      ∀ s₀ as rs, s₀.IsNew → Course s₀ as rs s →
        ((s.line t).2 = .ok true ∧ s.performAll (ts.map .line) = (s.perform (.line t)).1) ∨
          (s.perform (.line t)).2.IsBroken := by
  subst hcut
  have hts : ∀ t ∈ ts, IsKeyText t := fun t hmem c hc =>
    ht c (List.mem_flatten_of_mem hmem hc)
  have hline := line_of_isKeyText s ht
  refine ⟨?_, ?_, fun s₀ as rs hnew hcourse => ?_⟩
  · rw [lines_of_isKeyText s hts, hline]
  · rw [lines_of_isKeyText s hts, hline]
    cases (s.keys (keysOf ts.flatten)).2 <;> rfl
  · rcases keys_cases (hcourse.tidy hnew) (keysOf ts.flatten) with hok | ⟨e, he⟩
    · refine Or.inl ⟨by rw [hline, hok]; rfl, ?_⟩
      rw [performAll_of_isKeyText hts (Prod.ext rfl hok), perform, hline]
      rfl
    · refine Or.inr ⟨e, ?_⟩
      rw [perform, hline, he]
      rfl

/-- A product, its value and a step back on four lines, one of which is empty, and on one. -/
theorem lines_eq_line_five_times_three :
    ∃ s' : Session, IsKeyText "5 X 3=B".toList ∧
      ["5 X".toList, " 3=".toList, [], "B".toList].flatten = "5 X 3=B".toList ∧
      (begin .sound .shell .initial).performAll
        (["5 X".toList, " 3=".toList, [], "B".toList].map .line) = s' ∧
      ((begin .sound .shell .initial).perform (.line "5 X 3=B".toList)).1 = s' ∧
      s'.editor.line = "5 × 3".toList ∧ s'.history.entries = ["5 × 3 = 15".toList] := by
  have hkeys : IsKeyText "5 X 3=B".toList := by decide
  obtain ⟨-, -, hcourse⟩ := lines_eq_line_of_isKeyText (begin .sound .shell .initial) hkeys
    (show ["5 X".toList, " 3=".toList, [], "B".toList].flatten = _ from rfl)
  have hreply : ((begin .sound .shell .initial).perform (.line "5 X 3=B".toList)).2 =
      .goesOn true := by decide +kernel
  obtain ⟨-, hall⟩ := (hcourse _ _ _ (isNew_begin .sound .shell .initial) .start).resolve_right
    (by rw [hreply]; exact fun ⟨_, h⟩ => Reply.noConfusion h)
  refine ⟨_, hkeys, rfl, hall, rfl, ?_, ?_⟩
  · decide +kernel
  · decide +kernel

/-- The last key of a line is lost where the document breaks off before, and not on a line of its
own. -/
theorem lines_ne_line_loneHalf :
    ∃ s : Session, openOn .sound .shell .initial "p".toList loneHalf = (s.events, .ok s) ∧
      IsKeyText "1+1=5".toList ∧ ["1+1=".toList, ['5']].flatten = "1+1=5".toList ∧
      (s.perform (.line "1+1=5".toList)).2.IsBroken ∧
      (s.perform (.line "1+1=5".toList)).1.editor.line = ['2'] ∧
      (s.performAll (["1+1=".toList, ['5']].map .line)).editor.line = ['2', '5'] := by
  obtain ⟨hreply, hline⟩ := perform_halfSession
  refine ⟨halfSession, openOn_loneHalf, by decide, rfl, ⟨_, hreply⟩, hline, ?_⟩
  decide +kernel

end Session

end SpokenCalculator
