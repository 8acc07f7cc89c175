import SpokenCalculator.Proofs.Editor.Record
import SpokenCalculator.Proofs.Editor.Speech
import SpokenCalculator.Proofs.Session.Moves

/-!
# The calculation of a session

The calculation is the line under edit, the history and what the screen shows.  It can be followed
without the session around it: settings enter a command only through what is said of a result, and
speech, touch, the engine and the preferences are not read by anything that changes the calculation.
A document that breaks off where it is written keeps a session from the moves that are left, but not
from what the last one does to the calculation: of the effects of a command the record of an entry,
which alone is written, is the last.

* `Calculation`, `Calculation.move`: a calculation by itself, and what a move does to it;
* `move_cases`: a move does the same to the calculation of a session;
* `calculation_moveAll`: so do moves, unless a document breaks off;
* `exists_prefix_moveAll`: and in any case those up to some of them.
-/

namespace SpokenCalculator

theorem Except.map_comp {ε α β γ : Type} (x : Except ε α) (f : α → β) (g : β → γ) :
    x.map (g ∘ f) = (x.map f).map g := by
  cases x <;> rfl

/-! ### The calculation by itself -/

/-- The line under edit, the history and the screen. -/
structure Calculation where
  editor : Editor.State
  history : History.Log
  screen : Console.Screen

/-- The part of a session that is its calculation. -/
def Session.calculation (s : Session) : Calculation := ⟨s.editor, s.history, s.screen⟩

namespace Calculation
open Editor (Effect Outcome EditError)

/-- A text is shown on the screen. -/
def display (k : Calculation) (t : Text) : Calculation :=
  { k with screen := { k.screen with display := t } }

/-- A notice is shown. -/
def notify (k : Calculation) (t : Text) : Calculation :=
  { k with screen := { k.screen with notice := t } }

/-- The history is changed. -/
def changeHistory (k : Calculation) (c : History.Change) : Calculation :=
  { k with history := k.history.change c }

/-- An effect of a command on the calculation. -/
def execute (k : Calculation) : Effect → Calculation
  | .speak _ | .vibrate => k
  | .display t => k.display t
  | .record entry => k.changeHistory (.add entry)
  | .notify t => k.notify t

/-- What a command leaves, carried out. -/
def carryOut (k : Calculation) (o : Outcome) : Calculation :=
  o.2.foldl execute { k with editor := o.1 }

/-- A command, carried out as it is without lessons. -/
def press (k : Calculation) (c : Editor.Command) : Except EditError Calculation :=
  (Editor.press false k.editor c).map k.carryOut

/-- A move. -/
def move (k : Calculation) : Move → Except EditError Calculation
  | .command c => k.press c
  | .notify t => .ok (k.notify t)
  | .clear => .ok (k.changeHistory .clear)
  | .greet => .ok (k.display k.editor.display)
  | .toggleVoice | .toggleTouch | .toggleLearning | .showHistory | .farewell
  | .speak _ | .stop | .speed _ | .pump _ => .ok k

/-- Moves in order, up to the first that is refused. -/
def moveAll (k : Calculation) : List Move → Calculation × Except EditError Unit
  | [] => (k, .ok ())
  | m :: ms =>
    match k.move m with
    | .ok k => k.moveAll ms
    | .error e => (k, .error e)

theorem execute_of_isSpoken {e : Effect} (he : e.isSpoken = true) (k : Calculation) :
    k.execute e = k := by
  cases e with
  | speak t => rfl
  | _ => cases he

/-- What is said does not enter the calculation. -/
theorem carryOut_muted (k : Calculation) (o : Outcome) :
    k.carryOut (Editor.muted o) = k.carryOut o := by
  have hfold (es : List Effect) (k : Calculation) :
      (es.filter fun e => !e.isSpoken).foldl execute k = es.foldl execute k := by
    induction es generalizing k with
    | nil => rfl
    | cons e es ih =>
      rw [List.foldl_cons, ← ih]
      cases he : e.isSpoken with
      | true => rw [List.filter_cons_of_neg (by rw [he]; decide), execute_of_isSpoken he]
      | false => rw [List.filter_cons_of_pos (by rw [he]; rfl), List.foldl_cons]
  exact hfold o.2 _

/-- Lessons enter a command through what is said alone, which is not carried out here. -/
theorem press_eq (k : Calculation) (learning : Bool) (c : Editor.Command) :
    (Editor.press learning k.editor c).map k.carryOut = k.press c := by
  have hmuted : k.carryOut = k.carryOut ∘ Editor.muted :=
    funext fun o => (carryOut_muted _ o).symm
  rw [press, hmuted, Except.map_comp, Except.map_comp, Editor.muted_press]

end Calculation

/-! ### Effects in a session -/

namespace Session
open Editor (Effect RecordsLast)

/-- A document broke off where it was written. -/
def Result.IsBroken {α : Type} (r : Result α) : Prop := ∃ e, r.2 = .error (.write e)

theorem not_isBroken_ok {α : Type} (s : Session) (a : α) :
    ¬ Result.IsBroken ((s, .ok a) : Result α) := by
  rintro ⟨e, he⟩
  cases he

theorem not_isBroken_edit {α : Type} (s : Session) (e : Editor.EditError) :
    ¬ Result.IsBroken ((s, .error (.edit e)) : Result α) := by
  rintro ⟨e', he⟩
  cases he

theorem calculation_vibrate (s : Session) : s.vibrate.calculation = s.calculation := by
  unfold vibrate
  split_ifs <;> rfl

theorem calculation_settle (s : Session) (warning : Text → Text) (failure : Option WriteError) :
    (s.settle warning failure).1.calculation = s.calculation := by
  rcases failure with - | reason | e <;> rfl

/-- After an attempt to write there is no failure or a document broke off. -/
theorem settle_cases (s : Session) (warning : Text → Text) (failure : Option WriteError) :
    (s.settle warning failure).2 = .ok () ∨ (s.settle warning failure).IsBroken := by
  rcases failure with - | reason | e
  · exact Or.inl rfl
  · exact Or.inl rfl
  · exact Or.inr ⟨e, rfl⟩

/-- The history is changed also where it cannot be saved. -/
theorem calculation_changeHistory (s : Session) (c : History.Change) :
    (s.changeHistory c).1.calculation = s.calculation.changeHistory c :=
  calculation_settle _ _ _

theorem calculation_execute (s : Session) (e : Effect) :
    (s.execute e).1.calculation = s.calculation.execute e := by
  cases e with
  | vibrate => exact calculation_vibrate s
  | record entry => exact calculation_changeHistory s (.add entry)
  | _ => rfl

theorem execute_cases (s : Session) (e : Effect) :
    (s.execute e).2 = .ok () ∨ e.isRecord = true ∧ (s.execute e).IsBroken := by
  cases e with
  | record entry => exact (settle_cases _ _ _).imp_right fun h => ⟨rfl, h⟩
  | _ => exact Or.inl rfl

/-- An effect that fails is a record, whose document breaks off. -/
theorem of_execute_error {s s' : Session} {e : Effect} {f : Failure}
    (h : s.execute e = (s', .error f)) :
    e.isRecord = true ∧ Result.IsBroken ((s', .error f) : Result Unit) := by
  rcases s.execute_cases e with hok | hrecord <;> rw [h] at *
  · cases hok
  · exact hrecord

/-- Effects fail only where a document breaks off. -/
theorem executeAll_cases (s : Session) (es : List Effect) :
    (s.executeAll es).2 = .ok () ∨ (s.executeAll es).IsBroken := by
  induction es generalizing s with
  | nil => exact Or.inl rfl
  | cons e es ih =>
    rw [executeAll]
    rcases he : s.execute e with ⟨s', f | _⟩
    · exact Or.inr (of_execute_error he).2
    · exact ih s'

/-- All effects are carried out on the calculation, since none comes after a record. -/
theorem calculation_executeAll {es : List Effect} (h : RecordsLast es) (s : Session) :
    (s.executeAll es).1.calculation = es.foldl Calculation.execute s.calculation := by
  induction es generalizing s with
  | nil => rfl
  | cons e es ih =>
    rw [List.foldl_cons, ← calculation_execute, executeAll]
    rcases he : s.execute e with ⟨s', f | _⟩
    · rcases es with - | ⟨e₁, es⟩
      · rfl
      · have hrecord := (of_execute_error he).1
        rw [(Editor.recordsLast_cons_cons_iff.1 h).1] at hrecord
        cases hrecord
    · refine ih ?_ s'
      rcases es with - | ⟨e₁, es⟩
      · exact Editor.recordsLast_nil
      · exact (Editor.recordsLast_cons_cons_iff.1 h).2

/-! ### Moves of a session -/

/-- What comes of a move: it is refused and changes nothing, or it does to the calculation what it
does by itself, also where a document breaks off. -/
inductive Moved (s : Session) (m : Move) (r : Result Unit) : Prop
  | refused {e : Editor.EditError} (hmove : s.calculation.move m = .error e)
      (hr : r = (s, .error (.edit e)))
  | made {k : Calculation} (hmove : s.calculation.move m = .ok k)
      (hcalculation : r.1.calculation = k) (hresult : r.2 = .ok () ∨ r.IsBroken)

theorem moved_command (s : Session) (c : Editor.Command) :
    Moved s (.command c) ((s.handle c).as ()) := by
  have hpress := s.calculation.press_eq s.settings.learning c
  rcases ho : Editor.press s.settings.learning s.editor c with e | o
  · refine .refused (e := e) ?_ (by rw [handle_of_error ho]; rfl)
    rw [Calculation.move, ← hpress, calculation, ho]
    rfl
  · rw [handle_of_press ho, Result.as_as, Result.as_unit]
    refine .made ?_ (calculation_executeAll (Editor.recordsLast_press ho) _) (executeAll_cases _ _)
    rw [Calculation.move, ← hpress, calculation, ho]
    rfl

/-- Switches touch neither line nor history nor screen. -/
theorem moved_saveSettings {s s' : Session} {m : Move} (h : s'.calculation = s.calculation)
    (hm : s.calculation.move m = .ok s.calculation) : Moved s m s'.saveSettings := by
  rw [saveSettings]
  split
  · exact .made hm h (Or.inl rfl)
  · exact .made hm ((calculation_settle _ _ _).trans h) (settle_cases _ _ _)

/-- **A move does to the calculation of a session what it does by itself.** -/
theorem move_cases (s : Session) (m : Move) : Moved s m (s.move m) := by
  cases m with
  | command c => exact moved_command s c
  | clear => exact .made rfl (calculation_changeHistory s .clear) (settle_cases _ _ _)
  | toggleVoice =>
    refine moved_saveSettings ?_ rfl
    unfold switchVoice
    split_ifs <;> rfl
  | toggleTouch => exact moved_saveSettings rfl rfl
  | toggleLearning => exact moved_saveSettings rfl rfl
  | speed value =>
    rw [move, setSpeed]
    rcases s.settings.setSpeed value with e | settings <;> exact .made rfl rfl (Or.inl rfl)
  | _ => exact .made rfl rfl (Or.inl rfl)

/-- **Moves do to the calculation of a session what they do by themselves**, unless a document
breaks off. -/
theorem calculation_moveAll {s : Session} {ms : List Move} (h : ¬ (s.moveAll ms).IsBroken) :
    (s.moveAll ms).1.calculation = (s.calculation.moveAll ms).1 := by
  induction ms generalizing s with
  | nil => rfl
  | cons m ms ih =>
    rw [Calculation.moveAll]
    cases s.move_cases m with
    | refused hmove hr =>
      rw [moveAll_cons_of_error hr, hmove]
    | made hmove hcalculation hresult =>
      rw [hmove]
      rcases hm : s.move m with ⟨s', e | _⟩ <;> rw [hm] at hcalculation hresult
      · rw [moveAll_cons_of_error hm] at h
        exact absurd (hresult.resolve_left nofun) h
      · rw [moveAll_cons_of_ok hm] at h ⊢
        rw [ih h, ← hcalculation]

/-- In any case the moves up to some of them do. -/
theorem exists_prefix_moveAll (s : Session) (ms : List Move) :
    ∃ before, before <+: ms ∧
      (s.moveAll ms).1.calculation = (s.calculation.moveAll before).1 := by
  induction ms generalizing s with
  | nil => exact ⟨[], List.prefix_rfl, rfl⟩
  | cons m ms ih =>
    cases s.move_cases m with
    | refused hmove hr =>
      exact ⟨[], List.nil_prefix, by rw [moveAll_cons_of_error hr]; rfl⟩
    | made hmove hcalculation hresult =>
      rcases hm : s.move m with ⟨s', e | _⟩ <;> rw [hm] at hcalculation
      · refine ⟨[m], (List.prefix_cons_inj m).2 List.nil_prefix, ?_⟩
        rw [moveAll_cons_of_error hm, Calculation.moveAll, hmove]
        exact hcalculation
      · obtain ⟨before, hprefix, hbefore⟩ := ih s'
        refine ⟨m :: before, (List.prefix_cons_inj m).2 hprefix, ?_⟩
        rw [moveAll_cons_of_ok hm, Calculation.moveAll, hmove, hbefore, ← hcalculation]

end Session
end SpokenCalculator
