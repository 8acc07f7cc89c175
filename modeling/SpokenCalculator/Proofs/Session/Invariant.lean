import SpokenCalculator.Proofs.Editor.Ends
import SpokenCalculator.Proofs.Session.Agreement

/-!
# What every action keeps of a calculation

A calculation is changed by commands, by notices, by a history that is cleared and by showing the
line.  What these keep, every action keeps, also one that is refused and one that ends early because
a document breaks off.

* `Calculation.IsKept`: properties that the four changes keep;
* `IsKept.moveAll`, `IsKept.perform`, `IsKept.course`: moves, one action of any kind, and whole
  courses;
* `isKept_tidy`, `Session.Course.tidy`: both ends of the line are kept in order.
-/

namespace SpokenCalculator

namespace Calculation

/-- The property is kept by commands, notices, a cleared history and a line that is shown. -/
structure IsKept (P : Calculation → Prop) : Prop where
  press {k k' : Calculation} {c : Editor.Command} (hk : P k) (h : k.press c = .ok k') : P k'
  notify {k : Calculation} (hk : P k) (t : Text) : P (k.notify t)
  clear {k : Calculation} (hk : P k) : P (k.changeHistory .clear)
  display {k : Calculation} (hk : P k) : P (k.display k.editor.display)

namespace IsKept

variable {P : Calculation → Prop} (h : IsKept P)
include h

theorem move {k k' : Calculation} {m : Move} (hk : P k) (hm : k.move m = .ok k') : P k' := by
  cases m with
  | command c => exact h.press hk hm
  | notify t => exact Except.ok.inj hm ▸ h.notify hk t
  | clear => exact Except.ok.inj hm ▸ h.clear hk
  | greet => exact Except.ok.inj hm ▸ h.display hk
  | _ => exact Except.ok.inj hm ▸ hk

theorem moveAll {k : Calculation} (hk : P k) (ms : List Move) : P (k.moveAll ms).1 := by
  induction ms generalizing k with
  | nil => exact hk
  | cons m ms ih =>
    rw [Calculation.moveAll]
    rcases hm : k.move m with e | k'
    · exact hk
    · exact ih (h.move hk hm)

/-- Moves of a session keep it also where a document breaks off. -/
theorem moves {s : Session} (hs : P s.calculation) (ms : List Move) :
    P (s.moveAll ms).1.calculation := by
  obtain ⟨before, -, hbefore⟩ := s.exists_prefix_moveAll ms
  rw [hbefore]
  exact h.moveAll hs before

/-- **An action keeps what its moves keep**, whatever the reply to it is. -/
theorem perform {s : Session} (hs : P s.calculation) (a : Action) :
    P (s.perform a).1.calculation := by
  rw [(s.perform_eq_moveAll a).1]
  exact h.moves hs a.moves

/-- What an action keeps, the whole course of a session does. -/
theorem course {s s' : Session} {as : List Action} {rs : List Reply} (hs : P s.calculation)
    (hcourse : s.Course as rs s') : P s'.calculation := by
  induction hcourse with
  | start => exact hs
  | enter _ a ih => exact h.perform ih a
  | output _ _ ih => exact h.perform ih _
  | around _ _ _ _ _ _ ih => exact ih

end IsKept

/-! ### Both ends of the line -/

theorem editor_execute (k : Calculation) (e : Editor.Effect) :
    (k.execute e).editor = k.editor := by
  cases e <;> rfl

theorem editor_foldl_execute (k : Calculation) (es : List Editor.Effect) :
    (es.foldl execute k).editor = k.editor := by
  induction es generalizing k with
  | nil => rfl
  | cons e es ih => rw [List.foldl_cons, ih, editor_execute]

/-- A command that is carried out is one of the editor. -/
theorem exists_outcome_of_press {k k' : Calculation} {c : Editor.Command} (h : k.press c = .ok k') :
    ∃ s effects,
      Editor.press false k.editor c = .ok (s, effects) ∧ k' = k.carryOut (s, effects) := by
  rcases hpress : Editor.press false k.editor c with e | ⟨s, effects⟩
  · rw [press, hpress] at h
    cases h
  · rw [press, hpress] at h
    exact ⟨s, effects, rfl, (Except.ok.inj h).symm⟩

theorem editor_carryOut (k : Calculation) (o : Editor.Outcome) : (k.carryOut o).editor = o.1 :=
  editor_foldl_execute _ o.2

theorem isKept_tidy : IsKept fun k => Editor.Tidy k.editor where
  press hk h := by
    obtain ⟨s, effects, hpress, rfl⟩ := exists_outcome_of_press h
    rw [editor_carryOut]
    exact hk.press hpress
  notify hk _ := hk
  clear hk := hk
  display hk := hk

end Calculation

/-- The line of a session that was just assembled is empty, and everything keeps its ends in
order. -/
theorem Session.Course.tidy {s s' : Session} {as : List Action} {rs : List Reply} (hs : s.IsNew)
    (h : Course s as rs s') : Editor.Tidy s'.editor := by
  have hnew : Editor.Tidy s.calculation.editor := by
    rw [hs.calculation_eq]
    exact Editor.tidy_empty
  exact Calculation.isKept_tidy.course hnew h

end SpokenCalculator
