import SpokenCalculator.Proofs.Editor.Record
import SpokenCalculator.Proofs.Session.Invariant

/-!
# The screen shows the line

The line under edit and the screen each hold a text of their own, and the screen is written only
where a command changed the line.  A failure that a command takes off the line is such a change, and
a command that is refused changes nothing.  So the two texts agree at all times: they do in a new
session, and nothing but a command or a greeting touches either.

* `Calculation.IsCurrent`: the screen shows the line;
* `IsCurrent.carryOut`: what a command leaves is shown if it is anything new;
* `IsCurrent.press`, `isKept_isCurrent`: one command, and from it actions of any kind;
* `display_eq_of_course`: the screen along the whole course of a session.
-/

namespace SpokenCalculator

namespace Calculation
open Editor (Effect EditError felt shown)

/-- The screen shows the line. -/
def IsCurrent (k : Calculation) : Prop := k.screen.display = k.editor.display

variable {k k' : Calculation}

/-! ### Effects -/

/-- Nothing is shown. -/
def Hidden (es : List Effect) : Prop := ∀ t, .display t ∉ es

theorem hidden_felt (c : Editor.Command) : Hidden (felt c) := by
  unfold felt
  split_ifs <;> simp [Hidden]

/-- A command shows nothing by itself. -/
theorem hidden_act {learning : Bool} {s : Editor.State} {c : Editor.Command} {o : Editor.Outcome}
    (h : Editor.act learning s c = .ok o) : Hidden o.2 := by
  obtain ⟨messages, record, heffects, hmessages, hrecord⟩ := Editor.reports_act h
  intro t ht
  rw [heffects] at ht
  rcases List.mem_append.1 ht with ht | ht
  · cases hmessages _ ht
  · rcases hrecord with rfl | ⟨entry, rfl, -⟩
    · exact absurd ht List.not_mem_nil
    · cases List.mem_singleton.1 ht

theorem display_foldl_execute {es : List Effect} (h : Hidden es) (k : Calculation) :
    (es.foldl execute k).screen.display = k.screen.display := by
  induction es generalizing k with
  | nil => rfl
  | cons e es ih =>
    have hes : Hidden es := fun t ht => h t (List.mem_cons_of_mem _ ht)
    have he : (k.execute e).screen.display = k.screen.display := by
      cases e with
      | display t => exact absurd (List.mem_cons_self ..) (h t)
      | _ => rfl
    rw [List.foldl_cons, ih hes, he]

/-! ### Commands -/

/-- What a command leaves is shown if it differs from what was there, and else it was shown
before. -/
theorem IsCurrent.carryOut (h : k.IsCurrent) (c : Editor.Command) (s : Editor.State)
    {es : List Effect} (hes : Hidden es) :
    (k.carryOut (s, felt c ++ shown k.editor s ++ es)).IsCurrent := by
  rw [IsCurrent, editor_carryOut, Calculation.carryOut, List.foldl_append,
    display_foldl_execute hes, List.foldl_append]
  by_cases hsame : s = k.editor
  · rw [shown, if_pos hsame, List.foldl_nil, display_foldl_execute (hidden_felt c), hsame]
    exact h
  · rw [shown, if_neg hsame]
    rfl

/-- **A command leaves a screen that shows the line.** -/
theorem IsCurrent.press (h : k.IsCurrent) {c : Editor.Command} (hk : k.press c = .ok k') :
    k'.IsCurrent := by
  obtain ⟨s, effects, hpress, rfl⟩ := exists_outcome_of_press hk
  obtain ⟨o, hact, rfl, rfl⟩ := Editor.exists_act_of_press hpress
  exact h.carryOut c o.1 (hidden_act hact)

/-- **Every action keeps a screen that shows the line.** -/
theorem isKept_isCurrent : IsKept IsCurrent where
  press hk h := hk.press h
  notify hk _ := hk
  clear hk := hk
  display _ := rfl

end Calculation

namespace Session

theorem IsNew.isCurrent {s : Session} (hs : s.IsNew) : s.calculation.IsCurrent := by
  rw [hs.calculation_eq]
  rfl

/-- **The screen shows the line all along.**  It does in a new session and after everything that is
entered, whether that is carried out, refused or broken off, and whatever fails in speech, the
engine or the preferences in between. -/
theorem display_eq_of_course {s s' : Session} {as : List Action} {rs : List Reply} (hs : s.IsNew)
    (h : Course s as rs s') : s'.screen.display = s'.editor.display :=
  Calculation.isKept_isCurrent.course hs.isCurrent h

/-- A division by zero, preferences and an engine that fail from then on, and an unknown command,
which is refused: the failure stays on the screen. -/
theorem display_eq_of_course_five_over_zero :
    ∃ s' : Session,
      Course (begin .sound .shell .initial)
        [.line "5/0=".toList, .command (.foreign ⟨.number (.int 42), 986⟩)]
        [.goesOn true, .failed (.edit (.unknownCommand "42".toList))] s' ∧
      s'.screen.display = "Error".toList ∧ s'.screen.display = s'.editor.display := by
  have hline := (Course.start (s := begin .sound .shell .initial)).enter (.line "5/0=".toList)
  have hreply : ((begin .sound .shell .initial).perform (.line "5/0=".toList)).2 =
      .goesOn true := by decide +kernel
  rw [hreply] at hline
  have hcourse := (hline.around ⟨none, none, some "no".toList, none, none⟩ .shell .initial
    (.idle true) (some ⟨"p".toList, [], .folder⟩)).enter
    (.command (.foreign ⟨.number (.int 42), 986⟩))
  have hrefused (s : Session) :
      (s.perform (.command (.foreign ⟨.number (.int 42), 986⟩))).2 =
        .failed (.edit (.unknownCommand "42".toList)) := by
    have hshown : Editor.Label.shown ⟨.number (.int 42), 986⟩ = .ok "42".toList := by
      decide +kernel
    have hpress : Editor.press s.settings.learning s.editor (.foreign ⟨.number (.int 42), 986⟩) =
        .error (.unknownCommand "42".toList) := by
      rw [Editor.press, Editor.act, hshown]
      rfl
    rw [perform, handle_of_error hpress]
    rfl
  rw [hrefused] at hcourse
  refine ⟨_, hcourse, ?_, display_eq_of_course (isNew_begin .sound .shell .initial) hcourse⟩
  decide +kernel

end Session

end SpokenCalculator
