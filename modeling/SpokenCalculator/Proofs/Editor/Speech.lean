import SpokenCalculator.Proofs.Editor.Ends

/-!
# What is said of a command

A learner is told more of a result than others.  Nothing else that a command leaves depends on
whether lessons are on.

* `Effect.isSpoken`, `muted`: what is said, and what a command leaves but for that;
* `muted_press`: what a command leaves does not depend on lessons, but for what is said;
* `filter_isSpoken_press`: buttons and changes of the screen are not spoken of.
-/

namespace SpokenCalculator.Editor

/-- Something is said. -/
def Effect.isSpoken : Effect → Bool
  | .speak _ => true
  | _ => false

/-- What a command leaves, but for what is said. -/
def muted (o : Outcome) : Outcome := (o.1, o.2.filter fun e => !e.isSpoken)

theorem muted_solve (learning : Bool) (s : State) :
    muted (solve learning s) = muted (solve false s) := by
  by_cases hne : s.line = []
  · rw [solve, solve, if_pos hne, if_pos hne]
  · rw [solve, solve, if_neg hne, if_neg hne]
    rcases evaluate (keyboardLine s.line) with f | v <;> rfl

theorem muted_cons {e : Effect} (he : e.isSpoken = false) (s : State) (es : List Effect) :
    muted (s, e :: es) = (s, e :: (muted (s, es)).2) := by
  rw [muted, muted, List.filter_cons_of_pos (by rw [he]; rfl)]

theorem muted_solvePhrase (learning : Bool) (s : State) (heard : Text) :
    muted (solvePhrase learning s heard) = muted (solvePhrase false s heard) := by
  by_cases hne : Phrase.expression heard = []
  · rw [solvePhrase_of_eq_nil hne, solvePhrase_of_eq_nil hne]
  · have h := muted_solve learning (s.withLine (Phrase.expression heard))
    rw [muted, muted, Prod.mk.injEq] at h
    rw [solvePhrase_of_ne_nil hne, solvePhrase_of_ne_nil hne, muted_cons rfl, muted_cons rfl]
    simp only [muted, h.1, h.2]

theorem act_equals (learning : Bool) (s : State) :
    act learning s .equals = .ok (solve learning s) := rfl

theorem act_phrase (learning : Bool) (s : State) (heard : Option Text) :
    act learning s (.phrase heard) = .ok (solvePhrase learning s (heard.getD [])) := rfl

/-- Lessons change nothing but what is said of a result. -/
theorem muted_act (learning : Bool) (s : State) (c : Command) :
    (act learning s c).map muted = (act false s c).map muted := by
  cases c with
  | equals =>
    rw [act_equals, act_equals]
    exact congrArg Except.ok (muted_solve learning s)
  | phrase heard =>
    rw [act_phrase, act_phrase]
    exact congrArg Except.ok (muted_solvePhrase learning s (heard.getD []))
  | _ => rw [act, act]

/-- **A command without what is said does not depend on the settings.** -/
theorem muted_press (learning : Bool) (s : State) (c : Command) :
    (press learning s c).map muted = (press false s c).map muted := by
  have hpress (l : Bool) : (press l s c).map muted =
      ((act l { s with failed := false } c).map muted).map fun o =>
        ((o.1, (felt c ++ shown s o.1).filter (fun e => !e.isSpoken) ++ o.2) : Outcome) := by
    rw [press]
    cases act l { s with failed := false } c with
    | error e => rfl
    | ok o => exact congrArg Except.ok (Prod.ext rfl (List.filter_append ..))
  rw [hpress, hpress, muted_act]

/-- What is felt and what is shown is not said. -/
theorem filter_isSpoken_press (c : Command) (s s' : State) (es : List Effect) :
    (felt c ++ shown s s' ++ es).filter Effect.isSpoken = es.filter Effect.isSpoken := by
  have hfelt : (felt c).filter Effect.isSpoken = [] := by
    unfold felt
    split <;> rfl
  have hshown : (shown s s').filter Effect.isSpoken = [] := by
    unfold shown
    split <;> rfl
  rw [List.filter_append, List.filter_append, hfelt, hshown]
  rfl

end SpokenCalculator.Editor
