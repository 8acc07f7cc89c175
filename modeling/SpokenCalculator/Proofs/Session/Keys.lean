import SpokenCalculator.Proofs.Editor.Button
import SpokenCalculator.Proofs.Session.Invariant

/-!
# Keys one after another

Every button is a command that the line knows, so as long as the ends of the line are in order a key
is not refused, and they are in order after it.  Keys are therefore carried out to the last one,
unless a document breaks off on the way, and in two parts as well as at once.

* `exists_move_ofKey`, `key_cases`: keys are not refused;
* `keys_append`, `keys_cases`: keys in two parts, and all of them.
-/

namespace SpokenCalculator
open Editor (Tidy)

/-- A key on a line is not refused. -/
theorem Calculation.exists_move_ofKey {k : Calculation} (hk : Tidy k.editor) (c : Char) :
    ∃ k', k.move (.ofKey c) = .ok k' := by
  rw [Move.ofKey]
  rcases hc : Editor.buttonCommand? (Session.keySymbol [c]) with - | command
  · exact ⟨_, rfl⟩
  · obtain ⟨hknown, htext⟩ := Editor.isKnown_of_buttonCommand? hc
    obtain ⟨o, hact, -⟩ := hk.unfailed.exists_act hknown htext false
    exact ⟨k.carryOut _, by rw [move, press, Editor.press_of_act hact]; rfl⟩

namespace Session

variable {s : Session}

/-- **A key is carried out if it is a button, unless a document breaks off**, and nothing happens
otherwise. -/
theorem key_cases (hs : Tidy s.editor) (k : Text) :
    (Editor.buttonCommand? (keySymbol k) = none ∧ s.key k = (s, .ok none)) ∨
      ∃ c o, Editor.buttonCommand? (keySymbol k) = some c ∧
        Editor.press s.settings.learning s.editor c = .ok o ∧
        (s.key k).1 = ({ s with editor := o.1 }.executeAll o.2).1 ∧
        ((s.key k).2 = .ok (some o.2) ∨ (s.key k).IsBroken) := by
  rcases hc : Editor.buttonCommand? (keySymbol k) with - | c
  · exact Or.inl ⟨rfl, key_of_none s hc⟩
  · obtain ⟨hknown, htext⟩ := Editor.isKnown_of_buttonCommand? hc
    obtain ⟨o, hact, -⟩ := hs.unfailed.exists_act hknown htext s.settings.learning
    have hpress := Editor.press_of_act hact
    refine Or.inr ⟨c, _, rfl, hpress, ?_, ?_⟩
    · rw [key_of_buttonCommand? s hc, handle_of_press hpress]
      rfl
    · rw [key_of_buttonCommand? s hc, handle_of_press hpress]
      rcases executeAll_cases { s with editor := o.1 } _ with hok | ⟨e, he⟩
      · exact Or.inl (by rw [Result.as, hok]; rfl)
      · exact Or.inr ⟨e, by rw [Result.as, he]; rfl⟩

/-- Keys in two parts: the second is reached if the first was carried out. -/
theorem keys_append (s : Session) (a b : Text) :
    s.keys (a ++ b) =
      match s.keys a with
      | (s, .ok ()) => s.keys b
      | (s, .error e) => (s, .error e) := by
  rw [keys_eq_moveAll, List.map_append, moveAll_append, ← keys_eq_moveAll]
  rcases s.keys a with ⟨s', e | _⟩
  · rfl
  · exact (s'.keys_eq_moveAll b).symm

/-- The ends of the line are in order after keys. -/
theorem tidy_keys (hs : Tidy s.editor) (ks : Text) : Tidy (s.keys ks).1.editor := by
  rw [keys_eq_moveAll]
  exact Calculation.isKept_tidy.moves hs _

/-- **Keys are carried out to the last one, unless a document breaks off.** -/
theorem keys_cases (hs : Tidy s.editor) (ks : Text) :
    (s.keys ks).2 = .ok () ∨ (s.keys ks).IsBroken := by
  rw [keys_eq_moveAll]
  induction ks generalizing s with
  | nil => exact Or.inl rfl
  | cons k ks ih =>
    rw [List.map_cons]
    cases s.move_cases (.ofKey k) with
    | refused hmove _ =>
      obtain ⟨k', hk'⟩ := Calculation.exists_move_ofKey (k := s.calculation) hs k
      cases hmove.symm.trans hk'
    | made hmove hcalculation hresult =>
      rcases hm : s.move (.ofKey k) with ⟨s', e | _⟩ <;> rw [hm] at hcalculation hresult
      · rw [moveAll_cons_of_error hm]
        exact Or.inr (hresult.resolve_left nofun)
      · rw [moveAll_cons_of_ok hm]
        refine ih ?_
        rw [← hcalculation] at hmove
        exact Calculation.isKept_tidy.move (k := s.calculation) hs hmove

end Session
end SpokenCalculator
