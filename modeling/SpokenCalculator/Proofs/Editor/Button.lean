import SpokenCalculator.Editor.Button
import SpokenCalculator.Proofs.Editor.Ends

/-!
# What buttons type

Whether a character is a button and whether it is typed are decided apart.  A digit of any script is
a button, but only the ten of the keyboard are typed.  The others are felt and do nothing else.

* `buttonCommand?_cases`: the buttons are the digits and those of the table;
* `Command.IsIdle`: commands that never do anything, of which there are none in the table;
* `Types`: a text is typed and spoken;
* `exists_types_iff`: the digits that are typed.
-/

namespace SpokenCalculator.Editor
open Text

/-! ### The buttons -/

theorem buttonCommand?_cases {symbol : Text} {c : Command} (h : buttonCommand? symbol = some c) :
    (∃ d, isDigit d = true ∧ symbol = [d] ∧ c = .digit [d]) ∨ (symbol, c) ∈ buttons := by
  have hlookup (h : buttons.lookup symbol = some c) : (symbol, c) ∈ buttons := by
    obtain ⟨before, after, heq, -⟩ := List.lookup_eq_some_iff.1 h
    rw [heq]
    exact List.mem_append_right _ (List.mem_cons_self ..)
  unfold buttonCommand? at h
  split at h
  · rename_i d
    split_ifs at h with hd
    · cases h
      exact Or.inl ⟨d, hd, rfl, rfl⟩
    · exact Or.inr (hlookup h)
  · exact Or.inr (hlookup h)

/-- A button is known, and its label is a text. -/
theorem isKnown_of_buttonCommand? {symbol : Text} {c : Command}
    (h : buttonCommand? symbol = some c) : c.isKnown = true ∧ c.HasText := by
  rcases buttonCommand?_cases h with ⟨d, -, -, rfl⟩ | hmem
  · exact ⟨rfl, .string 0 trivial⟩
  · simp only [buttons, List.mem_cons, List.not_mem_nil, or_false, Prod.mk.injEq] at hmem
    rcases hmem with ⟨-, rfl⟩ | ⟨-, rfl⟩ | ⟨-, rfl⟩ | ⟨-, rfl⟩ | ⟨-, rfl⟩ | ⟨-, rfl⟩ | ⟨-, rfl⟩ |
      ⟨-, rfl⟩ | ⟨-, rfl⟩ | ⟨-, rfl⟩ | ⟨-, rfl⟩ | ⟨-, rfl⟩ | ⟨-, rfl⟩ <;> exact ⟨rfl, trivial⟩

/-- The command does nothing, whatever the line is. -/
def Command.IsIdle (c : Command) : Prop := ∀ learning s, act learning s c = .ok (s, [])

/-- Every button of the table does something on a line with a number. -/
theorem not_isIdle_of_mem_buttons {b : Text × Command} (hb : b ∈ buttons) : ¬ b.2.IsIdle := by
  have hfive : ∀ b ∈ buttons, act false ⟨['5'], ['5'], false, [], false⟩ b.2 ≠
      .ok (⟨['5'], ['5'], false, [], false⟩, []) := by decide +kernel
  exact fun hidle => hfive b hb (hidle false _)

/-! ### Digits -/

/-- The text is added to the line and to the number being typed, and it is spoken. -/
structure Types (s : State) (t : Text) (o : Outcome) : Prop where
  line : o.1.line = s.line ++ t
  operand : o.1.operand = s.operand ++ t
  spoken : .speak t ∈ o.2

theorem isIdle_digit_iff (d : Char) : (Command.digit [d]).IsIdle ↔ ¬ isAsciiDigit d = true := by
  constructor
  · intro hidle hd
    cases (act_digit false .empty hd).symm.trans (hidle false .empty)
  · exact fun hd learning s => congrArg Except.ok (if_neg hd)

theorem press_digit_of_isAsciiDigit (learning : Bool) (s : State) {d : Char}
    (hd : isAsciiDigit d = true) :
    ∃ o, press learning s (.digit [d]) = .ok o ∧ Types s [d] o :=
  ⟨_, press_of_act (act_digit learning _ hd), rfl, rfl,
    List.mem_append_right _ (List.mem_singleton_self _)⟩

/-- A digit that is not of the keyboard takes a failure off the screen, like any button. -/
theorem press_digit_of_not_isAsciiDigit (learning : Bool) (s : State) {d : Char}
    (hd : ¬ isAsciiDigit d = true) :
    press learning s (.digit [d]) =
      .ok ({ s with failed := false }, .vibrate :: shown s { s with failed := false }) := by
  rw [press_of_act ((isIdle_digit_iff d).2 hd learning _), List.append_nil]
  rfl

/-- **A digit is typed just if it is one of the keyboard**, whatever the line is. -/
theorem exists_types_iff (learning : Bool) (s : State) (d : Char) :
    (∃ o, press learning s (.digit [d]) = .ok o ∧ Types s [d] o) ↔ isAsciiDigit d = true := by
  constructor
  · rintro ⟨o, hpress, htypes⟩
    by_contra hd
    rw [press_digit_of_not_isAsciiDigit learning s hd] at hpress
    cases hpress
    exact absurd (List.self_eq_append_right.1 htypes.line) (List.cons_ne_nil d [])
  · exact press_digit_of_isAsciiDigit learning s

end SpokenCalculator.Editor
