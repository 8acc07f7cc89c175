import SpokenCalculator.Text.Basic

/-!
# Texts with lone halves

In a notation of sixteen bits a character beyond them has two halves.  A half without the other is
no character: it can be read, kept and joined to other text, but not encoded.

* `Code`, `Codes`: a character or a lone half, and sequences of them;
* `Text.codes`: a text as such a sequence;
* `Codes.text?`, `Codes.IsText`: the text of a sequence in which no half stands alone, and that
  there is one.
-/

namespace SpokenCalculator

/-- A character, or a lone half of one, by its place among the halves. -/
inductive Code
  | char (c : Char)
  | half (n : Fin 0x800)
  deriving DecidableEq

/-- A sequence of characters and lone halves. -/
abbrev Codes := List Code

namespace Code

/-- The number of the first half. -/
def firstHalf : Nat := 0xd800

/-- The number of a character or a half. -/
def toNat : Code → Nat
  | char c => c.toNat
  | half n => firstHalf + n

/-- The character or the half with a number. -/
def ofNat (n : Nat) : Code :=
  if n.isValidChar then char (Char.ofNat n) else half (Fin.ofNat 0x800 (n - firstHalf))

/-- The character, unless it is a half. -/
def char? : Code → Option Char
  | char c => some c
  | half _ => none

end Code

/-- A text, in which no half stands alone. -/
def Text.codes (t : Text) : Codes := t.map Code.char

instance : Coe Text Codes := ⟨Text.codes⟩

/-- The text of a sequence in which no half stands alone. -/
def Codes.text? : Codes → Option Text
  | [] => some []
  | .char c :: rest => (text? rest).map (c :: ·)
  | .half _ :: _ => none

/-- No half stands alone in the sequence. -/
def Codes.IsText (s : Codes) : Prop := ∃ t : Text, s = t.codes

namespace Text

@[simp] theorem codes_nil : codes [] = [] := rfl

@[simp] theorem codes_cons (c : Char) (t : Text) : codes (c :: t) = .char c :: codes t := rfl

@[simp] theorem codes_append (t u : Text) : codes (t ++ u) = codes t ++ codes u :=
  List.map_append

@[simp] theorem text?_codes (t : Text) : (codes t).text? = some t := by
  induction t with
  | nil => rfl
  | cons c t ih => rw [codes_cons, Codes.text?, ih]; rfl

end Text

/-- A sequence has a text exactly if it is one. -/
theorem Codes.text?_eq_some_iff {s : Codes} {t : Text} : s.text? = some t ↔ s = t.codes := by
  constructor
  · intro h
    induction s generalizing t with
    | nil => cases h; rfl
    | cons x s ih =>
      cases x with
      | half n => cases h
      | char c =>
        obtain ⟨u, hu, rfl⟩ := Option.map_eq_some_iff.1 h
        rw [Text.codes_cons, ih hu]
  · rintro rfl
    exact Text.text?_codes t

namespace Codes

@[simp] theorem isText_codes (t : Text) : IsText t.codes := ⟨t, rfl⟩

theorem text?_eq_none_iff {s : Codes} : s.text? = none ↔ ¬ s.IsText := by
  rw [Option.eq_none_iff_forall_ne_some, IsText, not_exists]
  exact forall_congr' fun t => not_congr text?_eq_some_iff

theorem isText_append_iff {s t : Codes} : IsText (s ++ t) ↔ s.IsText ∧ t.IsText := by
  constructor
  · rintro ⟨u, h⟩
    obtain ⟨a, b, -, rfl, rfl⟩ := List.map_eq_append_iff.1 h.symm
    exact ⟨isText_codes a, isText_codes b⟩
  · rintro ⟨⟨a, rfl⟩, ⟨b, rfl⟩⟩
    exact ⟨a ++ b, (Text.codes_append a b).symm⟩

@[simp] theorem isText_nil : IsText [] := isText_codes []

@[simp] theorem isText_char_cons_iff {c : Char} {s : Codes} :
    IsText (.char c :: s) ↔ s.IsText := by
  rw [← List.singleton_append, isText_append_iff]
  exact and_iff_right (isText_codes [c])

@[simp] theorem not_isText_half_cons (n : Fin 0x800) (s : Codes) : ¬ IsText (.half n :: s) := by
  rintro ⟨_ | ⟨c, t⟩, h⟩ <;> cases h

end Codes
end SpokenCalculator
