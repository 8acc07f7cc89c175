/-!
# Text

* `Text`: a sequence of characters;
* `dropTail`: a text without its last characters of a kind;
* `isBlank`, `trim`: blank characters, and a text without the blank ones at its ends;
* `without`: a text with every occurrence of a character removed.
-/

namespace SpokenCalculator

/-- A sequence of characters. -/
abbrev Text := List Char

namespace Text

/-- A text without the characters of a kind at its end. -/
def dropTail (p : Char → Bool) (t : Text) : Text := (t.reverse.dropWhile p).reverse

/-- A text without the occurrences of a character. -/
def without (c : Char) (t : Text) : Text := t.filter (· != c)

/-- The blank characters: tabs and line ends, the separators of information, and every space that
is part of a script. -/
def isBlank (c : Char) : Bool :=
  let n := c.toNat
  (0x09 ≤ n && n ≤ 0x0d) || (0x1c ≤ n && n ≤ 0x20) || n == 0x85 || n == 0xa0 || n == 0x1680 ||
    (0x2000 ≤ n && n ≤ 0x200a) || n == 0x2028 || n == 0x2029 || n == 0x202f || n == 0x205f ||
    n == 0x3000

/-- A text without the blank characters at its ends. -/
def trim (t : Text) : Text := dropTail isBlank (t.dropWhile isBlank)

@[simp] theorem dropTail_nil (p : Char → Bool) : dropTail p [] = [] := rfl

/-- What is kept does not end with a character of the kind. -/
theorem getLast_dropTail (p : Char → Bool) {t : Text} (h : dropTail p t ≠ []) :
    p ((dropTail p t).getLast h) = false := by
  simp only [dropTail, ne_eq, List.reverse_eq_nil_iff] at h ⊢
  rw [List.getLast_reverse]
  exact List.head_dropWhile_not p h

/-- What is dropped at the end is of the kind. -/
theorem exists_eq_dropTail_append (p : Char → Bool) (t : Text) :
    ∃ tail : Text, (∀ c ∈ tail, p c = true) ∧ t = dropTail p t ++ tail := by
  refine ⟨(t.reverse.takeWhile p).reverse, fun c hc => ?_, ?_⟩
  · exact List.all_eq_true.1 List.all_takeWhile c (List.mem_reverse.1 hc)
  · rw [dropTail, ← List.reverse_append, List.takeWhile_append_dropWhile, List.reverse_reverse]

/-- What is trimmed at the ends is blank. -/
theorem exists_eq_append_trim (t : Text) :
    ∃ before after : Text, (∀ c ∈ before, isBlank c = true) ∧ (∀ c ∈ after, isBlank c = true) ∧
      t = before ++ (trim t ++ after) := by
  obtain ⟨after, hafter, heq⟩ := exists_eq_dropTail_append isBlank (t.dropWhile isBlank)
  refine ⟨t.takeWhile isBlank, after, List.all_eq_true.1 List.all_takeWhile, hafter, ?_⟩
  rw [trim, ← heq, List.takeWhile_append_dropWhile]

end Text
end SpokenCalculator
