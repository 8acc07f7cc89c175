import SpokenCalculator.Proofs.Editor.Typing
import SpokenCalculator.Proofs.Phrase.Reading

/-!
# Calculations as they are said

A calculation is said in numbers with operations between them.  A number is said in figures or by
words, with a word for the point, and an operation by any of its words.

* `Whole`, `Operand`, `SpokenOperation`, `Utterance`: what is said, and the line that is meant;
* `Whole.isSpoken` to `isSpoken_pairs`: what each part of it is read as;
* `Utterance.keyboardLine_expression_said`: what is said is evaluated as the line that is meant.
-/

namespace SpokenCalculator.Phrase
open Text Editor

/-! ### What is said -/

/-- The words for the decimal point. -/
def pointWords : List Text := ["point".toList, "dot".toList]

/-- The words for an operation. -/
def operationWords : Operation → List Text
  | .add => ["plus".toList, "add".toList]
  | .sub => ["minus".toList, "subtract".toList]
  | .mul => ["times".toList, "multiply".toList, "into".toList]
  | .div => ["divide".toList, "divided by".toList, "over".toList]

/-- A whole number as it is said: in figures, or by the word for a number up to twenty in letters of
either case. -/
inductive Whole
  | figures (t : Text) (hne : t ≠ []) (hdigits : IsDigits t)
  | word (n : Fin numberWords.length) (said : Text)
      (hsaid : said.map Char.toLower = numberWords.get n)

/-- A number as it is said: a whole one, or two with the word for the point between them. -/
inductive Operand
  | whole (w : Whole)
  | fraction (w : Whole) (point : Text) (hpoint : point.map Char.toLower ∈ pointWords) (f : Whole)

/-- An operation as it is said, and a sign by which it is asked for. -/
structure SpokenOperation where
  operation : Operation
  said : Text
  isSaid : said.map Char.toLower ∈ operationWords operation
  sign : Text
  isSign : Operation.ofSign? sign = some operation

/-- Numbers with operations between them. -/
structure Utterance where
  first : Operand
  rest : List (SpokenOperation × Operand)

/-- The word for a whole number, or its figures. -/
def Whole.said : Whole → Text
  | figures t _ _ => t
  | word _ said _ => said

/-- The digits of a whole number. -/
def Whole.numeral : Whole → Text
  | figures t _ _ => t
  | word n _ _ => ofNat n

/-- The words for a number. -/
def Operand.words : Operand → List Text
  | whole w => [w.said]
  | fraction w point _ f => [w.said, point, f.said]

/-- A number in digits. -/
def Operand.numeral : Operand → Text
  | whole w => w.numeral
  | fraction w _ _ f => w.numeral ++ '.' :: f.numeral

namespace Utterance

/-- What is said, word after word. -/
def words (u : Utterance) : List Text :=
  u.first.words ++ u.rest.flatMap fun p => p.1.said :: p.2.words

/-- What is said, with single spaces between the words. -/
def said (u : Utterance) : Text := Text.join [' '] u.words

/-- The line that is meant. -/
def line (u : Utterance) : Text :=
  chainLine u.first.numeral (u.rest.map fun p => (p.1.operation, p.2.numeral))

end Utterance

/-- Two and a half divided by four. -/
def twoPointFiveByFour : Utterance where
  first := .fraction (.word ⟨2, by decide⟩ "Two".toList (by decide)) "point".toList (by decide)
    (.figures ['5'] (by decide) (List.forall_mem_singleton.2 rfl))
  rest := [(⟨.div, "divided by".toList, by decide, ['÷'], by decide⟩,
    .whole (.word ⟨4, by decide⟩ "FOUR".toList (by decide)))]

/-! ### What is read -/

/-- All words but figures; the two words for a division count as one. -/
def vocabulary : List Text :=
  numberWords ++ pointWords ++ operationWords .add ++ operationWords .sub ++ operationWords .mul ++
    operationWords .div

/-- The rules take every word by itself. -/
theorem isSpoken_of_mem_vocabulary {w : Text} (hw : w.map Char.toLower ∈ vocabulary) :
    IsSpoken w := by
  have hascii : ∀ b ∈ vocabulary, b.all (·.toNat < 128) = true := by decide
  have hbounded : ∀ b ∈ vocabulary, Bounded b := by decide
  have hseparates : ∀ b ∈ vocabulary, Separates rules b := by decide +kernel
  have hspaced : ∀ b ∈ vocabulary,
      (applyAll rules b).all (fun c => !isBlank c || c == ' ') = true := by decide +kernel
  refine ⟨fun c hc => toNat_lt_of_toLower ?_, hbounded _ hw, hseparates _ hw, fun c hc hblank => ?_⟩
  · exact of_decide_eq_true (List.all_eq_true.1 (hascii _ hw) _ (List.mem_map_of_mem hc))
  · have h := List.all_eq_true.1 (hspaced _ hw) c hc
    rw [hblank, Bool.not_true, Bool.false_or] at h
    exact eq_of_beq h

theorem map_toLower_of_isDigits {t : Text} (ht : IsDigits t) : t.map Char.toLower = t := by
  conv_rhs => rw [← List.map_id t]
  refine List.map_congr_left fun c hc => ?_
  exact of_isAsciiDigit (P := fun c => c.toLower = id c) (by decide) (ht c hc)

theorem isBlank_of_isAsciiDigit {c : Char} (hc : isAsciiDigit c = true) : isBlank c = false :=
  of_isAsciiDigit (P := (isBlank · = false)) (by decide) hc

/-- Figures are left as they are. -/
theorem isSpoken_of_isDigits {t : Text} (hne : t ≠ []) (ht : IsDigits t) :
    IsSpoken t ∧ reading t = t := by
  obtain ⟨hseparates, happly⟩ := separates_of_isDigits beginsWithLetter_rules hne ht
  have hbounded : Bounded t := by
    refine ⟨?_, ?_⟩
    · rw [List.head?_eq_some_head hne, Option.any_some,
        isBlank_of_isAsciiDigit (ht _ (List.head_mem hne))]
      rfl
    · rw [List.getLast?_eq_some_getLast hne, Option.any_some,
        isBlank_of_isAsciiDigit (ht _ (List.getLast_mem hne))]
      rfl
  refine ⟨⟨fun c hc => ?_, ?_⟩, ?_⟩
  · exact of_isAsciiDigit (P := (Char.toNat · < 128)) (by decide) (ht c hc)
  · rw [map_toLower_of_isDigits ht]
    refine ⟨hbounded, hseparates, fun c hc hblank => ?_⟩
    rw [happly] at hc
    rw [isBlank_of_isAsciiDigit (ht c hc)] at hblank
    cases hblank
  · rw [reading, map_toLower_of_isDigits ht, happly]
    exact keyboardLine_of_numeral (isNumeralChar_of_isDigits ht)

theorem Whole.isDigits (w : Whole) : w.numeral ≠ [] ∧ IsDigits w.numeral := by
  cases w with
  | figures t hne hdigits => exact ⟨hne, hdigits⟩
  | word n said hsaid => exact ⟨ofNat_ne_nil n, isDigits_ofNat n⟩

/-- The word for a number is read as its digits. -/
theorem Whole.isSpoken (w : Whole) : IsSpoken w.said ∧ reading w.said = w.numeral := by
  cases w with
  | figures t hne hdigits => exact isSpoken_of_isDigits hne hdigits
  | word n said hsaid =>
    have hall : ∀ n : Fin numberWords.length, numberWords.get n ∈ vocabulary ∧
        keyboardLine (applyAll rules (numberWords.get n)) = ofNat n := by decide +kernel
    obtain ⟨hmem, hreading⟩ := hall n
    rw [← hsaid] at hmem hreading
    exact ⟨isSpoken_of_mem_vocabulary hmem, hreading⟩

theorem isSpoken_of_mem_pointWords {w : Text} (hw : w.map Char.toLower ∈ pointWords) :
    IsSpoken w ∧ reading w = ['.'] := by
  have hall : ∀ b ∈ pointWords, b ∈ vocabulary ∧ keyboardLine (applyAll rules b) = ['.'] := by
    decide +kernel
  obtain ⟨hmem, hreading⟩ := hall _ hw
  exact ⟨isSpoken_of_mem_vocabulary hmem, hreading⟩

/-- The words for an operation are read as its sign on the keyboard. -/
theorem SpokenOperation.isSpoken (o : SpokenOperation) :
    IsSpoken o.said ∧ reading o.said = [o.operation.keyboard.char] := by
  have hall : ∀ b ∈ operationWords o.operation, b ∈ vocabulary ∧
      keyboardLine (applyAll rules b) = [o.operation.keyboard.char] := by
    cases o.operation <;> decide +kernel
  obtain ⟨hmem, hreading⟩ := hall _ o.isSaid
  exact ⟨isSpoken_of_mem_vocabulary hmem, hreading⟩

theorem Operand.isPlain_numeral (x : Operand) : Numeral.isPlain x.numeral = true := by
  cases x with
  | whole w => exact isPlain_iff.2 ⟨_, w.isDigits.1, w.isDigits.2, Or.inl rfl⟩
  | fraction w point hpoint f =>
    exact isPlain_iff.2
      ⟨_, w.isDigits.1, w.isDigits.2, Or.inr ⟨_, f.isDigits.1, f.isDigits.2, rfl⟩⟩

/-- The words for a number are read as the number. -/
theorem Operand.isSpoken (x : Operand) :
    (∀ w ∈ x.words, IsSpoken w) ∧ x.words.flatMap reading = x.numeral := by
  cases x with
  | whole w =>
    obtain ⟨hw, hreading⟩ := w.isSpoken
    exact ⟨List.forall_mem_singleton.2 hw, (List.flatMap_singleton _ _).trans hreading⟩
  | fraction w point hpoint f =>
    obtain ⟨hw, hw'⟩ := w.isSpoken
    obtain ⟨hp, hp'⟩ := isSpoken_of_mem_pointWords hpoint
    obtain ⟨hf, hf'⟩ := f.isSpoken
    refine ⟨List.forall_mem_cons.2 ⟨hw, List.forall_mem_cons.2 ⟨hp,
      List.forall_mem_singleton.2 hf⟩⟩, ?_⟩
    rw [words, List.flatMap_cons, List.flatMap_cons, List.flatMap_singleton, hw', hp', hf']
    rfl

theorem Operand.keyboardLine_numeral (x : Operand) : keyboardLine x.numeral = x.numeral :=
  keyboardLine_of_numeral (isNumeralChar_of_isPlain x.isPlain_numeral).2

/-- Operations and numbers in turn are read as they are typed. -/
theorem isSpoken_pairs (rest : List (SpokenOperation × Operand)) :
    (∀ w ∈ rest.flatMap (fun p => p.1.said :: p.2.words), IsSpoken w) ∧
      (rest.flatMap fun p => p.1.said :: p.2.words).flatMap reading =
        keyboardLine ((rest.map fun p => (p.1.operation, p.2.numeral)).flatMap pairLine) := by
  induction rest with
  | nil => exact ⟨nofun, rfl⟩
  | cons p rest ih =>
    obtain ⟨ho, ho'⟩ := p.1.isSpoken
    obtain ⟨hx, hx'⟩ := p.2.isSpoken
    refine ⟨?_, ?_⟩
    · rw [List.flatMap_cons]
      exact List.forall_mem_append.2 ⟨List.forall_mem_cons.2 ⟨ho, hx⟩, ih.1⟩
    · rw [List.flatMap_cons, List.flatMap_append, ih.2, List.flatMap_cons, ho', hx', List.map_cons,
        List.flatMap_cons, keyboardLine_append, keyboardLine_pairLine, p.2.keyboardLine_numeral]
      rfl

namespace Utterance

theorem words_ne_nil (u : Utterance) : u.words ≠ [] := by
  refine List.append_ne_nil_of_left_ne_nil ?_ _
  cases u.first <;> exact List.cons_ne_nil _ _

/-- **What is said is evaluated as the line that is meant.** -/
theorem keyboardLine_expression_said (u : Utterance) :
    keyboardLine (expression u.said) = keyboardLine u.line := by
  obtain ⟨hfirst, hfirst'⟩ := u.first.isSpoken
  obtain ⟨hrest, hrest'⟩ := isSpoken_pairs u.rest
  rw [said, keyboardLine_expression_join u.words_ne_nil (List.forall_mem_append.2 ⟨hfirst, hrest⟩),
    words, List.flatMap_append, hfirst', hrest', line, chainLine, keyboardLine_append,
    u.first.keyboardLine_numeral]

theorem keyboardLine_line_ne_nil (u : Utterance) : keyboardLine u.line ≠ [] := by
  rw [line, chainLine, keyboardLine_append, u.first.keyboardLine_numeral]
  exact List.append_ne_nil_of_left_ne_nil (isNumeralChar_of_isPlain u.first.isPlain_numeral).1 _

end Utterance

end SpokenCalculator.Phrase
