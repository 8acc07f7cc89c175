import SpokenCalculator.Proofs.Editor.Equals
import SpokenCalculator.Proofs.Phrase.Words

/-!
# Phrases read word by word

The words of a phrase are in letters of either case, which are made small first.  The rules are used
on each word by itself, and the spaces that they leave do not count where a line is evaluated.  So a
phrase is evaluated as what its words are read as, one after another.

* `lower_of_ascii`: small letters in place of capitals of the keyboard;
* `keyboardLine_trim`, `isSpaced_singleSpaced`: blanks that do not count;
* `IsSpoken`, `reading`: the words that the rules take by themselves, and what they make of them;
* `keyboardLine_expression_join`: a phrase of such words.
-/

namespace SpokenCalculator.Phrase
open Text Editor

/-! ### Letters of either case -/

theorem lowerAt_of_ascii {c : Char} (hc : c.toNat < 128) (before after : Text) :
    lowerAt before c after = [c.toLower] := by
  have hall : ∀ n < 128, Char.ofNat (smallCode capitalRuns n) = (Char.ofNat n).toLower := by
    decide +kernel
  have h := hall c.toNat hc
  rw [Char.ofNat_toNat] at h
  have hdotted : c ≠ 'İ' := by
    rintro rfl
    exact absurd hc (by decide)
  have hsigma : c ≠ 'Σ' := by
    rintro rfl
    exact absurd hc (by decide)
  rw [lowerAt, if_neg hdotted, if_neg hsigma, h]

/-- Outside of other scripts every capital is made small by itself. -/
theorem lower_of_ascii {t : Text} (ht : ∀ c ∈ t, c.toNat < 128) :
    lower t = t.map Char.toLower := by
  have hafter (before : Text) : lowerAfter before t = t.map Char.toLower := by
    induction t generalizing before with
    | nil => rfl
    | cons c t ih =>
      obtain ⟨hc, ht⟩ := List.forall_mem_cons.1 ht
      rw [lowerAfter, lowerAt_of_ascii hc, ih ht]
      rfl
  exact hafter []

theorem toNat_lt_of_toLower {c : Char} (hc : c.toLower.toNat < 128) : c.toNat < 128 := by
  unfold Char.toLower at hc
  split at hc
  · rename_i hcapital
    have h : c.toNat ≤ 'Z'.toNat := hcapital.2
    exact Nat.lt_of_le_of_lt h (by decide)
  · exact hc

/-! ### Blanks -/

/-- The text begins and ends with a character that is not blank. -/
def Bounded (t : Text) : Prop :=
  t.head?.any (!isBlank ·) = true ∧ t.getLast?.any (!isBlank ·) = true

instance (t : Text) : Decidable (Bounded t) :=
  inferInstanceAs (Decidable (t.head?.any (!isBlank ·) = true ∧ t.getLast?.any (!isBlank ·) = true))

theorem Bounded.ne_nil {t : Text} (ht : Bounded t) : t ≠ [] := by
  rintro rfl
  cases ht.1

theorem Bounded.append_space {a t : Text} (ha : Bounded a) (ht : Bounded t) :
    Bounded (a ++ ' ' :: t) := by
  refine ⟨?_, ?_⟩
  · rw [List.head?_append_of_ne_nil _ ha.ne_nil]
    exact ha.1
  · rw [List.getLast?_append_of_ne_nil _ (List.cons_ne_nil ' ' t),
      List.getLast?_cons_of_ne_nil ht.ne_nil]
    exact ht.2

theorem trim_of_bounded {t : Text} (ht : Bounded t) : trim t = t := by
  obtain ⟨c, r, rfl⟩ := List.exists_cons_of_ne_nil ht.ne_nil
  have hc : isBlank c = false := by simpa using ht.1
  rw [trim, List.dropWhile_cons_of_neg (by rw [hc]; exact Bool.false_ne_true)]
  refine dropTail_eq_self fun d hd => ?_
  have hlast := ht.2
  rw [Option.mem_def.1 hd] at hlast
  simpa using hlast

/-- Every blank is a space. -/
def IsSpaced (t : Text) : Prop := ∀ c ∈ t, isBlank c = true → c = ' '

/-- What is made of a text part by part, and nothing of a space, is made of it without the blanks at
its ends. -/
theorem eq_of_trim {f : Text → Text} (happend : ∀ a b, f (a ++ b) = f a ++ f b)
    (hspace : f [' '] = []) {t : Text} (ht : IsSpaced t) : f (trim t) = f t := by
  have hnil : f [] = [] := List.append_right_eq_self.1 (happend [] []).symm
  have hspaces {u : Text} (hu : ∀ c ∈ u, c = ' ') : f u = [] := by
    induction u with
    | nil => exact hnil
    | cons c u ih =>
      obtain ⟨hc, hrest⟩ := List.forall_mem_cons.1 hu
      rw [hc, ← List.singleton_append, happend, hspace, ih hrest, List.nil_append]
  obtain ⟨before, after, hbefore, hafter, heq⟩ := exists_eq_append_trim t
  rw [heq, IsSpaced] at ht
  have hhead := hspaces fun c hc => ht c (List.mem_append_left _ hc) (hbefore c hc)
  have htail := hspaces fun c hc =>
    ht c (List.mem_append_right _ (List.mem_append_right _ hc)) (hafter c hc)
  conv_rhs => rw [heq]
  rw [happend, happend, hhead, htail, List.nil_append, List.append_nil]

theorem keyboardLine_cons_space (t : Text) : keyboardLine (' ' :: t) = keyboardLine t := rfl

theorem keyboardLine_trim {t : Text} (ht : IsSpaced t) :
    keyboardLine (trim t) = keyboardLine t :=
  eq_of_trim keyboardLine_append rfl ht

/-- To put one space in the place of several changes nothing that is evaluated. -/
theorem isSpaced_singleSpaced {t : Text} (ht : IsSpaced t) :
    IsSpaced (singleSpaced t) ∧ keyboardLine (singleSpaced t) = keyboardLine t := by
  induction t with
  | nil => exact ⟨ht, rfl⟩
  | cons c t ih =>
    obtain ⟨hc, ht⟩ := List.forall_mem_cons.1 ht
    obtain ⟨hspaced, hline⟩ := ih ht
    rw [singleSpaced]
    split_ifs with hblank hnext
    · rw [hc hblank, keyboardLine_cons_space]
      exact ⟨hspaced, hline⟩
    · rw [hc hblank, keyboardLine_cons_space, keyboardLine_cons_space]
      exact ⟨List.forall_mem_cons.2 ⟨fun _ => rfl, hspaced⟩, hline⟩
    · refine ⟨List.forall_mem_cons.2 ⟨hc, hspaced⟩, ?_⟩
      rw [← List.singleton_append, keyboardLine_append, hline, ← keyboardLine_append,
        List.singleton_append]

/-! ### Words -/

/-- Small letters that the rules take by themselves, and of which they make no other blanks than
spaces. -/
structure IsBlock (b : Text) : Prop where
  bounded : Bounded b
  separates : Separates rules b
  spaced : IsSpaced (applyAll rules b)

/-- A word in letters of either case. -/
structure IsSpoken (w : Text) : Prop where
  ascii : ∀ c ∈ w, c.toNat < 128
  isBlock : IsBlock (w.map Char.toLower)

/-- What the line gets from a word. -/
def reading (w : Text) : Text := keyboardLine (applyAll rules (w.map Char.toLower))

theorem beginsWithLetter_rules : ∀ rule ∈ rules, rule.BeginsWithLetter := by decide +kernel

/-- What is kept around a space is kept by words with spaces between them. -/
theorem join_induction {P : Text → Prop} (h : ∀ {a t}, P a → P t → P (a ++ ' ' :: t))
    {words : List Text} (hne : words ≠ []) (hwords : ∀ w ∈ words, P w) :
    P (Text.join [' '] words) := by
  induction words with
  | nil => exact absurd rfl hne
  | cons w words ih =>
    obtain ⟨hw, hwords⟩ := List.forall_mem_cons.1 hwords
    cases words with
    | nil => exact hw
    | cons v words =>
      rw [join_cons_cons, List.append_assoc]
      exact h hw (ih (List.cons_ne_nil v words) hwords)

theorem map_join (f : Char → Char) (hspace : f ' ' = ' ') (words : List Text) :
    (Text.join [' '] words).map f = Text.join [' '] (words.map (List.map f)) := by
  induction words with
  | nil => rfl
  | cons w words ih =>
    cases words with
    | nil => rfl
    | cons v words =>
      rw [join_cons_cons, List.map_append, List.map_append, ih, List.map_singleton, hspace]
      rfl

theorem keyboardLine_join (words : List Text) :
    keyboardLine (Text.join [' '] words) = words.flatMap keyboardLine := by
  induction words with
  | nil => rfl
  | cons w words ih =>
    cases words with
    | nil => rw [List.flatMap_singleton]; rfl
    | cons v words =>
      rw [join_cons_cons, keyboardLine_append, keyboardLine_append, ih, List.flatMap_cons]
      exact congrArg (· ++ _) (List.append_nil _)

/-- **A phrase is evaluated as what its words are read as, one after another.** -/
theorem keyboardLine_expression_join {words : List Text} (hne : words ≠ [])
    (h : ∀ w ∈ words, IsSpoken w) :
    keyboardLine (expression (Text.join [' '] words)) = words.flatMap reading := by
  have hblock : ∀ b ∈ words.map (List.map Char.toLower), IsBlock b := by
    intro b hb
    obtain ⟨w, hw, rfl⟩ := List.mem_map.1 hb
    exact (h w hw).isBlock
  have hne' : words.map (List.map Char.toLower) ≠ [] := by simpa using hne
  have hascii : ∀ c ∈ Text.join [' '] words, c.toNat < 128 := by
    refine join_induction (P := fun t => ∀ c ∈ t, c.toNat < 128) (fun ha ht => ?_) hne
      fun w hw => (h w hw).ascii
    exact List.forall_mem_append.2 ⟨ha, List.forall_mem_cons.2 ⟨by decide, ht⟩⟩
  have hlower : lower (Text.join [' '] words) =
      Text.join [' '] (words.map (List.map Char.toLower)) := by
    rw [lower_of_ascii hascii, map_join _ (by decide)]
  have hbounded := join_induction Bounded.append_space hne' fun b hb => (hblock b hb).bounded
  have happly := applyAll_join beginsWithLetter_rules hne' fun b hb => (hblock b hb).separates
  have hspaced : IsSpaced (Text.join [' ']
      ((words.map (List.map Char.toLower)).map (applyAll rules))) := by
    refine join_induction (P := IsSpaced) (fun ha ht => ?_) (by simpa using hne) ?_
    · exact List.forall_mem_append.2 ⟨ha, List.forall_mem_cons.2 ⟨fun _ => rfl, ht⟩⟩
    · intro u hu
      obtain ⟨b, hb, rfl⟩ := List.mem_map.1 hu
      exact (hblock b hb).spaced
  -- from the inside: small letters, no blanks to trim, the rules, and spaces that do not count
  obtain ⟨hsingle, hline⟩ := isSpaced_singleSpaced hspaced
  rw [expression, hlower, trim_of_bounded hbounded, happly, keyboardLine_trim hsingle, hline,
    keyboardLine_join, List.flatMap_map, List.flatMap_map]
  rfl

end SpokenCalculator.Phrase
