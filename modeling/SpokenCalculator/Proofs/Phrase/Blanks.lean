import SpokenCalculator.Json.Printer
import SpokenCalculator.Phrase.Expression
import SpokenCalculator.Proofs.Text.Numeral

/-!
# Words between blanks

A text is cut at its blanks into the words between them.  With one space for every run of blanks
and none at the ends, the text is its words with a space between each two.  A change that is made on
both sides of every blank by itself is made word by word.

* `words`, `words_append_blank`: the words of a text, before and after a blank;
* `exists_words`: the first word, what stands around it, and the words that follow;
* `trim_singleSpaced`: one space for every run of blanks;
* `words_of_blankwise`: a change made word by word;
* `words_lower`: small letters are put in place of capitals word by word.
-/

namespace SpokenCalculator.Phrase
open Text

/-- The parts of a text between blanks. -/
def words (t : Text) : List Text := (t.splitOnP isBlank).filter (· ≠ [])

@[simp] theorem words_nil : words [] = [] := by simp [words, List.splitOnP_nil]

/-- **The words before and after a blank are the words of a text.** -/
theorem words_append_blank {c : Char} (hc : isBlank c = true) (a b : Text) :
    words (a ++ c :: b) = words a ++ words b := by
  rw [words, List.splitOnP_append_cons a b hc, List.filter_append, words, words]

theorem words_cons_blank {c : Char} (hc : isBlank c = true) (t : Text) :
    words (c :: t) = words t := by
  simpa using words_append_blank hc [] t

theorem words_append_of_blanks {g : Text} (hg : ∀ c ∈ g, isBlank c = true) (t : Text) :
    words (g ++ t) = words t := by
  induction g with
  | nil => rfl
  | cons c g ih =>
    obtain ⟨hc, hg⟩ := List.forall_mem_cons.1 hg
    rw [List.cons_append, words_cons_blank hc, ih hg]

theorem words_of_blanks {g : Text} (hg : ∀ c ∈ g, isBlank c = true) : words g = [] := by
  simpa using words_append_of_blanks hg []

/-- A text that is not empty and has no blanks. -/
structure IsSolid (w : Text) : Prop where
  ne_nil : w ≠ []
  not_isBlank : ∀ c ∈ w, isBlank c = false

instance (w : Text) : Decidable (IsSolid w) :=
  decidable_of_iff (w ≠ [] ∧ w.all (!isBlank ·) = true)
    ⟨fun h => ⟨h.1, by simpa using h.2⟩, fun h => ⟨h.ne_nil, by simpa using h.not_isBlank⟩⟩

/-- A text that is empty or begins with a blank. -/
def OpensBlank (t : Text) : Prop := ∀ c ∈ t.head?, isBlank c = true

theorem IsSolid.words_eq {w : Text} (hw : IsSolid w) : words w = [w] := by
  rw [words, List.splitOnP_eq_singleton hw.not_isBlank]
  simp [hw.ne_nil]

theorem IsSolid.words_append {w r : Text} (hw : IsSolid w) (hr : OpensBlank r) :
    words (w ++ r) = w :: words r := by
  cases r with
  | nil => rw [List.append_nil, hw.words_eq, words_nil]
  | cons c r =>
    have hc : isBlank c = true := hr c rfl
    rw [words_append_blank hc, hw.words_eq, words_cons_blank hc, List.singleton_append]

/-- A part without blanks in front of what is empty or begins with a blank. -/
theorem exists_solid_part (t : Text) :
    ∃ q r, t = q ++ r ∧ (∀ c ∈ q, isBlank c = false) ∧ OpensBlank r := by
  refine ⟨t.takeWhile (!isBlank ·), t.dropWhile (!isBlank ·),
    List.takeWhile_append_dropWhile.symm, ?_, ?_⟩
  · intro c hc
    simpa using List.mem_takeWhile_imp hc
  · intro c hc
    have hnot := List.head?_dropWhile_not (!isBlank ·) t
    rw [Option.mem_def.1 hc] at hnot
    simpa using hnot

/-- **A text is blank, or it is its first word between blanks and what follows.** -/
theorem exists_words (t : Text) :
    (∀ c ∈ t, isBlank c = true) ∨
      ∃ g w r, t = g ++ (w ++ r) ∧ (∀ c ∈ g, isBlank c = true) ∧ IsSolid w ∧ OpensBlank r := by
  by_cases hblank : t.dropWhile isBlank = []
  · exact Or.inl (List.dropWhile_eq_nil_iff.1 hblank)
  · obtain ⟨q, r, hqr, hq, hr⟩ := exists_solid_part (t.dropWhile isBlank)
    refine Or.inr ⟨t.takeWhile isBlank, q, r, ?_, fun c hc => List.mem_takeWhile_imp hc,
      ⟨?_, hq⟩, hr⟩
    · rw [← hqr, List.takeWhile_append_dropWhile]
    · rintro rfl
      obtain rfl : t.dropWhile isBlank = r := hqr
      have hhead := hr _ (List.head_mem_head? hblank)
      have hnot := List.head_dropWhile_not isBlank hblank
      exact absurd hhead (by simp [hnot])

/-- What follows the same beginning has the same words, if all has. -/
theorem words_eq_of_append {w r s : Text} (hw : IsSolid w) (h : words (w ++ r) = words (w ++ s)) :
    words r = words s := by
  obtain ⟨p, r, rfl, hp, hr⟩ := exists_solid_part r
  obtain ⟨q, s, rfl, hq, hs⟩ := exists_solid_part s
  have hsolid {p : Text} (hp : ∀ c ∈ p, isBlank c = false) : IsSolid (w ++ p) :=
    ⟨by simp [hw.ne_nil], List.forall_mem_append.2 ⟨hw.not_isBlank, hp⟩⟩
  rw [← List.append_assoc, ← List.append_assoc, (hsolid hp).words_append hr,
    (hsolid hq).words_append hs] at h
  obtain ⟨hpq, hrs⟩ := List.cons.inj h
  obtain rfl := List.append_cancel_left hpq
  by_cases hnil : p = []
  · simpa [hnil] using hrs
  · rw [IsSolid.words_append ⟨hnil, hp⟩ hr, IsSolid.words_append ⟨hnil, hq⟩ hs, hrs]

/-! ### One space for every run of blanks -/

theorem singleSpaced_append {w : Text} (hw : ∀ c ∈ w, isBlank c = false) (r : Text) :
    singleSpaced (w ++ r) = w ++ singleSpaced r := by
  induction w with
  | nil => rfl
  | cons c w ih =>
    obtain ⟨hc, hw⟩ := List.forall_mem_cons.1 hw
    rw [List.cons_append, singleSpaced, if_neg (by simp [hc]), ih hw, List.cons_append]

theorem singleSpaced_cons_blank {c : Char} (hc : isBlank c = true) (t : Text) :
    singleSpaced (c :: t) = ' ' :: singleSpaced (t.dropWhile isBlank) := by
  induction t generalizing c with
  | nil => simp [singleSpaced, hc]
  | cons d t ih =>
    by_cases hd : isBlank d = true
    · rw [singleSpaced, if_pos hc, if_pos (by simp [hd]), ih hd, List.dropWhile_cons_of_pos hd]
    · rw [singleSpaced, if_pos hc, if_neg (by simpa using hd), List.dropWhile_cons_of_neg hd]

theorem dropWhile_singleSpaced (t : Text) :
    (singleSpaced t).dropWhile isBlank = singleSpaced (t.dropWhile isBlank) := by
  induction t with
  | nil => rfl
  | cons c t ih =>
    by_cases hc : isBlank c = true
    · rw [List.dropWhile_cons_of_pos hc, ← ih, singleSpaced, if_pos hc]
      split
      · rfl
      · exact List.dropWhile_cons_of_pos (by decide)
    · rw [List.dropWhile_cons_of_neg hc, singleSpaced, if_neg hc, List.dropWhile_cons_of_neg hc]

theorem dropTail_append (p : Char → Bool) (a b : Text) :
    dropTail p (a ++ b) = if dropTail p b = [] then dropTail p a else a ++ dropTail p b := by
  rw [dropTail, List.reverse_append, List.dropWhile_append]
  by_cases hb : b.reverse.dropWhile p = []
  · simp [dropTail, hb]
  · simp [dropTail, hb]

theorem IsSolid.dropTail_eq {w : Text} (hw : IsSolid w) : dropTail isBlank w = w :=
  dropTail_eq_self fun c hc => hw.not_isBlank c (List.mem_of_mem_getLast? hc)

theorem join_eq_nil_iff {ws : List Text} (hws : ∀ w ∈ ws, w ≠ []) :
    join [' '] ws = [] ↔ ws = [] := by
  rcases ws with _ | ⟨v, _ | ⟨w, ws⟩⟩
  · simp [join]
  · simp [join, hws v (by simp)]
  · simp [join_cons_cons]

theorem isSolid_of_mem_words {t w : Text} (h : w ∈ words t) : IsSolid w := by
  induction hn : t.length using Nat.strong_induction_on generalizing t with
  | _ n ih =>
    rcases exists_words t with hblank | ⟨g, v, r, rfl, hg, hv, hr⟩
    · rw [words_of_blanks hblank] at h
      cases h
    · rw [words_append_of_blanks hg, hv.words_append hr] at h
      rcases List.mem_cons.1 h with rfl | h
      · exact hv
      · have hlength := List.length_pos_of_ne_nil hv.ne_nil
        exact ih r.length (by rw [← hn]; simp; omega) h rfl

theorem words_join {ws : List Text} (hws : ∀ w ∈ ws, IsSolid w) : words (join [' '] ws) = ws := by
  induction ws with
  | nil => rw [join, words_nil]
  | cons w ws ih =>
    obtain ⟨hw, hws⟩ := List.forall_mem_cons.1 hws
    cases ws with
    | nil => exact hw.words_eq
    | cons v ws =>
      rw [join_cons_cons, List.append_assoc, List.singleton_append,
        words_append_blank (by decide), hw.words_eq, ih hws, List.singleton_append]

/-- **With one space for every run of blanks and none at the ends a text is its words with spaces
between them.** -/
theorem trim_singleSpaced (t : Text) : trim (singleSpaced t) = join [' '] (words t) := by
  rw [trim, dropWhile_singleSpaced]
  induction hn : t.length using Nat.strong_induction_on generalizing t with
  | _ n ih =>
    rcases exists_words t with hblank | ⟨g, w, r, rfl, hg, hw, hr⟩
    · rw [List.dropWhile_eq_nil_iff.2 hblank, words_of_blanks hblank]
      rfl
    · obtain ⟨c, w', rfl⟩ := List.exists_cons_of_ne_nil hw.ne_nil
      have hdrop : (g ++ (c :: w' ++ r)).dropWhile isBlank = c :: w' ++ r := by
        rw [List.dropWhile_append_of_pos hg, List.cons_append, List.dropWhile_cons_of_neg]
        simp [hw.not_isBlank c]
      rw [hdrop, singleSpaced_append hw.not_isBlank, words_append_of_blanks hg,
        hw.words_append hr, dropTail_append, hw.dropTail_eq]
      cases r with
      | nil => simp [singleSpaced, join]
      | cons d r =>
        have hd : isBlank d = true := hr d rfl
        have hrest := ih r.length (by rw [← hn]; simp; omega) r rfl
        have hspace : isBlank ' ' = true := by decide
        rw [singleSpaced_cons_blank hd, ← List.singleton_append, dropTail_append, hrest,
          words_cons_blank hd]
        cases hwords : words r with
        | nil => simp [join, dropTail, hspace]
        | cons v vs =>
          have hne := (join_eq_nil_iff fun u hu => (isSolid_of_mem_words (t := r) hu).ne_nil).not.2
            (hwords ▸ List.cons_ne_nil v vs)
          rw [hwords] at hne
          rw [if_neg hne, if_neg (by simp), join_cons_cons, List.append_assoc]

/-- Texts that differ in their blanks alone have the same words. -/
theorem trim_singleSpaced_eq_iff {t u : Text} :
    trim (singleSpaced t) = trim (singleSpaced u) ↔ words t = words u := by
  rw [trim_singleSpaced, trim_singleSpaced]
  constructor
  · intro h
    rw [← words_join fun w hw => isSolid_of_mem_words (t := t) hw, h,
      words_join fun w hw => isSolid_of_mem_words (t := u) hw]
  · intro h
    rw [h]

theorem words_trim (t : Text) : words (trim t) = words t := by
  obtain ⟨before, after, hbefore, hafter, heq⟩ := exists_eq_append_trim t
  conv_rhs => rw [heq]
  rw [words_append_of_blanks hbefore]
  cases after with
  | nil => rw [List.append_nil]
  | cons c after =>
    obtain ⟨hc, hafter⟩ := List.forall_mem_cons.1 hafter
    rw [words_append_blank hc, words_of_blanks hafter, List.append_nil]

/-! ### Word by word -/

/-- **What is made on both sides of a blank by itself is made word by word.** -/
theorem words_of_blankwise {f : Text → Text} (hnil : f [] = [])
    (hf : ∀ a c b, isBlank c = true → words (f (a ++ c :: b)) = words (f a) ++ words (f b))
    (t : Text) : words (f t) = (words t).flatMap fun w => words (f w) := by
  induction hn : t.length using Nat.strong_induction_on generalizing t with
  | _ n ih =>
    obtain ⟨q, r, rfl, hq, hr⟩ := exists_solid_part t
    have hpart : words (f q) = (words q).flatMap fun w => words (f w) := by
      by_cases hnil' : q = []
      · simp [hnil', hnil]
      · rw [IsSolid.words_eq ⟨hnil', hq⟩, List.flatMap_singleton]
    cases r with
    | nil => rwa [List.append_nil]
    | cons c r =>
      have hc : isBlank c = true := hr c rfl
      rw [hf q c r hc, words_append_blank hc, List.flatMap_append, hpart,
        ih r.length (by rw [← hn]; simp; omega) r rfl]

/-! ### Small letters -/

/-- The code points of the blanks. -/
def blankCodes : List Nat :=
  List.range' 0x09 5 ++ List.range' 0x1c 5 ++ List.range' 0x2000 11 ++
    [0x85, 0xa0, 0x1680, 0x2028, 0x2029, 0x202f, 0x205f, 0x3000]

/-- What holds of all blanks by their code points holds of every blank. -/
theorem of_isBlank {P : Char → Prop} (h : ∀ n ∈ blankCodes, P (Char.ofNat n)) {c : Char}
    (hc : isBlank c = true) : P c := by
  have hn : c.toNat ∈ blankCodes := by
    simp only [isBlank, Bool.or_eq_true, Bool.and_eq_true, decide_eq_true_eq, beq_iff_eq] at hc
    simp only [blankCodes, List.mem_append, List.mem_range'_1, List.mem_cons, List.not_mem_nil,
      or_false]
    omega
  have hself := h c.toNat hn
  rwa [Char.ofNat_toNat] at hself

/-- A blank is no letter, no mark within a word, and no capital. -/
theorem not_letter_of_isBlank {c : Char} (hc : isBlank c = true) :
    isWord c = false ∧ isMark c = false ∧ isCased c = false ∧ c ≠ 'İ' ∧ c ≠ 'Σ' ∧
      Char.ofNat (smallCode capitalRuns c.toNat) = c :=
  of_isBlank (P := fun c => isWord c = false ∧ isMark c = false ∧ isCased c = false ∧ c ≠ 'İ' ∧
    c ≠ 'Σ' ∧ Char.ofNat (smallCode capitalRuns c.toNat) = c) (by decide +kernel) hc

theorem reachesCased_append {c : Char} (hc : isBlank c = true) (a b : Text) :
    reachesCased (a ++ c :: b) = reachesCased a := by
  obtain ⟨-, hmark, hcased, -⟩ := not_letter_of_isBlank hc
  rw [reachesCased, reachesCased, List.dropWhile_append]
  by_cases ha : a.dropWhile isMark = []
  · simp [ha, hmark, hcased]
  · obtain ⟨d, r, hd⟩ := List.exists_cons_of_ne_nil ha
    simp [hd]

theorem lowerAfter_append_blank {c : Char} (hc : isBlank c = true) (before a b : Text) :
    lowerAfter before (a ++ c :: b) =
      lowerAfter before a ++ c :: lowerAfter (c :: (a.reverse ++ before)) b := by
  induction a generalizing before with
  | nil =>
    obtain ⟨-, -, -, hdotted, hsigma, hsmall⟩ := not_letter_of_isBlank hc
    simp [lowerAfter, lowerAt, hdotted, hsigma, hsmall]
  | cons d a ih =>
    have hlower : lowerAt before d (a ++ c :: b) = lowerAt before d a := by
      rw [lowerAt, endsWord, reachesCased_append hc, lowerAt, endsWord]
    simp [lowerAfter, hlower, ih]

/-- Nothing in front of a blank makes a difference to the letters after it. -/
theorem lowerAfter_blank {c : Char} (hc : isBlank c = true) (near far b : Text) :
    lowerAfter (near ++ c :: far) b = lowerAfter near b := by
  induction b generalizing near with
  | nil => rfl
  | cons d b ih =>
    have hlower : lowerAt (near ++ c :: far) d b = lowerAt near d b := by
      rw [lowerAt, endsWord, reachesCased_append hc, lowerAt, endsWord]
    rw [lowerAfter, lowerAfter, hlower, ← List.cons_append, ih]

/-- **Small letters are put in place of capitals word by word.** -/
theorem words_lower (t : Text) : words (lower t) = (words t).flatMap fun w => words (lower w) := by
  refine words_of_blankwise rfl (fun a c b hc => ?_) t
  have hlower : lower (a ++ c :: b) = lower a ++ c :: lower b := by
    have hfar := lowerAfter_blank hc [] a.reverse b
    rw [lower, lowerAfter_append_blank hc, List.append_nil, lower, lower, ← hfar, List.nil_append]
  rw [hlower, words_append_blank hc]

end SpokenCalculator.Phrase
