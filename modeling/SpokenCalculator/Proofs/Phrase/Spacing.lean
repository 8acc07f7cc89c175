import SpokenCalculator.Proofs.Phrase.Blanks
import SpokenCalculator.Proofs.Phrase.Pass

/-!
# Spaces in spoken phrases

The blanks of a phrase are made single spaces after its words have been replaced.  All rules but one
are for single words and are used word by word, so that the blanks between them do not count.  The
phrase for a division is of two words, which are taken up with exactly one space between them.

* `divisions`: how the two words for a division are spaced, wherever nothing else is between them;
* `applyAll_rules`: the phrase for a division first, and then the single words;
* `words_replaceOthers`: single words are replaced word by word;
* `words_applyAll_eq_iff`: texts of the same words, side by side;
* `expression_eq_iff`: phrases that differ in their blanks alone.
-/

namespace SpokenCalculator.Phrase
open Text

/-! ### The two words for a division -/

/-- A piece of blanks. -/
def isBlankPiece (p : Text) : Bool := p.all isBlank

/-- The blanks in front of some pieces. -/
def gap (ps : List Text) : List Text := ps.takeWhile isBlankPiece

/-- The first piece behind the blanks in front. -/
def behind (ps : List Text) : Option Text := (ps.dropWhile isBlankPiece).head?

/-- For each place where only blanks stand between the two words for a division, whether they are
one space. -/
def divisions : List Text → List Bool
  | [] => []
  | p :: ps =>
    if p = "divided".toList ∧ gap ps ≠ [] ∧ behind ps = some "by".toList then
      (gap ps = [[' ']]) :: divisions ps
    else divisions ps

/-- The phrase for a division. -/
def division : Entry := ⟨"divided".toList, [[' '], "by".toList], " / ".toList⟩

/-- All single words of the rules. -/
def others : List Entry := (entries rules).erase division

theorem perm_division : (entries rules).Perm (division :: others) :=
  List.perm_cons_erase (by decide)

theorem independent_division : Independent ([division] ++ others) :=
  independent_rules.perm perm_division

theorem spelling_of_mem_others :
    ∀ e ∈ others, e.spelling = [e.first] ∧ e.first ≠ "divided".toList := by decide

theorem pieces_divided : pieces "divided".toList = ["divided".toList] := by decide

theorem pieces_by : pieces " by".toList = division.more := by decide

/-- A text with the phrase for a division replaced. -/
def replaceDivision (t : Text) : Text := (pass [division] t).flatten

/-- A text with all single words replaced. -/
def replaceOthers (t : Text) : Text := (pass others t).flatten

/-- The phrase for a division can be replaced before all single words. -/
theorem applyAll_rules (t : Text) : applyAll rules t = replaceOthers (replaceDivision t) := by
  rw [applyAll_eq_pass independent_rules, independent_rules.pass_perm perm_division,
    replaceOthers, replaceDivision, independent_division.pass_append]
  rfl

/-! ### Single words -/

theorem beginsWord_of_opensBlank {t : Text} (ht : OpensBlank t) : beginsWord t = false := by
  cases t with
  | nil => rfl
  | cons c t => exact (not_letter_of_isBlank (ht c rfl)).1

theorem notMem_spelling_of_isBlank {c : Char} (hc : isBlank c = true) :
    ∀ e ∈ others, [c] ∉ e.spelling := by
  intro e he hmem
  obtain ⟨hsingle, -⟩ := spelling_of_mem_others e he
  have hwhole := independent_division.of_append_right.1 e he
  rw [hsingle, List.mem_singleton] at hmem
  have hword : isWord c = true := by
    have hbegins := hwhole.2.1
    rw [← beginsWord_flatten (hwhole.1.trans hsingle), ← hmem] at hbegins
    exact hbegins
  rw [(not_letter_of_isBlank hc).1] at hword
  cases hword

/-- Single words are replaced on both sides of a blank by themselves. -/
theorem replaceOthers_append_blank {c : Char} (hc : isBlank c = true) (a b : Text) :
    replaceOthers (a ++ c :: b) = replaceOthers a ++ c :: replaceOthers b := by
  have hout := notMem_spelling_of_isBlank hc
  have hfirst : ∀ e ∈ others, e.first ∉ [[c]] := fun e he hmem =>
    hout e he (by rw [← List.mem_singleton.1 hmem]; exact List.mem_cons_self)
  have hself := passAfter_append_of_notMem hfirst (pieces b)
  rw [List.singleton_append] at hself
  rw [replaceOthers, pass, pieces_append (not_letter_of_isBlank hc).1,
    passAfter_append_cons hout (Nat.zero_le _), hself, List.flatten_append]
  rfl

/-- What a word between blanks is replaced by. -/
def replacing (w : Text) : List Text := words (replaceOthers w)

/-- **Single words are replaced word by word.** -/
theorem words_replaceOthers (t : Text) : words (replaceOthers t) = (words t).flatMap replacing := by
  refine words_of_blankwise rfl (fun a c b hc => ?_) t
  rw [replaceOthers_append_blank hc, words_append_blank hc]

theorem replaceOthers_append_divided {p : Text} (hp : Seam p "divided".toList) :
    replaceOthers (p ++ "divided".toList) = replaceOthers p ++ "divided".toList := by
  have hout : ∀ e ∈ others, "divided".toList ∉ e.spelling := by
    intro e he
    obtain ⟨hsingle, hne⟩ := spelling_of_mem_others e he
    rw [hsingle, List.mem_singleton]
    exact hne.symm
  have hfirst : ∀ e ∈ others, e.first ∉ ["divided".toList] := fun e he hmem =>
    (spelling_of_mem_others e he).2 (List.mem_singleton.1 hmem)
  have hself := passAfter_append_of_notMem hfirst []
  rw [List.append_nil, passAfter_nil, List.append_nil] at hself
  rw [replaceOthers, pass, pieces_append_of_seam hp, pieces_divided,
    passAfter_append_cons hout (Nat.zero_le _), hself, List.flatten_append, List.flatten_singleton]
  rfl

/-! ### The phrase for a division -/

theorem prefix_division_iff {ps : List Text} :
    division.more <+: ps ↔ gap ps = [[' ']] ∧ behind ps = some "by".toList := by
  have hspace : isBlankPiece [' '] = true := by decide
  have hby : ¬ isBlankPiece "by".toList = true := by decide
  constructor
  · rintro ⟨qs, rfl⟩
    show gap ([' '] :: "by".toList :: qs) = _ ∧ behind ([' '] :: "by".toList :: qs) = _
    rw [gap, behind, List.takeWhile_cons_of_pos hspace, List.takeWhile_cons_of_neg hby,
      List.dropWhile_cons_of_pos hspace, List.dropWhile_cons_of_neg hby]
    exact ⟨rfl, rfl⟩
  · rintro ⟨hgap, hbehind⟩
    obtain ⟨qs, hqs⟩ := List.head?_eq_some_iff.1 hbehind
    rw [← List.takeWhile_append_dropWhile (p := isBlankPiece) (l := ps), hqs]
    exact ⟨qs, by rw [gap] at hgap; rw [hgap]; rfl⟩

section Pieces
variable {m ps : List Text}

/-- Pieces without a blank are left as they are, unless the last begins the phrase. -/
theorem passAfter_division_append (hm : ∀ p ∈ m, isBlankPiece p = false)
    (h : m.getLast? = some "divided".toList → ¬ division.more <+: ps) :
    passAfter [division] 0 (m ++ ps) = m ++ passAfter [division] 0 ps := by
  induction m with
  | nil => rfl
  | cons p m ih =>
    obtain ⟨-, hrest⟩ := List.forall_mem_cons.1 hm
    have hfind : [division].find? (·.fits p (m ++ ps)) = none := by
      rw [List.find?_eq_none]
      intro e he hfits
      obtain rfl := List.mem_singleton.1 he
      obtain ⟨hp, hmore⟩ := List.cons_prefix_cons.1 (Entry.fits_iff.1 hfits)
      cases m with
      | nil => exact h (by rw [← hp]; rfl) hmore
      | cons q m =>
        have hq := (List.cons_prefix_cons.1 hmore).1
        exact absurd (hrest q List.mem_cons_self) (by rw [← hq]; decide)
    rw [List.cons_append, passAfter_of_find?_eq_none hfind, List.cons_append, ih hrest]
    intro hlast
    cases m with
    | nil => cases hlast
    | cons q m => exact h (by rw [List.getLast?_cons_cons, hlast])

theorem passAfter_division (qs : List Text) :
    passAfter [division] 0 ("divided".toList :: (division.more ++ qs)) =
      pieces " / ".toList ++ passAfter [division] 0 qs := by
  have hfits : division.fits "divided".toList (division.more ++ qs) = true :=
    Entry.fits_iff.2 (List.prefix_append division.spelling qs)
  have hfind : [division].find? (·.fits "divided".toList (division.more ++ qs)) = some division :=
    List.find?_cons_of_pos hfits
  rw [passAfter_of_find?_eq_some hfind, passAfter_eq_drop, List.drop_left]
  rfl

theorem divisions_append (hm : ∀ p ∈ m, isBlankPiece p = false) (ps : List Text) :
    divisions (m ++ ps) =
      if m.getLast? = some "divided".toList ∧ gap ps ≠ [] ∧ behind ps = some "by".toList then
        decide (gap ps = [[' ']]) :: divisions ps
      else divisions ps := by
  induction m with
  | nil =>
    rw [if_neg fun h => absurd h.1 (by decide)]
    rfl
  | cons p m ih =>
    obtain ⟨-, hrest⟩ := List.forall_mem_cons.1 hm
    cases m with
    | nil =>
      simp only [List.getLast?_singleton, Option.some.injEq]
      rfl
    | cons q m =>
      have hq : gap (q :: m ++ ps) = [] :=
        List.takeWhile_cons_of_neg (by simp [hrest q List.mem_cons_self])
      rw [List.cons_append, divisions, if_neg (fun hgap => hgap.2.1 hq), ih hrest,
        List.getLast?_cons_cons]

end Pieces

/-! ### Word by word -/

theorem isSolid_of_mem_pieces {w p : Text} (hw : IsSolid w) (hp : p ∈ pieces w) : IsSolid p := by
  obtain ⟨as, bs, hpieces⟩ := List.append_of_mem hp
  obtain ⟨a, v, rfl, -, hv, -⟩ := pieces_eq_append_iff.1 hpieces
  have hcut : pieces v = [p] ++ bs := hv
  obtain ⟨p', b, rfl, hp', -, -⟩ := pieces_eq_append_iff.1 hcut
  obtain rfl : p = p' := by rw [← flatten_pieces p', hp', List.flatten_singleton]
  exact ⟨ne_nil_of_pieces_eq hp', fun c hc => hw.not_isBlank c (by simp [hc])⟩

theorem IsSolid.isBlankPiece_eq {p : Text} (hp : IsSolid p) : isBlankPiece p = false := by
  obtain ⟨c, r, rfl⟩ := List.exists_cons_of_ne_nil hp.ne_nil
  simp [isBlankPiece, hp.not_isBlank c]

theorem IsSolid.pieces {w : Text} (hw : IsSolid w) :
    ∀ p ∈ Phrase.pieces w, isBlankPiece p = false :=
  fun _ hp => (isSolid_of_mem_pieces hw hp).isBlankPiece_eq

theorem pieces_cons_blank {c : Char} (hc : isBlank c = true) (t : Text) :
    pieces (c :: t) = [c] :: pieces t :=
  extend_of_not_isWord (not_letter_of_isBlank hc).1 (pieces t)

theorem pieces_append_opensBlank {w r : Text} (hr : OpensBlank r) :
    pieces (w ++ r) = pieces w ++ pieces r :=
  pieces_append_of_seam (seam_of_beginsWord (beginsWord_of_opensBlank hr))

/-- Blanks in front are left as they are, and nothing is divided by them. -/
theorem replaceDivision_of_blanks {g : Text} (hg : ∀ c ∈ g, isBlank c = true) (t : Text) :
    replaceDivision (g ++ t) = g ++ replaceDivision t ∧
      divisions (pieces (g ++ t)) = divisions (pieces t) := by
  induction g with
  | nil => exact ⟨rfl, rfl⟩
  | cons c g ih =>
    obtain ⟨hc, hg⟩ := List.forall_mem_cons.1 hg
    obtain ⟨hreplace, hdivisions⟩ := ih hg
    have hne : [c] ≠ "divided".toList := by simp
    have hout : ∀ e ∈ [division], e.first ∉ [[c]] := by
      intro e he hmem
      rw [List.mem_singleton.1 he] at hmem
      exact hne (List.mem_singleton.1 hmem).symm
    have hself := passAfter_append_of_notMem hout (pieces (g ++ t))
    rw [List.singleton_append] at hself
    constructor
    · rw [List.cons_append, replaceDivision, pass, pieces_cons_blank hc, hself,
        List.cons_append, List.cons_append, ← hreplace]
      rfl
    · rw [List.cons_append, pieces_cons_blank hc, divisions, if_neg (fun h => hne h.1), hdivisions]

/-- The words of a text, with the rules used on them. -/
def result (t : Text) : List Text := (words (replaceDivision t)).flatMap replacing

theorem words_applyAll (t : Text) : words (applyAll rules t) = result t := by
  rw [applyAll_rules, words_replaceOthers, result]

/-- The rules are used on a word by itself unless it begins the phrase for a division. -/
theorem result_append {g w r : Text} (hg : ∀ c ∈ g, isBlank c = true) (hw : IsSolid w)
    (hr : OpensBlank r)
    (h : (pieces w).getLast? = some "divided".toList → ¬ division.more <+: pieces r) :
    result (g ++ (w ++ r)) = replacing w ++ result r := by
  have hreplace : replaceDivision (w ++ r) = w ++ replaceDivision r := by
    rw [replaceDivision, pass, pieces_append_opensBlank hr,
      passAfter_division_append hw.pieces h, List.flatten_append, flatten_pieces]
    rfl
  have hopens : OpensBlank (replaceDivision r) := by
    cases r with
    | nil => exact hr
    | cons c r =>
      have hc : isBlank c = true := hr c rfl
      have hfront := (replaceDivision_of_blanks (g := [c]) (by simp [hc]) r).1
      rw [List.singleton_append] at hfront
      rw [hfront]
      intro d hd
      rwa [← Option.some.inj hd]
  rw [result, (replaceDivision_of_blanks hg _).1, words_append_of_blanks hg, hreplace,
    hw.words_append hopens, List.flatMap_cons, result]

/-- The phrase for a division is replaced by its sign. -/
theorem result_append_division {g p s : Text} (hg : ∀ c ∈ g, isBlank c = true)
    (hw : IsSolid (p ++ "divided".toList)) (hp : Seam p "divided".toList)
    (hs : beginsWord s = false) :
    result (g ++ (p ++ "divided".toList ++ (" by".toList ++ s))) =
      words (replaceOthers p) ++ "/".toList :: result s := by
  have hpieces : pieces (p ++ "divided".toList ++ (" by".toList ++ s)) =
      pieces p ++ "divided".toList :: (division.more ++ pieces s) := by
    have hopens : OpensBlank (" by".toList ++ s) := fun c hc => by
      rw [← Option.some.inj hc]
      decide
    rw [pieces_append_opensBlank hopens, pieces_append_of_seam hp, pieces_divided,
      pieces_append_of_seam (seam_of_beginsWord hs), pieces_by, List.append_assoc,
      List.singleton_append]
  have hfront : ∀ q ∈ pieces p, isBlankPiece q = false := fun q hq =>
    hw.pieces q (by rw [pieces_append_of_seam hp]; exact List.mem_append_left _ hq)
  have hreplace : replaceDivision (p ++ "divided".toList ++ (" by".toList ++ s)) =
      p ++ (" / ".toList ++ replaceDivision s) := by
    have hnext : ¬ division.more <+: "divided".toList :: (division.more ++ pieces s) :=
      fun h => absurd (List.cons_prefix_cons.1 h).1 (by decide)
    rw [replaceDivision, pass, hpieces, passAfter_division_append hfront fun _ => hnext,
      passAfter_division, List.flatten_append, List.flatten_append, flatten_pieces,
      flatten_pieces]
    rfl
  have hsign : words ("/".toList ++ ' ' :: replaceDivision s) =
      "/".toList :: words (replaceDivision s) := by
    have hslash : IsSolid "/".toList := by decide
    rw [words_append_blank (by decide), hslash.words_eq, List.singleton_append]
  have hslash : replacing "/".toList = ["/".toList] := by decide
  rw [result, (replaceDivision_of_blanks hg _).1, words_append_of_blanks hg, hreplace]
  show (words (p ++ ' ' :: ("/".toList ++ ' ' :: replaceDivision s))).flatMap replacing = _
  rw [words_append_blank (by decide), hsign, List.flatMap_append, List.flatMap_cons, hslash,
    ← words_replaceOthers, result, List.singleton_append]

theorem gap_pieces_ne_nil {r : Text} (hr : OpensBlank r) (hne : r ≠ []) : gap (pieces r) ≠ [] := by
  obtain ⟨c, r, rfl⟩ := List.exists_cons_of_ne_nil hne
  have hc : isBlank c = true := hr c rfl
  have hpiece : isBlankPiece [c] = true := by simp [isBlankPiece, hc]
  rw [pieces_cons_blank hc, gap, List.takeWhile_cons_of_pos hpiece]
  exact List.cons_ne_nil _ _

theorem divisions_append_of_isSolid {g w r : Text} (hg : ∀ c ∈ g, isBlank c = true)
    (hw : IsSolid w) (hr : OpensBlank r) :
    divisions (pieces (g ++ (w ++ r))) =
      if (pieces w).getLast? = some "divided".toList ∧ behind (pieces r) = some "by".toList then
        decide (gap (pieces r) = [[' ']]) :: divisions (pieces r)
      else divisions (pieces r) := by
  have hgap : gap (pieces r) ≠ [] ∧ behind (pieces r) = some "by".toList ↔
      behind (pieces r) = some "by".toList := by
    refine and_iff_right_of_imp fun hbehind => gap_pieces_ne_nil hr ?_
    rintro rfl
    cases hbehind
  rw [(replaceDivision_of_blanks hg _).2, pieces_append_opensBlank hr, divisions_append hw.pieces]
  simp only [hgap]

/-- What stands behind the blanks in front is given by the words. -/
theorem behind_pieces (t : Text) :
    behind (pieces t) = (words t).head?.bind fun w => (pieces w).head? := by
  have hblanks {g : Text} (hg : ∀ c ∈ g, isBlank c = true) (u : Text) :
      behind (pieces (g ++ u)) = behind (pieces u) := by
    induction g with
    | nil => rfl
    | cons c g ih =>
      obtain ⟨hc, hg⟩ := List.forall_mem_cons.1 hg
      have hpiece : isBlankPiece [c] = true := by simp [isBlankPiece, hc]
      rw [List.cons_append, pieces_cons_blank hc, behind, List.dropWhile_cons_of_pos hpiece]
      exact ih hg
  rcases exists_words t with hblank | ⟨g, w, r, rfl, hg, hw, hr⟩
  · have hnil := hblanks hblank []
    rw [List.append_nil] at hnil
    rw [hnil, words_of_blanks hblank]
    rfl
  · obtain ⟨c, w', rfl⟩ := List.exists_cons_of_ne_nil hw.ne_nil
    obtain ⟨q, qs, hq⟩ := exists_pieces_cons c w'
    have hpiece := hw.pieces (c :: q) (hq ▸ List.mem_cons_self)
    rw [hblanks hg, words_append_of_blanks hg, hw.words_append hr, pieces_append_opensBlank hr, hq,
      behind, List.cons_append, List.dropWhile_cons_of_neg (by simp [hpiece])]
    simp [hq]

/-- Words that are continued in different ways. -/
theorem words_append_ne {d e : Text} (hd : IsSolid d) (he : e ≠ d) (t : Text) (as bs : List Text) :
    words (t ++ d) ++ as ≠ words t ++ e :: bs := by
  induction hn : t.length using Nat.strong_induction_on generalizing t with
  | _ n ih =>
    obtain ⟨q, r, rfl, hq, hr⟩ := exists_solid_part t
    cases r with
    | nil =>
      rw [List.append_nil]
      by_cases hnil : q = []
      · subst hnil
        rw [List.nil_append, hd.words_eq, words_nil]
        exact fun h => he (List.cons.inj h).1.symm
      · have hall : IsSolid (q ++ d) :=
          ⟨by simp [hnil], List.forall_mem_append.2 ⟨hq, hd.not_isBlank⟩⟩
        rw [hall.words_eq, IsSolid.words_eq ⟨hnil, hq⟩]
        exact fun h => hd.ne_nil (List.append_right_eq_self.1 (List.cons.inj h).1)
    | cons c r =>
      have hc : isBlank c = true := hr c rfl
      rw [List.append_assoc, List.cons_append, words_append_blank hc, words_append_blank hc,
        List.append_assoc, List.append_assoc]
      exact fun h => ih r.length (by rw [← hn]; simp; omega) r rfl (List.append_cancel_left h)

/-- A word that ends with the beginning of the phrase for a division. -/
theorem exists_of_getLast? {w : Text} (h : (pieces w).getLast? = some "divided".toList) :
    ∃ p, w = p ++ "divided".toList ∧ Seam p "divided".toList := by
  obtain ⟨ps, hps⟩ := List.getLast?_eq_some_iff.1 h
  obtain ⟨p, d, rfl, -, hd, hseam⟩ := pieces_eq_append_iff.1 hps
  obtain rfl : "divided".toList = d := by rw [← flatten_pieces d, hd, List.flatten_singleton]
  exact ⟨p, rfl, hseam⟩

/-- A text that goes on with the end of the phrase for a division. -/
theorem exists_of_prefix_division {r : Text} (h : division.more <+: pieces r) :
    ∃ s, r = " by".toList ++ s ∧ beginsWord s = false := by
  obtain ⟨qs, hqs⟩ := h
  obtain ⟨b, s, rfl, hb, -, hseam⟩ := pieces_eq_append_iff.1 hqs.symm
  obtain rfl : " by".toList = b := by rw [← flatten_pieces b, hb]; rfl
  have hends : endsInWord " by".toList = true := by decide
  rw [Seam, hends, Bool.true_and] at hseam
  exact ⟨s, rfl, hseam⟩

theorem result_of_blanks {g : Text} (hg : ∀ c ∈ g, isBlank c = true) :
    result g = [] ∧ divisions (pieces g) = [] := by
  obtain ⟨hreplace, hdivisions⟩ := replaceDivision_of_blanks hg []
  rw [List.append_nil] at hreplace hdivisions
  refine ⟨?_, hdivisions⟩
  rw [result, hreplace, words_append_of_blanks hg]
  show (words []).flatMap replacing = []
  rw [words_nil, List.flatMap_nil]

/-- Where the two words for a division have one space between them. -/
theorem exists_result_of_gap {g p r : Text} (hg : ∀ c ∈ g, isBlank c = true)
    (hw : IsSolid (p ++ "divided".toList)) (hp : Seam p "divided".toList)
    (hgap : gap (pieces r) = [[' ']]) (hbehind : behind (pieces r) = some "by".toList) :
    ∃ s, r = " by".toList ++ s ∧ divisions (pieces r) = divisions (pieces s) ∧
      result (g ++ (p ++ "divided".toList ++ r)) =
        words (replaceOthers p) ++ "/".toList :: result s := by
  obtain ⟨s, rfl, hs⟩ := exists_of_prefix_division (prefix_division_iff.2 ⟨hgap, hbehind⟩)
  refine ⟨s, rfl, ?_, result_append_division hg hw hp hs⟩
  have hfront : pieces (" by".toList ++ s) = [' '] :: "by".toList :: pieces s := by
    rw [pieces_append_of_seam (seam_of_beginsWord hs), pieces_by]
    rfl
  rw [hfront, divisions, if_neg fun h => absurd h.1 (by decide), divisions,
    if_neg fun h => absurd h.1 (by decide)]

/-- Where they have not, the first of them stays. -/
theorem result_of_gap_ne {g p r : Text} (hg : ∀ c ∈ g, isBlank c = true)
    (hw : IsSolid (p ++ "divided".toList)) (hp : Seam p "divided".toList) (hr : OpensBlank r)
    (hgap : gap (pieces r) ≠ [[' ']]) :
    result (g ++ (p ++ "divided".toList ++ r)) =
      words (replaceOthers p ++ "divided".toList) ++ result r := by
  rw [result_append hg hw hr fun _ hmore => hgap (prefix_division_iff.1 hmore).1, replacing,
    replaceOthers_append_divided hp]

/-- A place for a division in two texts of the same words: the results differ at once where only one
of them has one space. -/
theorem result_eq_iff_of_place {g g' p r s : Text} (hg : ∀ c ∈ g, isBlank c = true)
    (hg' : ∀ c ∈ g', isBlank c = true) (hw : IsSolid (p ++ "divided".toList))
    (hp : Seam p "divided".toList) (hr : OpensBlank r) (hs : OpensBlank s)
    (hbr : behind (pieces r) = some "by".toList) (hbs : behind (pieces s) = some "by".toList)
    (hrest : result r = result s ↔ divisions (pieces r) = divisions (pieces s))
    (hnext : ∀ r' s', r = " by".toList ++ r' → s = " by".toList ++ s' →
      (result r' = result s' ↔ divisions (pieces r') = divisions (pieces s'))) :
    result (g ++ (p ++ "divided".toList ++ r)) = result (g' ++ (p ++ "divided".toList ++ s)) ↔
      decide (gap (pieces r) = [[' ']]) :: divisions (pieces r) =
        decide (gap (pieces s) = [[' ']]) :: divisions (pieces s) := by
  have hdivided : IsSolid "divided".toList := by decide
  have hslash : "/".toList ≠ "divided".toList := by decide
  by_cases hgr : gap (pieces r) = [[' ']] <;> by_cases hgs : gap (pieces s) = [[' ']]
  · obtain ⟨r', hr', hdr, hresult⟩ := exists_result_of_gap hg hw hp hgr hbr
    obtain ⟨s', hs', hds, hresult'⟩ := exists_result_of_gap hg' hw hp hgs hbs
    rw [hresult, hresult', hgr, hgs, hdr, hds, List.append_cancel_left_eq]
    simpa using hnext r' s' hr' hs'
  -- the sign stands in one of the results where the first word of the phrase is in the other
  · obtain ⟨r', -, -, hresult⟩ := exists_result_of_gap hg hw hp hgr hbr
    rw [hresult, result_of_gap_ne hg' hw hp hs hgs]
    constructor
    · intro h
      exact absurd h.symm (words_append_ne hdivided hslash _ _ _)
    · simp [hgr, hgs]
  · obtain ⟨s', -, -, hresult⟩ := exists_result_of_gap hg' hw hp hgs hbs
    rw [hresult, result_of_gap_ne hg hw hp hr hgr]
    constructor
    · intro h
      exact absurd h (words_append_ne hdivided hslash _ _ _)
    · simp [hgr, hgs]
  · rw [result_of_gap_ne hg hw hp hr hgr, result_of_gap_ne hg' hw hp hs hgs]
    simpa [hgr, hgs] using hrest

/-- **Texts of the same words are read alike exactly if the words for a division are spaced
alike.** -/
theorem words_applyAll_eq_iff {t u : Text} (h : words t = words u) :
    words (applyAll rules t) = words (applyAll rules u) ↔
      divisions (pieces t) = divisions (pieces u) := by
  rw [words_applyAll, words_applyAll]
  induction hn : t.length using Nat.strong_induction_on generalizing t u with
  | _ n ih =>
    rcases exists_words t with ht | ⟨g, w, r, rfl, hg, hw, hr⟩ <;>
      rcases exists_words u with hu | ⟨g', w', s, rfl, hg', hw', hs⟩
    · simp [result_of_blanks ht, result_of_blanks hu]
    · rw [words_of_blanks ht, words_append_of_blanks hg', hw'.words_append hs] at h
      cases h
    · rw [words_of_blanks hu, words_append_of_blanks hg, hw.words_append hr] at h
      cases h
    · rw [words_append_of_blanks hg, words_append_of_blanks hg', hw.words_append hr,
        hw'.words_append hs] at h
      obtain ⟨rfl, hrs⟩ := List.cons.inj h
      have hbehind : behind (pieces r) = behind (pieces s) := by
        rw [behind_pieces, behind_pieces, hrs]
      have hlength := List.length_pos_of_ne_nil hw.ne_nil
      have hrest := ih r.length (by rw [← hn]; simp; omega) hrs rfl
      rw [divisions_append_of_isSolid hg hw hr, divisions_append_of_isSolid hg' hw hs, ← hbehind]
      by_cases hplace : (pieces w).getLast? = some "divided".toList ∧
          behind (pieces r) = some "by".toList
      · obtain ⟨p, rfl, hp⟩ := exists_of_getLast? hplace.1
        rw [if_pos hplace, if_pos hplace]
        refine result_eq_iff_of_place hg hg' hw hp hr hs hplace.2 (hbehind ▸ hplace.2) hrest ?_
        rintro r' s' rfl rfl
        have hby : IsSolid "by".toList := by decide
        have hspace (v : Text) : words (" by".toList ++ v) = words ("by".toList ++ v) :=
          words_cons_blank (by decide) _
        rw [hspace, hspace] at hrs
        exact ih r'.length (by rw [← hn]; simp; omega) (words_eq_of_append hby hrs) rfl
      · have hlast {v : Text} (hv : behind (pieces v) = behind (pieces r)) :
            (pieces w).getLast? = some "divided".toList → ¬ division.more <+: pieces v :=
          fun hlast hmore => hplace ⟨hlast, hv ▸ (prefix_division_iff.1 hmore).2⟩
        rw [if_neg hplace, if_neg hplace, result_append hg hw hr (hlast rfl),
          result_append hg' hw hs (hlast hbehind.symm), List.append_cancel_left_eq]
        exact hrest

/-- **Phrases that differ in their blanks alone stand for the same expression exactly if the two
words for a division are spaced alike in them.**  At each place both have one space between the two,
or neither has. -/
theorem expression_eq_iff {t u : Text} (h : trim (singleSpaced t) = trim (singleSpaced u)) :
    expression t = expression u ↔
      divisions (pieces (trim (lower t))) = divisions (pieces (trim (lower u))) := by
  rw [trim_singleSpaced_eq_iff] at h
  have hwords : words (trim (lower t)) = words (trim (lower u)) := by
    rw [words_trim, words_trim, words_lower, words_lower, h]
  rw [expression, expression, trim_singleSpaced_eq_iff, words_applyAll_eq_iff hwords]

/-- A tab in front of a word makes no difference, and two spaces there make none. -/
theorem expression_eq_five_plus_three :
    trim (singleSpaced " five\tplus  three".toList) =
        trim (singleSpaced "five plus three ".toList) ∧
      (expression " five\tplus  three".toList = expression "five plus three ".toList ↔
        divisions (pieces (trim (lower " five\tplus  three".toList))) =
          divisions (pieces (trim (lower "five plus three ".toList)))) ∧
      expression " five\tplus  three".toList = "5 + 3".toList := by
  have h : trim (singleSpaced " five\tplus  three".toList) =
      trim (singleSpaced "five plus three ".toList) := by decide
  exact ⟨h, expression_eq_iff h, by decide⟩

/-- With two spaces between the words for a division they are not taken for one. -/
theorem expression_divided_by_ne :
    trim (singleSpaced "twenty divided  by four".toList) =
        trim (singleSpaced "twenty divided by four".toList) ∧
      expression "twenty divided  by four".toList = "20 divided by 4".toList ∧
      expression "twenty divided by four".toList = "20 / 4".toList := by decide

end SpokenCalculator.Phrase
