import Mathlib.Data.List.Infix
import SpokenCalculator.Json.Printer
import SpokenCalculator.Phrase.Expression
import SpokenCalculator.Proofs.Text.Numeral

/-!
# Rules on words that stand apart

A space ends every word, so that a text is cut at a space into the pieces before and after it.  A
rule is used on both sides by themselves, unless a spelling of several words is begun before the
space and not ended there.  Where that does not happen for one rule after another, all rules are
used on both sides by themselves.

* `pieces_append`: the pieces of a text around a space;
* `Rule.Completes`, `Rule.apply_append_space`: one rule around a space;
* `Separates`, `applyAll_join`: rules in order on words between spaces;
* `separates_of_isDigits`: digits stay as they are.
-/

namespace SpokenCalculator.Phrase
open Text

/-! ### Pieces -/

theorem extend_of_not_isWord {c : Char} (hc : isWord c = false) (ps : List Text) :
    extend c ps = [c] :: ps := by
  cases ps with
  | nil => rfl
  | cons p ps => rw [extend, hc, Bool.false_and, if_neg Bool.false_ne_true]

theorem extend_append {d : Char} (hd : isWord d = false) (c : Char) (ps qs : List Text) :
    extend c (ps ++ [d] :: qs) = extend c ps ++ [d] :: qs := by
  have hbegins : beginsWord [d] = false := hd
  cases ps with
  | nil =>
    show (if isWord c && beginsWord [d] then _ else _) = _
    rw [hbegins, Bool.and_false, if_neg Bool.false_ne_true]
    rfl
  | cons p ps =>
    rw [List.cons_append, extend, extend]
    split <;> rfl

/-- A character that belongs to no word divides the pieces of a text. -/
theorem pieces_append {d : Char} (hd : isWord d = false) (a t : Text) :
    pieces (a ++ d :: t) = pieces a ++ [d] :: pieces t := by
  induction a with
  | nil => exact extend_of_not_isWord hd (pieces t)
  | cons c a ih => rw [List.cons_append, pieces, ih, extend_append hd, pieces]

/-- A word is one piece. -/
theorem pieces_of_isWord {w : Text} (hne : w ≠ []) (hw : ∀ c ∈ w, isWord c = true) :
    pieces w = [w] := by
  induction w with
  | nil => exact absurd rfl hne
  | cons c w ih =>
    obtain ⟨hc, hw⟩ := List.forall_mem_cons.1 hw
    cases w with
    | nil => rfl
    | cons d w =>
      have hd : beginsWord (d :: w) = true := hw d (List.mem_cons_self ..)
      rw [pieces, ih (List.cons_ne_nil d w) hw, extend, hc, hd, Bool.and_self, if_pos rfl]

/-- Digits are one piece, which begins with no letter. -/
theorem pieces_of_isDigits {t : Text} (hne : t ≠ []) (ht : IsDigits t) :
    pieces t = [t] ∧ t.head?.any Char.isLower = false := by
  refine ⟨pieces_of_isWord hne fun c hc => ?_, ?_⟩
  · exact of_isAsciiDigit (P := (isWord · = true)) (by decide) (ht c hc)
  · obtain ⟨c, r, rfl⟩ := List.exists_cons_of_ne_nil hne
    exact of_isAsciiDigit (P := (Char.isLower · = false)) (by decide)
      (ht c (List.mem_cons_self ..))

/-! ### One rule -/

namespace Rule

/-- Every spelling begins with a small letter. -/
def BeginsWithLetter (rule : Rule) : Prop :=
  ∀ s ∈ rule.spellings, (s.head?.bind List.head?).any Char.isLower = true

instance (rule : Rule) : Decidable rule.BeginsWithLetter :=
  inferInstanceAs (Decidable (∀ s ∈ rule.spellings,
    (s.head?.bind List.head?).any Char.isLower = true))

/-- A spelling that is begun by the last pieces of a text is ended by them. -/
def Completes (rule : Rule) (ps : List Text) : Prop :=
  ∀ s ∈ rule.spellings, ∀ tail ∈ ps.tails, tail ≠ [] → tail <+: s → tail = s

instance (rule : Rule) (ps : List Text) : Decidable (rule.Completes ps) :=
  inferInstanceAs (Decidable (∀ s ∈ rule.spellings, ∀ tail ∈ ps.tails,
    tail ≠ [] → tail <+: s → tail = s))

variable {rule : Rule} {ps : List Text} {p : Text}

theorem Completes.tail (h : rule.Completes (p :: ps)) : rule.Completes ps := by
  intro s hs tail htail
  refine h s hs tail ((List.mem_tails _ _).2 ?_)
  exact ((List.mem_tails _ _).1 htail).trans (List.suffix_cons p ps)

/-- What follows the last pieces is not read. -/
theorem reach?_append {s : List Text} (h : p :: ps <+: s → p :: ps = s) (qs : List Text) :
    reach? p (ps ++ qs) s = reach? p ps s := by
  cases s with
  | nil => rfl
  | cons first more =>
    rw [reach?, reach?]
    congr 1
    rw [eq_iff_iff, List.isPrefixOf_iff_prefix, List.isPrefixOf_iff_prefix]
    refine and_congr_right fun hfirst => ⟨fun hmore => ?_, fun hmore => ?_⟩
    -- a spelling that runs on behind the end was begun by the last pieces
    · rcases List.prefix_or_prefix_of_prefix hmore (List.prefix_append ps qs) with hle | hge
      · exact hle
      · subst hfirst
        rw [(List.cons.inj (h ((List.prefix_cons_inj first).2 hge))).2]
    · exact hmore.trans (List.prefix_append ps qs)

theorem match?_append (h : rule.Completes (p :: ps)) (qs : List Text) :
    rule.match? p (ps ++ qs) = rule.match? p ps := by
  have hself : p :: ps ∈ (p :: ps).tails := (List.mem_tails _ _).2 List.suffix_rfl
  rw [match?, match?, ← List.head?_filterMap, ← List.head?_filterMap]
  refine congrArg List.head? (List.filterMap_congr fun s hs => ?_)
  exact reach?_append (h s hs _ hself (List.cons_ne_nil p ps)) qs

/-- A spelling takes up no more pieces than there are. -/
theorem le_of_match? {n : Nat} (h : rule.match? p ps = some n) : n ≤ ps.length := by
  obtain ⟨s, -, hreach⟩ := List.exists_of_findSome?_eq_some h
  cases s with
  | nil => cases hreach
  | cons first more =>
    rw [reach?] at hreach
    split at hreach
    · rename_i hfirst
      rw [← Option.some.inj hreach]
      exact (List.isPrefixOf_iff_prefix.1 hfirst.2).length_le
    · cases hreach

theorem applyAfter_append (h : rule.Completes ps) {n : Nat} (hn : n ≤ ps.length)
    (qs : List Text) :
    rule.applyAfter n (ps ++ qs) = rule.applyAfter n ps ++ rule.applyAfter 0 qs := by
  induction ps generalizing n with
  | nil =>
    rw [Nat.le_zero.1 hn, List.nil_append]
    rfl
  | cons p ps ih =>
    cases n with
    | succ n => exact ih h.tail (Nat.le_of_succ_le_succ hn)
    | zero =>
      rw [List.cons_append, applyAfter, applyAfter, match?_append h]
      cases hmatch : rule.match? p ps with
      | none => exact congrArg (p :: ·) (ih h.tail (Nat.zero_le _))
      -- the pieces that a spelling takes up all stand before the end
      | some k => exact congrArg (rule.replacement :: ·) (ih h.tail (le_of_match? hmatch))

/-- A piece that does not begin with a letter begins no spelling. -/
theorem head_ne_of_not_letter (hrule : rule.BeginsWithLetter)
    (hp : p.head?.any Char.isLower = false) {s : List Text} (hs : s ∈ rule.spellings) :
    s.head? ≠ some p := by
  intro hhead
  have h := hrule s hs
  rw [hhead, Option.bind_some, hp] at h
  cases h

theorem match?_of_not_letter (hrule : rule.BeginsWithLetter)
    (hp : p.head?.any Char.isLower = false) (ps : List Text) : rule.match? p ps = none := by
  refine List.findSome?_eq_none_iff.2 fun s hs => ?_
  cases s with
  | nil => rfl
  | cons first more =>
    rw [reach?, if_neg]
    rintro ⟨rfl, -⟩
    exact head_ne_of_not_letter hrule hp hs rfl

theorem applyAfter_cons_of_not_letter (hrule : rule.BeginsWithLetter)
    (hp : p.head?.any Char.isLower = false) (ps : List Text) :
    rule.applyAfter 0 (p :: ps) = p :: rule.applyAfter 0 ps := by
  rw [applyAfter, match?_of_not_letter hrule hp]

/-- **A rule is used on both sides of a space by themselves.** -/
theorem apply_append_space (hrule : rule.BeginsWithLetter) {a : Text}
    (ha : rule.Completes (pieces a)) (t : Text) :
    rule.apply (a ++ ' ' :: t) = rule.apply a ++ ' ' :: rule.apply t := by
  have hspace : isWord ' ' = false := by decide
  rw [apply, pieces_append hspace, applyAfter_append ha (Nat.zero_le _),
    applyAfter_cons_of_not_letter hrule (by decide), List.flatten_append, List.flatten_cons]
  rfl

theorem completes_of_not_letter (hrule : rule.BeginsWithLetter)
    (hp : p.head?.any Char.isLower = false) : rule.Completes [p] := by
  intro s hs tail htail hne hprefix
  have hp' : tail = [p] := by
    rcases List.suffix_cons_iff.1 ((List.mem_tails _ _).1 htail) with h | h
    · exact h
    · exact absurd (List.suffix_nil.1 h) hne
  obtain ⟨more, rfl⟩ := hp' ▸ hprefix
  exact absurd rfl (head_ne_of_not_letter hrule hp hs)

end Rule

/-! ### Rules in order -/

/-- Each rule in order completes its spellings in a text. -/
def Separates : List Rule → Text → Prop
  | [], _ => True
  | rule :: rules, t => rule.Completes (pieces t) ∧ Separates rules (rule.apply t)

instance decidableSeparates : (rules : List Rule) → (t : Text) → Decidable (Separates rules t)
  | [], _ => .isTrue trivial
  | rule :: rules, t =>
    @instDecidableAnd _ _ inferInstance (decidableSeparates rules (rule.apply t))

theorem applyAll_cons (rule : Rule) (rs : List Rule) (t : Text) :
    applyAll (rule :: rs) t = applyAll rs (rule.apply t) := rfl

theorem applyAll_append_space {rs : List Rule} (hrs : ∀ rule ∈ rs, rule.BeginsWithLetter)
    {a : Text} (ha : Separates rs a) (t : Text) :
    applyAll rs (a ++ ' ' :: t) = applyAll rs a ++ ' ' :: applyAll rs t := by
  induction rs generalizing a t with
  | nil => rfl
  | cons rule rs ih =>
    obtain ⟨hrule, hrs⟩ := List.forall_mem_cons.1 hrs
    rw [applyAll_cons, rule.apply_append_space hrule ha.1, ih hrs ha.2]
    rfl

/-- **Rules are used on words between spaces by themselves.** -/
theorem applyAll_join {rs : List Rule} (hrs : ∀ rule ∈ rs, rule.BeginsWithLetter)
    {words : List Text} (hne : words ≠ []) (h : ∀ w ∈ words, Separates rs w) :
    applyAll rs (Text.join [' '] words) = Text.join [' '] (words.map (applyAll rs)) := by
  induction words with
  | nil => exact absurd rfl hne
  | cons w words ih =>
    obtain ⟨hw, hwords⟩ := List.forall_mem_cons.1 h
    cases words with
    | nil => rfl
    | cons v words =>
      have hjoin := ih (List.cons_ne_nil v words) hwords
      rw [List.map_cons] at hjoin
      rw [List.map_cons, List.map_cons, join_cons_cons, join_cons_cons, ← hjoin,
        List.append_assoc, List.append_assoc]
      exact applyAll_append_space hrs hw _

/-- Digits are left as they are by rules that begin with a letter. -/
theorem separates_of_isDigits {rs : List Rule} (hrs : ∀ rule ∈ rs, rule.BeginsWithLetter)
    {t : Text} (hne : t ≠ []) (ht : IsDigits t) : Separates rs t ∧ applyAll rs t = t := by
  obtain ⟨hpieces, hletter⟩ := pieces_of_isDigits hne ht
  induction rs with
  | nil => exact ⟨trivial, rfl⟩
  | cons rule rs ih =>
    obtain ⟨hrule, hrs⟩ := List.forall_mem_cons.1 hrs
    have happly : rule.apply t = t := by
      rw [Rule.apply, hpieces, Rule.applyAfter_cons_of_not_letter hrule hletter]
      exact List.append_nil t
    obtain ⟨hseparates, hall⟩ := ih hrs
    refine ⟨⟨?_, happly.symm ▸ hseparates⟩, by rw [applyAll_cons, happly, hall]⟩
    rw [hpieces]
    exact Rule.completes_of_not_letter hrule hletter

end SpokenCalculator.Phrase
