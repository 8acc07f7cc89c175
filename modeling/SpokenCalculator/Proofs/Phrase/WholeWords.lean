import SpokenCalculator.Proofs.Phrase.Pass
import SpokenCalculator.Text.Search

/-!
# Whole words replaced at once

The rules for spoken words are used one after another.  The text is the same when it is read once
from left to right and every word that stands by itself is replaced on the way.  A rule leaves the
words of all others where they stand in what is around them, so that any order of the rules gives
this text.

* `replaceAll`: one reading of a text, character by character;
* `replaceAll_eq_pass`: what is read by characters and by pieces;
* `StandsIn`, `standsIn_flatten_pass_iff`: the places of a word before and after a rule;
* `applyAll_eq_replaceAll`: the rules in any order.
-/

namespace SpokenCalculator.Phrase
open Text

/-! ### Reading by characters -/

/-- A text begins with the word, and no word character follows it there. -/
def standsAt (word t : Text) : Bool := ((after? word t).map fun rest => !beginsWord rest).getD false

/-- The text after a number of characters that a word has taken up, with every word in it replaced.
No word stands behind a word character. -/
def replaceAfter (es : List Entry) : Nat → Bool → Text → Text
  | _, _, [] => []
  | n + 1, _, c :: t => replaceAfter es n (isWord c) t
  | 0, inside, c :: t =>
    match es.find? fun e => !inside && standsAt e.word (c :: t) with
    | some e => e.replacement ++ replaceAfter es (e.word.length - 1) (isWord c) t
    | none => c :: replaceAfter es 0 (isWord c) t

/-- A text in which every word that stands by itself is replaced. -/
def replaceAll (es : List Entry) (t : Text) : Text := replaceAfter es 0 false t

theorem standsAt_iff {word t : Text} :
    standsAt word t = true ↔ ∃ v, t = word ++ v ∧ beginsWord v = false := by
  constructor
  · intro h
    cases hafter : after? word t with
    | none => simp [standsAt, hafter] at h
    | some v => exact ⟨v, after?_eq_some_iff.1 hafter, by simpa [standsAt, hafter] using h⟩
  · rintro ⟨v, rfl, hv⟩
    simp [standsAt, hv]

theorem Entry.IsWhole.standsAt_iff {e : Entry} (he : e.IsWhole) (t : Text) :
    standsAt e.word t = true ↔ e.spelling <+: pieces t := by
  rw [Phrase.standsAt_iff]
  constructor
  · rintro ⟨v, rfl, hv⟩
    rw [pieces_append_of_seam (seam_of_beginsWord hv), he.1]
    exact List.prefix_append _ _
  · intro h
    obtain ⟨v, htext, hv, -⟩ := he.exists_of_isPrefix h
    exact ⟨v, htext, hv⟩

section Reading
variable {es : List Entry}

theorem replaceAfter_of_find?_eq_some {inside : Bool} {c : Char} {t : Text} {e : Entry}
    (h : es.find? (fun e => !inside && standsAt e.word (c :: t)) = some e) :
    replaceAfter es 0 inside (c :: t) =
      e.replacement ++ replaceAfter es (e.word.length - 1) (isWord c) t := by
  rw [replaceAfter, h]

theorem replaceAfter_of_find?_eq_none {inside : Bool} {c : Char} {t : Text}
    (h : es.find? (fun e => !inside && standsAt e.word (c :: t)) = none) :
    replaceAfter es 0 inside (c :: t) = c :: replaceAfter es 0 (isWord c) t := by
  rw [replaceAfter, h]

/-- What a word has taken up is passed over. -/
theorem replaceAfter_length (c : Char) (w v : Text) :
    replaceAfter es w.length (isWord c) (w ++ v) =
      replaceAfter es 0 (endsInWord (c :: w)) v := by
  induction w generalizing c with
  | nil => rfl
  | cons d w ih => exact ih d

/-- Behind a word character no word stands. -/
theorem replaceAfter_true (c : Char) (t : Text) :
    replaceAfter es 0 true (c :: t) = c :: replaceAfter es 0 (isWord c) t :=
  replaceAfter_of_find?_eq_none (List.find?_eq_none.2 fun _ _ => by simp)

/-- Where no word is begun, it makes no difference what stands in front. -/
theorem replaceAfter_of_beginsWord (hes : ∀ e ∈ es, e.IsWhole) (inside : Bool) {v : Text}
    (hv : beginsWord v = false) : replaceAfter es 0 inside v = replaceAfter es 0 false v := by
  cases v with
  | nil => rfl
  | cons d v =>
    have hnone (b : Bool) : es.find? (fun e => !b && standsAt e.word (d :: v)) = none := by
      refine List.find?_eq_none.2 fun e he h => ?_
      obtain ⟨u, hu, -⟩ := standsAt_iff.1 (Bool.and_eq_true_iff.1 h).2
      rw [hu, beginsWord_append (hes e he).word_ne_nil, (hes e he).2.1] at hv
      cases hv
    rw [replaceAfter_of_find?_eq_none (hnone inside), replaceAfter_of_find?_eq_none (hnone false)]

theorem replaceAfter_of_seam (hes : ∀ e ∈ es, e.IsWhole) {p u : Text} (h : Seam p u) :
    replaceAfter es 0 (endsInWord p) u = replaceAfter es 0 false u := by
  rcases Bool.and_eq_false_iff.1 h with hp | hu
  · rw [hp]
  · exact replaceAfter_of_beginsWord hes _ hu

/-- The first character of a longer piece is a word character, and the others are a piece. -/
theorem isWord_of_pieces_eq {c d : Char} {q : Text} (h : pieces (c :: d :: q) = [c :: d :: q]) :
    isWord c = true ∧ pieces (d :: q) = [d :: q] := by
  obtain ⟨r, rs, hr⟩ := exists_pieces_cons d q
  rw [pieces, hr, extend] at h
  split at h
  · rename_i hjoin
    obtain ⟨hq, rfl⟩ := List.cons.inj h
    exact ⟨(Bool.and_eq_true_iff.1 hjoin).1, by rw [hr, (List.cons.inj hq).2]⟩
  · cases h

/-- A piece is left as it is, once it is begun. -/
theorem replaceAfter_piece {c : Char} {q : Text} (h : pieces (c :: q) = [c :: q]) (u : Text) :
    replaceAfter es 0 (isWord c) (q ++ u) = q ++ replaceAfter es 0 (endsInWord (c :: q)) u := by
  induction q generalizing c with
  | nil => rfl
  | cons d q ih =>
    obtain ⟨hc, hrest⟩ := isWord_of_pieces_eq h
    rw [hc, List.cons_append, replaceAfter_true, ih hrest, endsInWord_cons_cons]
    rfl

/-- **Reading by characters and by pieces is the same.** -/
theorem replaceAll_eq_pass (hes : ∀ e ∈ es, e.IsWhole) (t : Text) :
    replaceAll es t = (pass es t).flatten := by
  induction hn : t.length using Nat.strong_induction_on generalizing t with
  | _ n ih =>
    cases t with
    | nil => rfl
    | cons c t =>
      obtain ⟨r, ps, hpieces⟩ := exists_pieces_cons c t
      have hfind : es.find? (fun e => !false && standsAt e.word (c :: t)) =
          es.find? (·.fits (c :: r) ps) := by
        refine List.find?_congr fun e he => Bool.eq_iff_iff.2 ?_
        rw [Bool.not_false, Bool.true_and, (hes e he).standsAt_iff, Entry.fits_iff, hpieces]
      cases hfirst : es.find? (·.fits (c :: r) ps) with
      | some e =>
        have he := hes e (of_find?_eq_some hfirst).1
        obtain ⟨v, htext, hv, hpass⟩ := exists_pass_of_find?_eq_some hes hpieces hfirst
        obtain ⟨d, w, hw⟩ := List.exists_cons_of_ne_nil he.word_ne_nil
        rw [hw, List.cons_append] at htext
        obtain ⟨rfl, rfl⟩ := List.cons.inj htext
        have hrest := ih v.length (by rw [← hn, List.length_cons, List.length_append]; omega) v rfl
        rw [replaceAll, replaceAfter_of_find?_eq_some (hfind.trans hfirst), hw,
          List.length_cons, Nat.add_sub_cancel, replaceAfter_length, ← hw, he.2.2,
          replaceAfter_of_beginsWord hes true hv, hpass, List.flatten_append, flatten_pieces,
          ← hrest, replaceAll]
      | none =>
        obtain ⟨u, htext, hp, hseam, hpass⟩ := exists_pass_of_find?_eq_none hpieces hfirst
        obtain rfl : t = r ++ u := (List.cons.inj htext).2
        have hrest := ih u.length (by rw [← hn, List.length_cons, List.length_append]; omega) u rfl
        rw [replaceAll, replaceAfter_of_find?_eq_none (hfind.trans hfirst),
          replaceAfter_piece hp, replaceAfter_of_seam hes hseam, hpass, List.flatten_cons,
          ← hrest, replaceAll, List.cons_append]

end Reading

/-! ### The places of a word -/

/-- A word stands by itself in a text, between two parts of it. -/
structure StandsIn (word a b t : Text) : Prop where
  eq : t = a ++ (word ++ b)
  before : endsInWord a = false
  after : beginsWord b = false

theorem Entry.IsWhole.standsIn_iff {e : Entry} (he : e.IsWhole) {a b t : Text} :
    StandsIn e.word a b t ↔
      a ++ (e.word ++ b) = t ∧ pieces t = pieces a ++ (e.spelling ++ pieces b) := by
  constructor
  · rintro ⟨rfl, ha, hb⟩
    rw [pieces_append_of_seam (seam_of_endsInWord ha),
      pieces_append_of_seam (seam_of_beginsWord hb), he.1]
    exact ⟨rfl, rfl⟩
  · rintro ⟨rfl, hpieces⟩
    obtain ⟨a', v, hav, ha, hv, hbefore⟩ := pieces_eq_append_iff.1 hpieces
    obtain rfl : a' = a := by rw [← flatten_pieces a', ha, flatten_pieces]
    obtain rfl := List.append_cancel_left hav
    obtain ⟨w, b', hwb, hw, hb, hafter⟩ := pieces_eq_append_iff.1 hv
    obtain rfl : e.word = w := by rw [Entry.word, ← hw, flatten_pieces]
    obtain rfl := List.append_cancel_left hwb
    rw [Seam, beginsWord_append he.word_ne_nil, he.2.1, Bool.and_true] at hbefore
    rw [Seam, he.2.2, Bool.true_and] at hafter
    exact ⟨rfl, hbefore, hafter⟩

section Places
variable {es : List Entry} {f : Entry}

theorem passAfter_append_spelling (hf : ∀ e ∈ es, e.Apart f) (ps qs : List Text) :
    passAfter es 0 (ps ++ (f.spelling ++ qs)) =
      passAfter es 0 ps ++ (f.spelling ++ passAfter es 0 qs) := by
  have hcut := passAfter_append_cons (fun e he => (hf e he).2.1.1) (Nat.zero_le ps.length)
    (f.more ++ qs)
  have hself := passAfter_append_of_notMem (fun e he => (hf e he).1.1.1) qs
  rw [← hself]
  exact hcut

/-- What is a spelling after the pass was one before. -/
theorem exists_of_passAfter_eq (hf : ∀ e ∈ es, e.Apart f) {ps as bs : List Text}
    (h : passAfter es 0 ps = as ++ (f.spelling ++ bs)) :
    ∃ qs rs, ps = qs ++ (f.spelling ++ rs) ∧ passAfter es 0 rs = bs := by
  induction hn : ps.length using Nat.strong_induction_on generalizing ps as with
  | _ n ih =>
    cases as with
    | nil =>
      have hprefix : f.spelling <+: passAfter es 0 ps := ⟨bs, h.symm⟩
      obtain ⟨rs, rfl⟩ := (prefix_passAfter_iff (fun e he => (hf e he).1.1) ps).1 hprefix
      rw [passAfter_append_of_notMem fun e he => (hf e he).1.1.1] at h
      exact ⟨[], rs, rfl, List.append_cancel_left h⟩
    | cons a as =>
      cases ps with
      | nil => cases h
      | cons p ps =>
        cases hfind : es.find? (·.fits p ps) with
        | none =>
          rw [passAfter_of_find?_eq_none hfind, List.cons_append] at h
          obtain ⟨qs, rs, rfl, hrs⟩ := ih ps.length (by rw [← hn]; simp) (List.cons.inj h).2 rfl
          exact ⟨p :: qs, rs, rfl, hrs⟩
        | some e =>
          rw [passAfter_of_find?_eq_some hfind, passAfter_eq_drop] at h
          -- the spelling does not begin in what was put in the place of another
          have hout := (hf e (of_find?_eq_some hfind).1).1.2
          obtain ⟨as', hrest⟩ : ∃ as', passAfter es 0 (ps.drop e.more.length) =
              as' ++ (f.spelling ++ bs) := by
            rcases List.append_eq_append_iff.1 h with ⟨as', -, hrest⟩ | ⟨cs, hcs, hrest⟩
            · exact ⟨as', hrest⟩
            · cases cs with
              | nil => exact ⟨[], hrest.symm⟩
              | cons c cs =>
                have hc : f.first = c := (List.cons.inj hrest).1
                exact absurd (hcs ▸ hc ▸ by simp) hout
          have hlength : (ps.drop e.more.length).length < n := by
            rw [← hn, List.length_drop, List.length_cons]
            omega
          obtain ⟨qs, rs, hqs, hrs⟩ := ih _ hlength hrest rfl
          refine ⟨p :: (ps.take e.more.length ++ qs), rs, ?_, hrs⟩
          rw [List.cons_append, List.append_assoc, ← hqs, List.take_append_drop]

/-- **A pass neither makes nor takes away a word that its entries leave as it stands.**  The word is
where it was in what the pass has made of the text around it. -/
theorem standsIn_flatten_pass_iff (hes : ∀ e ∈ es, e.IsWhole) (hwhole : f.IsWhole)
    (hf : ∀ e ∈ es, e.Apart f) {a' b' t : Text} :
    StandsIn f.word a' b' (pass es t).flatten ↔
      ∃ a b, StandsIn f.word a b t ∧ (pass es a).flatten = a' ∧ (pass es b).flatten = b' := by
  simp only [hwhole.standsIn_iff, (pieces_flatten_pass hes t).1]
  constructor
  · rintro ⟨htext, hpass⟩
    obtain ⟨qs, rs, hqs, hrs⟩ := exists_of_passAfter_eq hf hpass
    obtain ⟨a, v, rfl, rfl, hv, -⟩ := pieces_eq_append_iff.1 hqs
    obtain ⟨w, b, rfl, hw, rfl, -⟩ := pieces_eq_append_iff.1 hv
    have hword : f.word = w := by rw [Entry.word, ← hw, flatten_pieces]
    rw [pass, hqs, passAfter_append_spelling hf, hrs] at hpass
    refine ⟨a, b, ⟨by rw [hword], hqs⟩, ?_, ?_⟩
    · rw [pass, List.append_cancel_right hpass, flatten_pieces]
    · rw [pass, hrs, flatten_pieces]
  · rintro ⟨a, b, ⟨-, hpieces⟩, rfl, rfl⟩
    have hpass : pass es t = pass es a ++ (f.spelling ++ pass es b) := by
      rw [pass, hpieces, passAfter_append_spelling hf, pass, pass]
    refine ⟨by rw [hpass, List.flatten_append, List.flatten_append, Entry.word], ?_⟩
    rw [hpass, (pieces_flatten_pass hes a).1, (pieces_flatten_pass hes b).1]

end Places

/-! ### All rules -/

theorem Independent.apart {rs : List Rule} (h : Independent (entries rs)) {rule other : Rule}
    (hrule : rule ∈ rs) (hother : other ∈ rs) (hne : rule ≠ other) :
    ∀ e ∈ rule.entries, ∀ f ∈ other.entries, e.Apart f := by
  have hsymm : Std.Symm fun rule other : Rule =>
      ∀ e ∈ rule.entries, ∀ f ∈ other.entries, e.Apart f :=
    ⟨fun _ _ hpair f hf e he => (hpair e he f hf).symm⟩
  exact (List.pairwise_flatMap.1 h.2).2.forall hrule hother hne

/-- **The rules in any order replace every word that stands by itself in one reading of the text**,
and none of them makes, takes away or moves a word of another. -/
theorem applyAll_eq_replaceAll {rs : List Rule} (hrs : rs.Perm rules) (t : Text) :
    applyAll rs t = replaceAll (entries rules) t ∧
      ∀ rule ∈ rules, ∀ other ∈ rules, rule ≠ other → ∀ f ∈ other.entries, ∀ a' b',
        StandsIn f.word a' b' (rule.apply t) ↔
          ∃ a b, StandsIn f.word a b t ∧ rule.apply a = a' ∧ rule.apply b = b' := by
  obtain ⟨hwhole, hpairs⟩ := independent_rules
  have hmem {rule : Rule} (hrule : rule ∈ rules) : ∀ e ∈ rule.entries, e.IsWhole :=
    fun e he => hwhole e (List.mem_flatMap.2 ⟨rule, hrule, he⟩)
  constructor
  · have hperm : (entries rs).Perm (entries rules) := hrs.flatMap_right _
    have hind := independent_rules.perm hperm.symm
    rw [applyAll_eq_pass hind, hind.pass_perm hperm, replaceAll_eq_pass hwhole]
  · intro rule hrule other hother hne f hf a' b'
    simp only [Rule.apply_eq]
    exact standsIn_flatten_pass_iff (hmem hrule) (hmem hother f hf)
      fun e he => Independent.apart ⟨hwhole, hpairs⟩ hrule hother hne e he f hf

/-- In reverse order as well no word is replaced within a longer one. -/
theorem applyAll_reverse_twenty_into_tens :
    rules.reverse.Perm rules ∧
      applyAll rules.reverse "twenty into tens divided by two".toList =
        replaceAll (entries rules) "twenty into tens divided by two".toList ∧
      replaceAll (entries rules) "twenty into tens divided by two".toList =
        "20  *  tens  /  2".toList :=
  ⟨List.reverse_perm rules, (applyAll_eq_replaceAll (List.reverse_perm rules) _).1,
    by decide⟩

end SpokenCalculator.Phrase
