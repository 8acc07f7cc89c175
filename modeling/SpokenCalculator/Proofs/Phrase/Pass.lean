import Mathlib.Data.List.Find
import Mathlib.Data.List.Pairwise
import SpokenCalculator.Proofs.Phrase.Words

/-!
# Rules in one pass

Rules are used one after another, each on the text that the rule before has left.  A spelling takes
up whole pieces of a text, and what takes its place is read by no other rule.  So all of them can be
used in a single pass over the pieces of the text, from left to right.

* `pieces_eq_append_iff`: where the pieces of a text are divided;
* `Entry`, `passAfter`: a spelling with what takes its place, and the pass that uses many of them;
* `Entry.Spares`, `Entry.Leaves`: entries that do not read what another makes;
* `passAfter_passAfter`: two passes in one;
* `Rule.entries`, `Independent`: the spellings of rules, and entries that can be used at once;
* `Independent.pass_append`, `Independent.pass_perm`: one pass of all entries, in any order;
* `applyAll_eq_pass`: rules one after another are one pass.
-/

namespace SpokenCalculator.Phrase
open Text

/-! ### Pieces of two texts -/

/-- A text that a word character behind it joins. -/
def endsInWord (t : Text) : Bool := (t.getLast?.map isWord).getD false

/-- No word runs on from one text into the other. -/
def Seam (a b : Text) : Prop := (endsInWord a && beginsWord b) = false

theorem seam_of_endsInWord {a b : Text} (ha : endsInWord a = false) : Seam a b := by
  rw [Seam, ha, Bool.false_and]

theorem seam_of_beginsWord {a b : Text} (hb : beginsWord b = false) : Seam a b := by
  rw [Seam, hb, Bool.and_false]

theorem endsInWord_cons_cons (c d : Char) (t : Text) :
    endsInWord (c :: d :: t) = endsInWord (d :: t) := rfl

theorem exists_extend (c : Char) (ps : List Text) : ∃ q qs, extend c ps = (c :: q) :: qs := by
  cases ps with
  | nil => exact ⟨[], [], rfl⟩
  | cons p ps =>
    rw [extend]
    split
    · exact ⟨p, ps, rfl⟩
    · exact ⟨[], p :: ps, rfl⟩

theorem exists_pieces_cons (c : Char) (t : Text) : ∃ q qs, pieces (c :: t) = (c :: q) :: qs :=
  exists_extend c (pieces t)

theorem beginsWord_flatten {p : Text} {ps : List Text} {t : Text} (h : pieces t = p :: ps) :
    beginsWord p = beginsWord t := by
  cases t with
  | nil => cases h
  | cons c t =>
    obtain ⟨q, qs, hq⟩ := exists_pieces_cons c t
    rw [hq] at h
    rw [← (List.cons.inj h).1]
    rfl

theorem extend_append_of_ne_nil (c : Char) {ps : List Text} (hps : ps ≠ []) (qs : List Text) :
    extend c (ps ++ qs) = extend c ps ++ qs := by
  obtain ⟨p, ps, rfl⟩ := List.exists_cons_of_ne_nil hps
  rw [List.cons_append, extend, extend]
  split <;> rfl

theorem extend_pieces_of_seam {c : Char} {t : Text} (h : Seam [c] t) :
    extend c (pieces t) = [c] :: pieces t := by
  cases hpieces : pieces t with
  | nil => rfl
  | cons p ps =>
    have hjoin : (isWord c && beginsWord p) = false := by
      rw [beginsWord_flatten hpieces]
      exact h
    rw [extend, hjoin, if_neg Bool.false_ne_true]

theorem pieces_append_of_seam {a b : Text} (h : Seam a b) :
    pieces (a ++ b) = pieces a ++ pieces b := by
  induction a with
  | nil => rfl
  | cons c a ih =>
    cases a with
    | nil => exact extend_pieces_of_seam h
    | cons d a =>
      obtain ⟨q, qs, hq⟩ := exists_pieces_cons d a
      rw [List.cons_append, pieces, ih h, extend_append_of_ne_nil c (by simp [hq]), ← pieces]

/-- **The pieces of a text are divided where no word runs on.** -/
theorem pieces_eq_append_iff {t : Text} {ps qs : List Text} :
    pieces t = ps ++ qs ↔ ∃ a b, t = a ++ b ∧ pieces a = ps ∧ pieces b = qs ∧ Seam a b := by
  constructor
  · intro h
    induction t generalizing ps with
    | nil =>
      obtain ⟨rfl, rfl⟩ := List.append_eq_nil_iff.1 h.symm
      exact ⟨[], [], rfl, rfl, rfl, rfl⟩
    | cons c t ih =>
      cases ps with
      | nil => exact ⟨[], c :: t, rfl, rfl, h, rfl⟩
      | cons p ps =>
        by_cases hseam : Seam [c] t
        · rw [pieces, extend_pieces_of_seam hseam, List.cons_append] at h
          obtain ⟨rfl, hrest⟩ := List.cons.inj h
          obtain ⟨a, b, rfl, rfl, rfl, hab⟩ := ih hrest
          cases a with
          | nil => exact ⟨[c], b, rfl, rfl, rfl, hseam⟩
          | cons d a => exact ⟨c :: d :: a, b, rfl, extend_pieces_of_seam hseam, rfl, hab⟩
        -- the character joins the first piece, which stands before the division
        · obtain ⟨d, r, rfl⟩ : ∃ d r, t = d :: r :=
            List.exists_cons_of_ne_nil (by rintro rfl; exact hseam (seam_of_beginsWord rfl))
          obtain ⟨q, qs', hq⟩ := exists_pieces_cons d r
          have hjoin : (isWord c && beginsWord (d :: q)) = true :=
            Bool.eq_true_of_not_eq_false hseam
          rw [pieces, hq, extend, if_pos hjoin, List.cons_append] at h
          obtain ⟨rfl, rfl⟩ := List.cons.inj h
          have hrest : pieces (d :: r) = (d :: q) :: ps ++ qs := hq
          obtain ⟨a, b, hab, ha, rfl, hcut⟩ := ih hrest
          refine ⟨c :: a, b, by rw [hab, List.cons_append], ?_, rfl, ?_⟩
          · rw [pieces, ha, extend, if_pos hjoin]
          · cases a with
            | nil => cases ha
            | cons e a => exact hcut
  · rintro ⟨a, b, rfl, rfl, rfl, h⟩
    exact pieces_append_of_seam h

/-! ### Entries -/

/-- A spelling, in pieces of a text, and what takes its place. -/
structure Entry where
  first : Text
  more : List Text
  replacement : Text
  deriving DecidableEq

namespace Entry

/-- The pieces of the spelling. -/
def spelling (e : Entry) : List Text := e.first :: e.more

/-- The word or the words that are spelled. -/
def word (e : Entry) : Text := e.spelling.flatten

/-- The spelling stands at a piece and those after it. -/
def fits (e : Entry) (p : Text) (ps : List Text) : Bool := e.first = p ∧ e.more.isPrefixOf ps

theorem fits_iff {e : Entry} {p : Text} {ps : List Text} :
    e.fits p ps = true ↔ e.spelling <+: p :: ps := by
  rw [fits, decide_eq_true_iff, List.isPrefixOf_iff_prefix, spelling, List.cons_prefix_cons]

/-- The spelling is that of whole words. -/
def IsWhole (e : Entry) : Prop :=
  pieces e.word = e.spelling ∧ beginsWord e.word = true ∧ endsInWord e.word = true

instance (e : Entry) : Decidable e.IsWhole :=
  inferInstanceAs (Decidable (pieces e.word = e.spelling ∧ beginsWord e.word = true ∧
    endsInWord e.word = true))

/-- The use of an entry neither begins in some pieces nor leaves what is like the end of them. -/
def Spares (e : Entry) (m : List Text) : Prop :=
  e.first ∉ m ∧ ∀ tail ∈ m.tails, tail ≠ [] →
    ¬ tail <+: pieces e.replacement ∧ ¬ pieces e.replacement <+: tail

/-- The use of an entry leaves the spelling of another as it stands. -/
def Leaves (e f : Entry) : Prop := e.Spares f.spelling ∧ f.first ∉ pieces e.replacement

instance (e f : Entry) : Decidable (e.Leaves f) :=
  inferInstanceAs (Decidable ((e.first ∉ f.spelling ∧ ∀ tail ∈ f.spelling.tails, tail ≠ [] →
    ¬ tail <+: pieces e.replacement ∧ ¬ pieces e.replacement <+: tail) ∧
    f.first ∉ pieces e.replacement))

/-- Each of two entries leaves the spelling of the other. -/
def Apart (e f : Entry) : Prop := e.Leaves f ∧ f.Leaves e

instance (e f : Entry) : Decidable (e.Apart f) :=
  inferInstanceAs (Decidable (e.Leaves f ∧ f.Leaves e))

instance : Std.Symm Entry.Apart := ⟨fun _ _ h => h.symm⟩

theorem Spares.tail {e : Entry} {q : Text} {m : List Text} (h : e.Spares (q :: m)) :
    e.Spares m := by
  refine ⟨fun hmem => h.1 (List.mem_cons_of_mem q hmem), fun tail htail => h.2 tail ?_⟩
  exact (List.mem_tails _ _).2 (((List.mem_tails _ _).1 htail).trans (List.suffix_cons q m))

end Entry

/-! ### One pass -/

/-- The pieces after a number of them that a spelling has taken up, with every spelling in them
replaced. -/
def passAfter (es : List Entry) : Nat → List Text → List Text
  | _, [] => []
  | n + 1, _ :: ps => passAfter es n ps
  | 0, p :: ps =>
    match es.find? (·.fits p ps) with
    | some e => pieces e.replacement ++ passAfter es e.more.length ps
    | none => p :: passAfter es 0 ps

section Pass
variable {es fs : List Entry} {m p q : List Text}

theorem passAfter_nil (n : Nat) : passAfter es n [] = [] := by cases n <;> rfl

theorem passAfter_of_find?_eq_none {p : Text} {ps : List Text}
    (h : es.find? (·.fits p ps) = none) : passAfter es 0 (p :: ps) = p :: passAfter es 0 ps := by
  rw [passAfter, h]

theorem passAfter_of_find?_eq_some {p : Text} {ps : List Text} {e : Entry}
    (h : es.find? (·.fits p ps) = some e) :
    passAfter es 0 (p :: ps) = pieces e.replacement ++ passAfter es e.more.length ps := by
  rw [passAfter, h]

theorem of_find?_eq_some {p : Text} {ps : List Text} {e : Entry}
    (h : es.find? (·.fits p ps) = some e) : e ∈ es ∧ e.spelling <+: p :: ps := by
  have hfits := List.find?_some h
  exact ⟨List.mem_of_find?_eq_some h, Entry.fits_iff.1 hfits⟩

theorem passAfter_eq_drop (n : Nat) (ps : List Text) :
    passAfter es n ps = passAfter es 0 (ps.drop n) := by
  induction n generalizing ps with
  | zero => rw [List.drop_zero]
  | succ n ih =>
    cases ps with
    | nil => rfl
    | cons p ps => rw [passAfter, ih, List.drop_succ_cons]

/-- Pieces at which no spelling begins are left as they are. -/
theorem passAfter_append_of_notMem (hm : ∀ e ∈ es, e.first ∉ m) (ps : List Text) :
    passAfter es 0 (m ++ ps) = m ++ passAfter es 0 ps := by
  induction m with
  | nil => rfl
  | cons q m ih =>
    have hfind : es.find? (·.fits q (m ++ ps)) = none := by
      refine List.find?_eq_none.2 fun e he hfits => ?_
      rw [Entry.fits, decide_eq_true_iff] at hfits
      exact hm e he (hfits.1 ▸ List.mem_cons_self)
    rw [List.cons_append, passAfter_of_find?_eq_none hfind,
      ih fun e he hmem => hm e he (List.mem_cons_of_mem q hmem), List.cons_append]

theorem prefix_append_cons_iff {x : Text} {m : List Text} (hx : x ∉ m) (ps qs : List Text) :
    m <+: ps ++ x :: qs ↔ m <+: ps := by
  constructor
  · intro h
    rcases List.prefix_or_prefix_of_prefix h (List.prefix_append ps (x :: qs)) with hle | ⟨r, rfl⟩
    · exact hle
    · cases r with
      | nil => rw [List.append_nil]
      | cons y r =>
        have hy := (List.cons_prefix_cons.1 ((List.prefix_append_right_inj ps).1 h)).1
        exact absurd (hy ▸ List.mem_append_right ps List.mem_cons_self) hx
  · intro h
    exact h.trans (List.prefix_append ps _)

/-- No spelling runs on over a piece that belongs to none. -/
theorem passAfter_append_cons {x : Text} (hx : ∀ e ∈ es, x ∉ e.spelling) {n : ℕ}
    {ps : List Text} (hn : n ≤ ps.length) (qs : List Text) :
    passAfter es n (ps ++ x :: qs) = passAfter es n ps ++ passAfter es 0 (x :: qs) := by
  induction ps generalizing n with
  | nil =>
    obtain rfl := Nat.le_zero.1 hn
    rfl
  | cons p ps ih =>
    cases n with
    | succ n => exact ih (Nat.le_of_succ_le_succ hn)
    | zero =>
      have hfind : es.find? (·.fits p (ps ++ x :: qs)) = es.find? (·.fits p ps) := by
        refine List.find?_congr fun e he => ?_
        have hmore := prefix_append_cons_iff
          (fun hmem => hx e he (List.mem_cons_of_mem e.first hmem)) ps qs
        simp only [Entry.fits, List.isPrefixOf_iff_prefix, hmore]
      rw [List.cons_append]
      cases hfirst : es.find? (·.fits p ps) with
      | none =>
        rw [passAfter_of_find?_eq_none (hfind.trans hfirst), passAfter_of_find?_eq_none hfirst,
          ih (Nat.zero_le _)]
        rfl
      | some e =>
        have hle := (List.cons_prefix_cons.1 (of_find?_eq_some hfirst).2).2.length_le
        rw [passAfter_of_find?_eq_some (hfind.trans hfirst), passAfter_of_find?_eq_some hfirst,
          ih hle, List.append_assoc]

/-- **Pieces that all entries spare stand at the front after the pass where they stood before.** -/
theorem prefix_passAfter_iff (hm : ∀ e ∈ es, e.Spares m) (ps : List Text) :
    m <+: passAfter es 0 ps ↔ m <+: ps := by
  induction m generalizing ps with
  | nil => simp
  | cons q m ih =>
    cases ps with
    | nil => rw [passAfter_nil]
    | cons p ps =>
      cases hfind : es.find? (·.fits p ps) with
      | none =>
        rw [passAfter_of_find?_eq_none hfind, List.cons_prefix_cons, List.cons_prefix_cons,
          ih fun e he => (hm e he).tail]
      -- what was replaced began otherwise, and so does what has taken its place
      | some e =>
        obtain ⟨he, hprefix⟩ := of_find?_eq_some hfind
        obtain ⟨hfirst, hends⟩ := hm e he
        obtain ⟨hleft, hright⟩ := hends (q :: m) (by simp) (List.cons_ne_nil q m)
        rw [passAfter_of_find?_eq_some hfind]
        constructor
        · intro h
          exact absurd (List.prefix_or_prefix_of_prefix h (List.prefix_append _ _))
            (not_or.2 ⟨hleft, hright⟩)
        · intro h
          rw [(List.cons_prefix_cons.1 hprefix).1, ← (List.cons_prefix_cons.1 h).1] at hfirst
          exact absurd List.mem_cons_self hfirst

/-- **A pass after a pass is one pass**, where the first leaves the spellings of the second. -/
theorem passAfter_passAfter (h : ∀ e ∈ es, ∀ f ∈ fs, e.Leaves f) (n : Nat) (ps : List Text) :
    passAfter fs 0 (passAfter es n ps) = passAfter (es ++ fs) n ps := by
  induction ps generalizing n with
  | nil => rw [passAfter_nil, passAfter_nil, passAfter_nil]
  | cons p ps ih =>
    cases n with
    | succ n => exact ih n
    | zero =>
      cases hfind : es.find? (·.fits p ps) with
      | some e =>
        obtain ⟨he, -⟩ := of_find?_eq_some hfind
        have hboth : (es ++ fs).find? (·.fits p ps) = some e := by
          rw [List.find?_append, hfind]
          rfl
        rw [passAfter_of_find?_eq_some hfind, passAfter_of_find?_eq_some hboth,
          passAfter_append_of_notMem fun f hf => (h e he f hf).2, ih]
      | none =>
        have hfits : fs.find? (·.fits p (passAfter es 0 ps)) = fs.find? (·.fits p ps) := by
          refine List.find?_congr fun f hf => ?_
          have hmore := prefix_passAfter_iff (fun e he => (h e he f hf).1.tail) ps
          simp only [Entry.fits, List.isPrefixOf_iff_prefix, hmore]
        have hboth : (es ++ fs).find? (·.fits p ps) = fs.find? (·.fits p ps) := by
          rw [List.find?_append, hfind]
          rfl
        rw [passAfter_of_find?_eq_none hfind]
        cases hsecond : fs.find? (·.fits p ps) with
        | none =>
          rw [passAfter_of_find?_eq_none (hfits.trans hsecond),
            passAfter_of_find?_eq_none (hboth.trans hsecond), ih]
        | some f =>
          obtain ⟨hf, hprefix⟩ := of_find?_eq_some hsecond
          obtain ⟨qs, rfl⟩ := (List.cons_prefix_cons.1 hprefix).2
          have hspares := passAfter_append_of_notMem
            (fun e he => (h e he f hf).1.tail.1) qs
          -- the rest of the spelling is passed over by the first pass and taken up by the second
          have hrest : passAfter fs f.more.length (passAfter es 0 (f.more ++ qs)) =
              passAfter fs 0 (passAfter es f.more.length (f.more ++ qs)) := by
            rw [passAfter_eq_drop, hspares, List.drop_left, passAfter_eq_drop _ (f.more ++ qs),
              List.drop_left]
          rw [passAfter_of_find?_eq_some (hfits.trans hsecond),
            passAfter_of_find?_eq_some (hboth.trans hsecond), hrest, ih]

/-! ### The pass over a text -/

/-- The pieces of a text with every spelling replaced. -/
def pass (es : List Entry) (t : Text) : List Text := passAfter es 0 (pieces t)

theorem Entry.IsWhole.exists_of_isPrefix {e : Entry} (he : e.IsWhole) {t : Text}
    (h : e.spelling <+: pieces t) :
    ∃ v, t = e.word ++ v ∧ beginsWord v = false ∧ pieces t = e.spelling ++ pieces v := by
  obtain ⟨qs, hqs⟩ := h
  obtain ⟨a, v, rfl, ha, rfl, hseam⟩ := pieces_eq_append_iff.1 hqs.symm
  obtain rfl : e.word = a := by rw [Entry.word, ← ha, flatten_pieces]
  rw [Seam, he.2.2, Bool.true_and] at hseam
  exact ⟨v, rfl, hseam, hqs.symm⟩

/-- Where a spelling is replaced, the text behind it begins with no word. -/
theorem exists_pass_of_find?_eq_some (hes : ∀ e ∈ es, e.IsWhole) {t p : Text} {ps : List Text}
    {e : Entry} (ht : pieces t = p :: ps) (h : es.find? (·.fits p ps) = some e) :
    ∃ v, t = e.word ++ v ∧ beginsWord v = false ∧
      pass es t = pieces e.replacement ++ pass es v := by
  obtain ⟨he, hprefix⟩ := of_find?_eq_some h
  obtain ⟨v, htext, hv, hpieces⟩ := (hes e he).exists_of_isPrefix (ht ▸ hprefix)
  refine ⟨v, htext, hv, ?_⟩
  have hps : ps = e.more ++ pieces v := (List.cons.inj (ht.symm.trans hpieces)).2
  rw [pass, ht, passAfter_of_find?_eq_some h, passAfter_eq_drop, hps, List.drop_left, pass]

/-- Where no spelling is replaced, a piece is left as it is. -/
theorem exists_pass_of_find?_eq_none {t p : Text} {ps : List Text} (ht : pieces t = p :: ps)
    (h : es.find? (·.fits p ps) = none) :
    ∃ u, t = p ++ u ∧ pieces p = [p] ∧ Seam p u ∧ pass es t = p :: pass es u := by
  have hcut : pieces t = [p] ++ ps := ht
  obtain ⟨a, u, rfl, ha, hu, hseam⟩ := pieces_eq_append_iff.1 hcut
  obtain rfl : p = a := by rw [← flatten_pieces a, ha, List.flatten_singleton]
  refine ⟨u, rfl, ha, hseam, ?_⟩
  rw [pass, ht, passAfter_of_find?_eq_none h, ← hu, pass]

theorem beginsWord_append {p : Text} (hp : p ≠ []) (u : Text) :
    beginsWord (p ++ u) = beginsWord p := by
  cases p with
  | nil => exact absurd rfl hp
  | cons c p => rfl

theorem Entry.IsWhole.word_ne_nil {e : Entry} (he : e.IsWhole) : e.word ≠ [] := by
  intro hnil
  have hbegins := he.2.1
  rw [hnil] at hbegins
  cases hbegins

theorem ne_nil_of_pieces_eq {p : Text} (hp : pieces p = [p]) : p ≠ [] := by
  rintro rfl
  cases hp

/-- **What a pass makes is in pieces again**, and begins with a word only where the text does. -/
theorem pieces_flatten_pass (hes : ∀ e ∈ es, e.IsWhole) (t : Text) :
    pieces (pass es t).flatten = pass es t ∧
      (beginsWord t = false → beginsWord (pass es t).flatten = false) := by
  induction hn : t.length using Nat.strong_induction_on generalizing t with
  | _ n ih =>
    cases hpieces : pieces t with
    | nil =>
      obtain rfl : t = [] := by rw [← flatten_pieces t, hpieces, List.flatten_nil]
      exact ⟨rfl, id⟩
    | cons p ps =>
      cases hfind : es.find? (·.fits p ps) with
      | some e =>
        obtain ⟨v, rfl, hv, hpass⟩ := exists_pass_of_find?_eq_some hes hpieces hfind
        have he := hes e (of_find?_eq_some hfind).1
        have hlength := List.length_pos_of_ne_nil he.word_ne_nil
        obtain ⟨hcut, hbegins⟩ := ih v.length (by rw [← hn, List.length_append]; omega) v rfl
        rw [hpass, List.flatten_append, flatten_pieces,
          pieces_append_of_seam (seam_of_beginsWord (hbegins hv)), hcut]
        refine ⟨rfl, fun hfalse => ?_⟩
        rw [beginsWord_append he.word_ne_nil, he.2.1] at hfalse
        cases hfalse
      | none =>
        obtain ⟨u, rfl, hp, hseam, hpass⟩ := exists_pass_of_find?_eq_none hpieces hfind
        have hne := ne_nil_of_pieces_eq hp
        have hlength := List.length_pos_of_ne_nil hne
        obtain ⟨hcut, hbegins⟩ := ih u.length (by rw [← hn, List.length_append]; omega) u rfl
        have hseam' : Seam p (pass es u).flatten := by
          rcases Bool.and_eq_false_iff.1 hseam with hp | hu
          · exact seam_of_endsInWord hp
          · exact seam_of_beginsWord (hbegins hu)
        rw [hpass, List.flatten_cons, pieces_append_of_seam hseam', hp, hcut,
          beginsWord_append hne, beginsWord_append hne]
        exact ⟨rfl, id⟩

end Pass

/-! ### Rules -/

/-- The spellings of a rule, with what takes their place. -/
def Rule.entries (rule : Rule) : List Entry :=
  rule.spellings.filterMap fun
    | [] => none
    | first :: more => some ⟨first, more, rule.replacement⟩

/-- The spellings of rules in order. -/
def entries (rs : List Rule) : List Entry := rs.flatMap Rule.entries

theorem Rule.match?_eq (rule : Rule) (p : Text) (ps : List Text) :
    rule.match? p ps = (rule.entries.find? (·.fits p ps)).map (·.more.length) := by
  obtain ⟨spellings, w⟩ := rule
  simp only [match?, entries]
  induction spellings with
  | nil => rfl
  | cons s spellings ih =>
    cases s with
    | nil => exact ih
    | cons first more =>
      rw [List.findSome?_cons, List.filterMap_cons, List.find?_cons, ih, reach?]
      by_cases hfits : first = p ∧ more.isPrefixOf ps = true
      · have hentry : Entry.fits ⟨first, more, w⟩ p ps = true := decide_eq_true hfits
        rw [if_pos hfits, hentry]
        rfl
      · have hentry : Entry.fits ⟨first, more, w⟩ p ps = false := decide_eq_false hfits
        rw [if_neg hfits, hentry]

theorem Rule.replacement_of_mem_entries {rule : Rule} {e : Entry} (he : e ∈ rule.entries) :
    e.replacement = rule.replacement := by
  obtain ⟨s, -, hs⟩ := List.mem_filterMap.1 he
  cases s with
  | nil => cases hs
  | cons first more => rw [← Option.some.inj hs]

/-- A rule is used in a pass of its spellings. -/
theorem Rule.apply_eq (rule : Rule) (t : Text) : rule.apply t = (pass rule.entries t).flatten := by
  have hafter (n : ℕ) (ps : List Text) :
      (rule.applyAfter n ps).flatten = (passAfter rule.entries n ps).flatten := by
    induction ps generalizing n with
    | nil => cases n <;> rfl
    | cons p ps ih =>
      cases n with
      | succ n => exact ih n
      | zero =>
        rw [applyAfter, match?_eq]
        cases hfind : rule.entries.find? (·.fits p ps) with
        | none =>
          rw [passAfter_of_find?_eq_none hfind, List.flatten_cons, ← ih]
          rfl
        | some e =>
          rw [passAfter_of_find?_eq_some hfind, List.flatten_append, flatten_pieces, ← ih,
            replacement_of_mem_entries (of_find?_eq_some hfind).1]
          rfl
  exact hafter 0 (pieces t)

theorem entries_cons (rule : Rule) (rs : List Rule) :
    entries (rule :: rs) = rule.entries ++ entries rs := List.flatMap_cons

/-- Entries for whole words that leave the spellings of each other as they stand. -/
def Independent (es : List Entry) : Prop := (∀ e ∈ es, e.IsWhole) ∧ es.Pairwise Entry.Apart

instance (es : List Entry) : Decidable (Independent es) :=
  inferInstanceAs (Decidable ((∀ e ∈ es, e.IsWhole) ∧ es.Pairwise Entry.Apart))

theorem independent_rules : Independent (entries rules) := by decide +kernel

section Independent
variable {es fs : List Entry}

theorem Independent.perm (h : Independent es) (hperm : es.Perm fs) : Independent fs :=
  ⟨fun e he => h.1 e (hperm.mem_iff.2 he), (hperm.pairwise_iff fun hef => hef.symm).1 h.2⟩

/-- Entries are used after others in one pass with them. -/
theorem Independent.pass_append (h : Independent (es ++ fs)) (t : Text) :
    pass fs (pass es t).flatten = pass (es ++ fs) t := by
  obtain ⟨hwhole, hpairs⟩ := h
  have hes := (List.forall_mem_append.1 hwhole).1
  obtain ⟨-, -, hcross⟩ := List.pairwise_append.1 hpairs
  rw [pass, (pieces_flatten_pass hes t).1, pass,
    passAfter_passAfter fun e he f hf => (hcross e he f hf).1, pass]

theorem Independent.of_append_right (h : Independent (es ++ fs)) : Independent fs :=
  ⟨(List.forall_mem_append.1 h.1).2, (List.pairwise_append.1 h.2).2.1⟩

/-- At most one entry fits at a place. -/
theorem Independent.find?_eq_some_iff (h : Independent es) {p : Text} {ps : List Text}
    {e : Entry} : es.find? (·.fits p ps) = some e ↔ e ∈ es ∧ e.fits p ps = true := by
  constructor
  · intro hfind
    obtain ⟨he, hprefix⟩ := of_find?_eq_some hfind
    exact ⟨he, Entry.fits_iff.2 hprefix⟩
  · rintro ⟨he, hfits⟩
    cases hfind : es.find? (·.fits p ps) with
    | none => exact absurd hfits (List.find?_eq_none.1 hfind e he)
    | some f =>
      obtain ⟨hf, hprefix⟩ := of_find?_eq_some hfind
      by_contra hne
      have hapart := h.2.forall he hf fun hef => hne (congrArg some hef.symm)
      have hfirst : e.first = f.first := (List.cons_prefix_cons.1 (Entry.fits_iff.1 hfits)).1.trans
        (List.cons_prefix_cons.1 hprefix).1.symm
      exact hapart.1.1.1 (hfirst ▸ List.mem_cons_self)

/-- **The order of the entries does not matter.** -/
theorem Independent.pass_perm (h : Independent es) (hperm : es.Perm fs) (t : Text) :
    pass es t = pass fs t := by
  have hfind (p : Text) (ps : List Text) :
      es.find? (·.fits p ps) = fs.find? (·.fits p ps) := by
    ext e
    rw [h.find?_eq_some_iff, (h.perm hperm).find?_eq_some_iff, hperm.mem_iff]
  have hafter (n : ℕ) (ps : List Text) : passAfter es n ps = passAfter fs n ps := by
    induction ps generalizing n with
    | nil => rw [passAfter_nil, passAfter_nil]
    | cons p ps ih =>
      cases n with
      | succ n => exact ih n
      | zero => simp only [passAfter, hfind, ih]
  exact hafter 0 (pieces t)

end Independent

/-- **Rules one after another are one pass.** -/
theorem applyAll_eq_pass {rs : List Rule} (h : Independent (entries rs)) (t : Text) :
    applyAll rs t = (pass (entries rs) t).flatten := by
  induction rs generalizing t with
  | nil =>
    have hnil (ps : List Text) : passAfter [] 0 ps = ps := by
      induction ps with
      | nil => rfl
      | cons p ps ih => rw [passAfter_of_find?_eq_none rfl, ih]
    show t = (passAfter [] 0 (pieces t)).flatten
    rw [hnil, flatten_pieces]
  | cons rule rs ih =>
    rw [entries_cons] at h ⊢
    rw [applyAll_cons, ih h.of_append_right, Rule.apply_eq, h.pass_append]

end SpokenCalculator.Phrase
