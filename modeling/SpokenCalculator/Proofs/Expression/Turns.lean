import Mathlib.Data.List.FinRange
import SpokenCalculator.Expression.StackOrder

/-!
# What the stack order leaves in order

The stack order moves operators behind what follows them, and no further than it must.  A numeral
comes out before everything that came in after it, and an operator before later ones of the same
strength.  One token may stand in several places, so it is the places that are put in order here and
not the tokens.

* `arrangeFrom`: things that stand for tokens, in the stack order of these tokens;
* `KeepsTurn`, `Overtakes`: the order that is kept, and how it would be broken;
* `Descending`, `Descending.push`: what waits binds more strongly the later it arrived;
* `pairwise_arrangeFrom`: nothing is overtaken that keeps its turn;
* `exists_order_of_stackOrder?`: the order in which the places of any texts come out.
-/

namespace SpokenCalculator

section Arrangement

variable {α : Type} (token : α → Token)

/-! ### Things that stand for tokens -/

/-- The part of what waits that a token releases: all that binds as strongly, from the last arrived
on. -/
def released (a : α) (waiting : List α) : List α :=
  waiting.takeWhile fun w => (token a).precedence ≤ (token w).precedence

/-- The part that goes on waiting. -/
def unreleased (a : α) (waiting : List α) : List α :=
  waiting.dropWhile fun w => (token a).precedence ≤ (token w).precedence

/-- Things in the stack order of the tokens that they stand for, while others wait, the last arrived
first. -/
def arrangeFrom (waiting : List α) : List α → List α
  | [] => waiting
  | a :: as =>
    if (token a).isNumeral then a :: arrangeFrom waiting as
    else released token a waiting ++ arrangeFrom (a :: unreleased token a waiting) as

variable {token} {a : α} {waiting : List α}

theorem released_append_unreleased (token : α → Token) (a : α) (waiting : List α) :
    released token a waiting ++ unreleased token a waiting = waiting :=
  List.takeWhile_append_dropWhile

theorem released_subset (a : α) (waiting : List α) : released token a waiting ⊆ waiting :=
  (List.takeWhile_sublist _).subset

theorem unreleased_sublist (a : α) (waiting : List α) :
    (unreleased token a waiting).Sublist waiting := List.dropWhile_sublist _

/-- What things stand for is in stack order. -/
theorem map_arrangeFrom (token : α → Token) (waiting as : List α) :
    (arrangeFrom token waiting as).map token =
      stackOrderFrom (waiting.map token) (as.map token) := by
  induction as generalizing waiting with
  | nil => rfl
  | cons a as ih =>
    rw [arrangeFrom, List.map_cons, stackOrderFrom]
    split
    · rw [List.map_cons, ih]
    · rw [List.map_append, ih, List.map_cons, released, unreleased, List.takeWhile_map,
        List.dropWhile_map]
      rfl

/-- Nothing is lost and nothing is doubled. -/
theorem arrangeFrom_perm (token : α → Token) (waiting as : List α) :
    (arrangeFrom token waiting as).Perm (waiting ++ as) := by
  induction as generalizing waiting with
  | nil => rw [arrangeFrom, List.append_nil]
  | cons a as ih =>
    rw [arrangeFrom]
    split
    · exact ((ih waiting).cons a).trans List.perm_middle.symm
    · refine ((ih _).append_left _).trans ?_
      rw [List.cons_append]
      refine List.perm_middle.trans ?_
      rw [← List.append_assoc, released_append_unreleased]
      exact List.perm_middle.symm

/-! ### What waits -/

/-- Only operators wait, and each binds more strongly than those that arrived before it. -/
structure Descending (token : α → Token) (waiting : List α) : Prop where
  operators : ∀ w ∈ waiting, (token w).isNumeral = false
  pairwise : waiting.Pairwise fun v w => (token w).precedence < (token v).precedence

theorem descending_nil (token : α → Token) : Descending token [] :=
  ⟨fun _ h => absurd h List.not_mem_nil, .nil⟩

/-- What is not released binds less strongly. -/
theorem Descending.precedence_lt (h : Descending token waiting) :
    ∀ w ∈ unreleased token a waiting, (token w).precedence < (token a).precedence := by
  induction waiting with
  | nil => exact fun _ hw => absurd hw List.not_mem_nil
  | cons v vs ih =>
    obtain ⟨hv, hvs⟩ := List.pairwise_cons.1 h.pairwise
    rw [unreleased, List.dropWhile_cons]
    split
    · exact ih ⟨fun w hw => h.operators w (List.mem_cons_of_mem _ hw), hvs⟩
    · rename_i hle
      have hlt : (token v).precedence < (token a).precedence := by simpa using hle
      exact List.forall_mem_cons.2 ⟨hlt, fun w hw => (hv w hw).trans hlt⟩

/-- **An operator waits on what it does not release.** -/
theorem Descending.push (h : Descending token waiting) (ha : (token a).isNumeral = false) :
    Descending token (a :: unreleased token a waiting) where
  operators := List.forall_mem_cons.2
    ⟨ha, fun w hw => h.operators w ((unreleased_sublist a waiting).subset hw)⟩
  pairwise := List.pairwise_cons.2
    ⟨h.precedence_lt, h.pairwise.sublist (unreleased_sublist a waiting)⟩

/-! ### Turns -/

/-- What comes in first comes out first: a numeral, whatever follows it, and an operator where one
of the same strength follows. -/
def KeepsTurn (token : α → Token) (a b : α) : Prop :=
  (token a).isNumeral = true ∨
    (token b).isNumeral = false ∧ (token a).precedence = (token b).precedence

variable [Preorder α]

/-- The first of two things came in after the second, which keeps its turn. -/
def Overtakes (token : α → Token) (b a : α) : Prop := a < b ∧ KeepsTurn token a b

theorem not_overtakes_of_lt {a b : α} (h : a < b) : ¬ Overtakes token a b :=
  fun hba => lt_asymm h hba.1

/-- An operator overtakes what is no numeral and of another strength. -/
theorem not_overtakes_of_ne {a b : α} (ha : (token a).isNumeral = false)
    (hne : (token b).isNumeral = false → (token a).precedence ≠ (token b).precedence) :
    ¬ Overtakes token b a := by
  rintro ⟨-, hnumeral | ⟨hb, hsame⟩⟩
  · exact absurd hnumeral (by rw [ha]; decide)
  · exact hne hb hsame

/-- No two of those that wait have the same strength. -/
theorem Descending.pairwise_not_overtakes (h : Descending token waiting) :
    waiting.Pairwise fun v w => ¬ Overtakes token v w :=
  h.pairwise.imp_of_mem fun _ hw hlt => not_overtakes_of_ne (h.operators _ hw) fun _ => hlt.ne

/-- **Nothing is overtaken that keeps its turn**, where all that waits came in before what
follows. -/
theorem pairwise_arrangeFrom {as : List α} (h : Descending token waiting)
    (hbefore : ∀ w ∈ waiting, ∀ b ∈ as, w < b) (has : as.Pairwise (· < ·)) :
    (arrangeFrom token waiting as).Pairwise fun a b => ¬ Overtakes token a b := by
  induction as generalizing waiting with
  | nil => exact h.pairwise_not_overtakes
  | cons a as ih =>
    obtain ⟨ha, has⟩ := List.pairwise_cons.1 has
    have hwa (w : α) (hw : w ∈ waiting) : w < a := hbefore w hw a (List.mem_cons_self ..)
    have hrest : ∀ w ∈ waiting, ∀ b ∈ as, w < b :=
      fun w hw b hb => hbefore w hw b (List.mem_cons_of_mem a hb)
    rw [arrangeFrom]
    split
    · -- a numeral comes out at once, and only operators came in before it without coming out
      rename_i hnumeral
      refine List.pairwise_cons.2 ⟨fun b hb => ?_, ih h hrest has⟩
      rcases List.mem_append.1 ((arrangeFrom_perm token waiting as).mem_iff.1 hb) with hb | hb
      · exact not_overtakes_of_ne (h.operators b hb) fun hfalse =>
          absurd (hfalse.symm.trans hnumeral) Bool.false_ne_true
      · exact not_overtakes_of_lt (ha b hb)
    · -- an operator comes out after those that it releases, and before the others that wait
      rename_i hoperator
      have hsplit := h.pairwise_not_overtakes
      rw [← released_append_unreleased token a waiting, List.pairwise_append] at hsplit
      obtain ⟨hreleased, -, hcross⟩ := hsplit
      have hpush : ∀ w ∈ a :: unreleased token a waiting, ∀ b ∈ as, w < b :=
        List.forall_mem_cons.2
          ⟨ha, fun w hw => hrest w ((unreleased_sublist a waiting).subset hw)⟩
      refine List.pairwise_append.2
        ⟨hreleased, ih (h.push (Bool.not_eq_true _ ▸ hoperator)) hpush has, fun v hv b hb => ?_⟩
      have hvw := released_subset a waiting hv
      rcases List.mem_append.1 ((arrangeFrom_perm token _ as).mem_iff.1 hb) with hb | hb
      · rcases List.mem_cons.1 hb with rfl | hb
        · exact not_overtakes_of_lt (hwa v hvw)
        · exact hcross v hv b hb
      · exact not_overtakes_of_lt (hrest v hvw b hb)

end Arrangement

/-! ### Places -/

/-- Of two members of a list one stands before the other. -/
theorem pair_sublist_or {α : Type} {l : List α} {a b : α} (ha : a ∈ l) (hb : b ∈ l) (hne : a ≠ b) :
    [a, b].Sublist l ∨ [b, a].Sublist l := by
  obtain ⟨before, after, rfl⟩ := List.append_of_mem ha
  rcases List.mem_append.1 hb with hb | hb
  · right
    exact (List.singleton_sublist.2 hb).append (List.singleton_sublist.2 (List.mem_cons_self ..))
  · left
    obtain hb | hb := List.mem_cons.1 hb
    · exact absurd hb.symm hne
    · exact ((List.singleton_sublist.2 hb).cons_cons a).trans (List.sublist_append_right _ _)

theorem isEmpty_ofText {u : Text} (hu : u ≠ []) : (Token.ofText u).isEmpty = false := by
  have htext : (Token.ofText u).text ≠ [] := by rwa [Token.text_ofText]
  unfold Token.isEmpty
  split
  · rename_i h
    exact absurd (congrArg Token.text h) htext
  · rfl

theorem stackOrder?_of_ne_nil {us : List Text} (hus : ∀ u ∈ us, u ≠ []) :
    stackOrder? (us.map Token.ofText) = some (stackOrder (us.map Token.ofText)) := by
  refine if_neg ?_
  rw [List.any_map, List.any_eq_true]
  rintro ⟨u, hu, hempty⟩
  exact Bool.false_ne_true ((isEmpty_ofText (hus u hu)).symm.trans hempty)

/-- **The stack order of texts that are not empty is a rearrangement of their places.**  Numerals
keep their order, and so do operators of the same strength; and an operator comes out after the
numerals that came in before it.  Whatever is no numeral is an operator here, an unknown one too. -/
theorem exists_order_of_stackOrder? {us : List Text} (hus : ∀ u ∈ us, u ≠ []) :
    ∃ (out : List Token) (order : List (Fin us.length)),
      stackOrder? (us.map Token.ofText) = some out ∧ (out.map Token.text).Perm us ∧
      out.map Token.text = order.map us.get ∧ order.Perm (List.finRange us.length) ∧
      ∀ i j, i < j → KeepsTurn (Token.ofText ∘ us.get) i j → [i, j].Sublist order := by
  let order := arrangeFrom (Token.ofText ∘ us.get) [] (List.finRange us.length)
  have hperm : order.Perm (List.finRange us.length) := arrangeFrom_perm _ [] _
  have hplaces : (List.finRange us.length).map (Token.ofText ∘ us.get) = us.map Token.ofText := by
    rw [← List.map_map, List.map_get_finRange]
  have htokens : stackOrder (us.map Token.ofText) = order.map (Token.ofText ∘ us.get) := by
    rw [map_arrangeFrom, hplaces]
    rfl
  have htext : (stackOrder (us.map Token.ofText)).map Token.text = order.map us.get := by
    rw [htokens, List.map_map]
    exact List.map_congr_left fun i _ => Token.text_ofText _
  refine ⟨_, _, stackOrder?_of_ne_nil hus, ?_, htext, hperm, fun i j hij hkeeps => ?_⟩
  · rw [htext]
    exact (hperm.map us.get).trans (.of_eq (List.map_get_finRange us))
  · have hpairwise := pairwise_arrangeFrom (descending_nil (Token.ofText ∘ us.get))
      (fun _ hw => absurd hw List.not_mem_nil) (List.pairwise_lt_finRange us.length)
    have hmem (i : Fin us.length) := hperm.mem_iff.2 (List.mem_finRange i)
    -- one of the places comes out first, and the later one does not overtake the other
    rcases pair_sublist_or (hmem i) (hmem j) hij.ne with h | h
    · exact h
    · exact absurd ⟨hij, hkeeps⟩ (List.pairwise_iff_forall_sublist.1 hpairwise h)

/-- Two signs of the same operation that stand next to each other, and an unknown operator. -/
def strayOperators : List Text := ["2".toList, "×".toList, "×".toList, "mod".toList, ".5".toList]

theorem exists_order_stray_operators :
    (∀ u ∈ strayOperators, u ≠ []) ∧
      ∃ (out : List Token) (order : List (Fin 5)),
        stackOrder? (strayOperators.map Token.ofText) = some out ∧
        (out.map Token.text).Perm strayOperators ∧
        out.map Token.text = order.map strayOperators.get ∧
        order.Perm (List.finRange 5) ∧
        [1, 2].Sublist order ∧ [0, 3].Sublist order := by
  have hne : ∀ u ∈ strayOperators, u ≠ [] := by decide
  obtain ⟨out, order, hout, hperm, htext, hplaces, hkeeps⟩ := exists_order_of_stackOrder? hne
  exact ⟨hne, out, order, hout, hperm, htext, hplaces,
    hkeeps (1 : Fin 5) (2 : Fin 5) (by decide) (Or.inr ⟨rfl, rfl⟩),
    hkeeps (0 : Fin 5) (3 : Fin 5) (by decide) (Or.inl rfl)⟩

end SpokenCalculator
