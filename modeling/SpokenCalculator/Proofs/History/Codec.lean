import Mathlib.Data.List.Infix
import SpokenCalculator.History.Archive
import SpokenCalculator.History.Log

/-!
# Entries joined and split again

A stored text is split at every delimiter, also at one that was part of an entry.  A delimiter is
found where it was put unless the entry before it ends with one of its characters.

* `Closed`, `Separable`: entries that a delimiter can follow, and lists whose entries but the last
  are such;
* `parts_append_delimiter`: what all else follows from;
* `split_join`: what is read back of entries are the parts of each;
* `isText_join_iff`: entries with a lone half of a character in one of them;
* `separable_split`, `not_isInfix_of_mem_split`: what is read of a text;
* `join_split_and_split_join_eq_iff`: which texts and which entries come back as they are.
-/

namespace SpokenCalculator.History

/-- A text does not end with a character of the delimiter. -/
def Closed (e : Codes) : Prop := e.getLast? ≠ some (.char '|')

/-- Every entry but the last can be followed by a delimiter. -/
def Separable (es : List Codes) : Prop := ∀ e ∈ es.dropLast, Closed e

/-! ### The first character of a text -/

@[simp] theorem closed_nil : Closed [] := by simp [Closed]

theorem Closed.tail {c : Code} {e : Codes} (h : Closed (c :: e)) : Closed e := by
  cases e with
  | nil => exact closed_nil
  | cons d e =>
    rw [Closed, List.getLast?_cons_cons] at h
    exact h

theorem delimiter_eq : delimiter = [.char '|', .char '|', .char '|'] := rfl

theorem parts_delimiter (t : Codes) : parts (delimiter ++ t) = [] :: parts t := by
  exact parts.eq_2 t

/-- A character that begins no delimiter belongs to the first part. -/
theorem parts_cons {c : Code} {t : Codes} (h : ¬ delimiter <+: c :: t) :
    parts (c :: t) = (parts t).modifyHead (c :: ·) := by
  rw [parts]
  rintro u rfl rfl
  exact h ⟨u, rfl⟩

/-- The last case of `parts`: the text does not begin with a delimiter. -/
theorem not_prefix_of_parts {c : Code} {t : Codes}
    (h : ∀ u, c = .char '|' → t = .char '|' :: .char '|' :: u → False) :
    ¬ delimiter <+: c :: t := by
  rintro ⟨u, hu⟩
  cases hu
  exact h u rfl rfl

/-- A delimiter does not begin in an entry that can be followed by one and run on behind it. -/
theorem not_prefix_of_closed {c : Code} {e : Codes} (he : Closed (c :: e))
    (h : ¬ delimiter <+: c :: e) (t : Codes) :
    ¬ delimiter <+: c :: (e ++ (delimiter ++ t)) := by
  intro hbegins
  rcases e with _ | ⟨d, _ | ⟨f, e⟩⟩
  · rw [delimiter_eq, List.cons_prefix_cons] at hbegins
    exact he (by rw [← hbegins.1]; rfl)
  · simp only [delimiter_eq, List.cons_append, List.nil_append, List.cons_prefix_cons] at hbegins
    exact he (by rw [← hbegins.2.1]; rfl)
  · simp only [delimiter_eq, List.cons_append, List.cons_prefix_cons] at hbegins h
    exact h ⟨hbegins.1, hbegins.2.1, hbegins.2.2.1, List.nil_prefix⟩

/-! ### The parts of entries -/

/-- **A delimiter after an entry is found where it was put.** -/
theorem parts_append_delimiter {e : Codes} (he : Closed e) (t : Codes) :
    parts (e ++ (delimiter ++ t)) = parts e ++ parts t := by
  induction e using parts.induct with
  | case1 => exact parts_delimiter t
  | case2 e ih =>
    have hrest := ih he.tail.tail.tail
    have hsplit := parts_delimiter (e ++ (delimiter ++ t))
    rw [hrest] at hsplit
    exact hsplit.trans (congrArg (· ++ parts t) (parts_delimiter e).symm)
  | case3 c e hcons ih =>
    have hstart : ¬ delimiter <+: c :: e := not_prefix_of_parts hcons
    rw [List.cons_append, parts_cons (not_prefix_of_closed he hstart t), ih he.tail,
      parts_cons hstart]
    obtain ⟨p, ps, hps⟩ := List.exists_cons_of_ne_nil (parts_ne_nil e)
    rw [hps]
    rfl

/-- The parts of joined entries are the parts of each. -/
theorem parts_join {es : List Codes} (hne : es ≠ []) (h : Separable es) :
    parts (join es) = es.flatMap parts := by
  induction es with
  | nil => exact absurd rfl hne
  | cons a es ih =>
    cases es with
    | nil => exact (List.append_nil _).symm
    | cons b rest =>
      have ha : Closed a := h a (List.mem_cons_self ..)
      have hrest : Separable (b :: rest) := fun e he => h e (List.mem_cons_of_mem _ he)
      rw [join_cons_cons, List.append_assoc, parts_append_delimiter ha,
        ih (List.cons_ne_nil b rest) hrest]
      rfl

theorem join_eq_nil_iff {es : List Codes} : join es = [] ↔ es = [] ∨ es = [[]] := by
  rcases es with _ | ⟨a, _ | ⟨b, rest⟩⟩
  · exact ⟨fun _ => Or.inl rfl, fun _ => rfl⟩
  · exact ⟨fun h => Or.inr (congrArg (fun a => [a]) h), by rintro (h | h) <;> cases h; rfl⟩
  · simp [join_cons_cons, delimiter]

/-- **What is read back of entries are the parts of each.**  A single empty entry is taken for
none. -/
theorem split_join {es : List Codes} (hne : es ≠ [[]]) (h : Separable es) :
    split (join es) = es.flatMap parts := by
  by_cases hnil : es = []
  · rw [hnil]
    rfl
  · have hjoin : join es ≠ [] := fun h => (join_eq_nil_iff.1 h).elim hnil hne
    rw [split, if_neg hjoin, parts_join hnil h]

/-! ### What parts look like -/

theorem exists_parts_cons (c : Code) {t : Codes} (h : ¬ delimiter <+: c :: t) :
    ∃ p ps, parts t = p :: ps ∧ parts (c :: t) = (c :: p) :: ps ∧ p <+: t := by
  obtain ⟨p, ps, hps⟩ := List.exists_cons_of_ne_nil (parts_ne_nil t)
  refine ⟨p, ps, hps, by rw [parts_cons h, hps]; rfl, ?_⟩
  have hjoin := join_parts t
  rw [hps] at hjoin
  cases ps with
  | nil => exact ⟨[], (List.append_nil p).trans hjoin⟩
  | cons q ps =>
    rw [join_cons_cons, List.append_assoc] at hjoin
    exact ⟨_, hjoin⟩

/-- No half stands alone in joined entries if none does in any of them. -/
theorem isText_join_iff {es : List Codes} : (join es).IsText ↔ ∀ e ∈ es, e.IsText := by
  induction es with
  | nil => exact iff_of_true Codes.isText_nil fun e he => absurd he List.not_mem_nil
  | cons a es ih =>
    cases es with
    | nil => exact List.forall_mem_singleton.symm
    | cons b es =>
      have hdelimiter : delimiter.IsText := Codes.isText_codes _
      rw [join_cons_cons, Codes.isText_append_iff, Codes.isText_append_iff, ih,
        and_iff_left hdelimiter]
      exact List.forall_mem_cons.symm

/-- No half stands alone in what is read of a text in which none does. -/
theorem isText_of_mem_split {t e : Codes} (ht : t.IsText) (he : e ∈ split t) : e.IsText := by
  unfold split at he
  split_ifs at he
  · cases he
  · rw [← join_parts t, isText_join_iff] at ht
    exact ht e he

/-- No part has a delimiter in it. -/
theorem not_isInfix_of_mem_parts {t p : Codes} (hp : p ∈ parts t) : ¬ delimiter <:+: p := by
  induction t using parts.induct generalizing p with
  | case1 =>
    rw [parts, List.mem_singleton] at hp
    rw [hp]
    decide
  | case2 t ih =>
    rw [parts] at hp
    rcases List.mem_cons.1 hp with rfl | hp
    · decide
    · exact ih hp
  | case3 c t hcons ih =>
    have hstart : ¬ delimiter <+: c :: t := not_prefix_of_parts hcons
    obtain ⟨q, ps, hq, hparts, hbegins⟩ := exists_parts_cons c hstart
    rw [hparts] at hp
    rcases List.mem_cons.1 hp with rfl | hp
    · rw [List.infix_cons_iff, not_or]
      refine ⟨fun h => hstart (h.trans ?_), ih (hq ▸ List.mem_cons_self ..)⟩
      exact List.cons_prefix_cons.2 ⟨rfl, hbegins⟩
    · exact ih (hq ▸ List.mem_cons_of_mem _ hp)

/-- A text without a delimiter is its only part. -/
theorem parts_of_not_isInfix {t : Codes} (h : ¬ delimiter <:+: t) : parts t = [t] := by
  induction t with
  | nil => rfl
  | cons c t ih =>
    rw [List.infix_cons_iff, not_or] at h
    rw [parts_cons h.1, ih h.2]
    rfl

/-- Every part but the last is followed by a delimiter, and none begins before its end. -/
theorem separable_parts (t : Codes) : Separable (parts t) := by
  induction t using parts.induct with
  | case1 => exact fun e he => by cases he
  | case2 t ih =>
    intro e he
    rw [parts, List.dropLast_cons_of_ne_nil (parts_ne_nil t)] at he
    rcases List.mem_cons.1 he with rfl | he
    · exact closed_nil
    · exact ih e he
  | case3 c t hcons ih =>
    have hstart : ¬ delimiter <+: c :: t := not_prefix_of_parts hcons
    obtain ⟨p, ps, hp, hparts, -⟩ := exists_parts_cons c hstart
    intro e he
    rw [hparts] at he
    cases ps with
    | nil => cases he
    | cons q ps =>
      rw [Separable, hp] at ih
      rcases List.mem_cons.1 he with rfl | he
      · have hclosed : Closed p := ih p (List.mem_cons_self ..)
        cases p with
        | cons d p =>
          rw [Closed, List.getLast?_cons_cons]
          exact hclosed
        | nil =>
          -- An empty first part means that the rest of the text begins with a delimiter.
          have hjoin := join_parts t
          rw [hp, join_cons_cons, List.nil_append] at hjoin
          rintro hc
          rw [List.getLast?_singleton, Option.some.injEq] at hc
          refine hstart (hjoin ▸ hc ▸ ?_)
          exact ⟨.char '|' :: join (q :: ps), rfl⟩
      · exact ih e (List.mem_cons_of_mem _ he)

theorem separable_split (t : Codes) : Separable (split t) := by
  unfold split
  split_ifs
  · intro e he
    cases he
  · exact separable_parts t

theorem not_isInfix_of_mem_split {t e : Codes} (he : e ∈ split t) : ¬ delimiter <:+: e := by
  unfold split at he
  split_ifs at he
  · cases he
  · exact not_isInfix_of_mem_parts he

theorem flatMap_parts_of_not_isInfix {es : List Codes} (h : ∀ e ∈ es, ¬ delimiter <:+: e) :
    es.flatMap parts = es := by
  induction es with
  | nil => rfl
  | cons e es ih =>
    rw [List.flatMap_cons, parts_of_not_isInfix (h e (List.mem_cons_self ..)),
      ih fun a ha => h a (List.mem_cons_of_mem _ ha), List.singleton_append]

/-! ### What comes back as it is -/

theorem split_ne_singleton_nil (t : Codes) : split t ≠ [[]] := by
  intro h
  have hjoin := join_split t
  rw [h] at hjoin
  rw [← hjoin] at h
  exact absurd h (by decide)

/-- **A text is the stored form of what is read of it, and entries are read back as they are just if
the delimiters between them can be told from what they hold.**  They are not a single empty entry,
none has a delimiter in it, and none but the last ends with a character of the delimiter. -/
theorem join_split_and_split_join_eq_iff :
    (∀ stored : Codes, join (split stored) = stored) ∧
      ∀ entries : List Codes, split (join entries) = entries ↔
        entries ≠ [[]] ∧ (∀ e ∈ entries, ¬ delimiter <:+: e) ∧
          ∀ e ∈ entries.dropLast, e.getLast? ≠ some (.char '|') := by
  refine ⟨join_split, fun entries => ⟨fun h => ?_, ?_⟩⟩
  -- whatever is read of a text has these properties
  · have hne := split_ne_singleton_nil (join entries)
    have hinfix : ∀ e ∈ split (join entries), ¬ delimiter <:+: e :=
      fun e he => not_isInfix_of_mem_split he
    have hseparable := separable_split (join entries)
    rw [h] at hne hinfix hseparable
    exact ⟨hne, hinfix, hseparable⟩
  · rintro ⟨hne, hinfix, hseparable⟩
    rw [split_join hne hseparable, flatMap_parts_of_not_isInfix hinfix]

/-- A bar at the end of an entry is taken for the beginning of the delimiter. -/
example : split (join [Text.codes ['1', '|'], Text.codes ['2']]) =
    [Text.codes ['1'], Text.codes ['|', '2']] := by decide

end SpokenCalculator.History
