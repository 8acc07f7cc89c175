import SpokenCalculator.Json.Printer
import SpokenCalculator.Proofs.Expression.Tokens

/-!
# Texts of tokens

What stands in an expression beside its tokens separates them and has no other part in it.  So no
character of a token is lost, a numeral is a whole run of digits and points, and the texts of tokens
with a space between each two have these tokens again.

* `lexemes`: the texts of the tokens of an expression;
* `Spells`, `lexemes_eq_iff`: the rules of tokens, and that they say which texts these are;
* `Spells.append`: expressions side by side, where no run of digits and points goes on;
* `TakesPlace`, `lexemes_eq_append_iff`: a token and its place in the expression;
* `lexemes_join_eq_iff`: which texts are tokens again when they are joined;
* `flatten_lexemes_and_lexemes_join_eq_iff`: all this together.
-/

namespace SpokenCalculator
open Text

/-! ### The characters of tokens -/

/-- The digits and the point. -/
def numeralChars : Text := "0123456789.".toList

/-- The signs of the operations. -/
def operatorChars : Text := "+-*/×÷".toList

theorem isNumeralChar_iff {c : Char} : Token.isNumeralChar c = true ↔ c ∈ numeralChars := by
  constructor
  · intro hc
    rw [Token.isNumeralChar, Bool.or_eq_true, beq_iff_eq] at hc
    rcases hc with hc | rfl
    · exact of_isAsciiDigit (P := (· ∈ numeralChars)) (by decide) hc
    · decide
  · have hall : ∀ d ∈ numeralChars, Token.isNumeralChar d = true :=
      List.all_eq_true.1 (by decide)
    exact hall c

theorem isNumeralChar_eq_false {c : Char} (hc : c ∉ numeralChars) :
    Token.isNumeralChar c = false :=
  Bool.eq_false_iff.2 (mt isNumeralChar_iff.1 hc)

theorem mem_operatorChars {c : Char} : c ∈ operatorChars ↔ ∃ o : Operator, o.char = c := by
  constructor
  · have hall : ∀ d ∈ operatorChars, (Operator.ofChar? d).isSome = true :=
      List.all_eq_true.1 (by decide)
    intro hc
    obtain ⟨o, ho⟩ := Option.isSome_iff_exists.1 (hall c hc)
    exact ⟨o, Operator.char_of_ofChar? ho⟩
  · rintro ⟨o, rfl⟩
    cases o <;> decide

theorem ofChar?_eq_none_iff {c : Char} : Operator.ofChar? c = none ↔ c ∉ operatorChars := by
  rw [Option.eq_none_iff_forall_ne_some, mem_operatorChars, not_exists]
  exact forall_congr' fun o =>
    not_congr ⟨Operator.char_of_ofChar?, fun h => h ▸ Operator.ofChar?_char o⟩

/-- A sign of an operation ends a numeral. -/
theorem char_notMem_numeralChars (o : Operator) : o.char ∉ numeralChars := by
  cases o <;> decide

/-! ### Texts of tokens -/

/-- The texts of the tokens of an expression, from left to right. -/
def lexemes (expression : Text) : List Text := (tokens expression).map Token.text

/-- A run of digits and points. -/
def IsRun (t : Text) : Prop := t ≠ [] ∧ ∀ c ∈ t, c ∈ numeralChars

/-- The text of a token: the sign of an operation, or a run of digits and points. -/
def IsLexeme (u : Text) : Prop := (∃ c ∈ operatorChars, u = [c]) ∨ IsRun u

/-- No digit or point stands at the end of one text with another at the beginning of the next. -/
def Apart (a b : Text) : Prop :=
  ∀ c ∈ a.getLast?, ∀ d ∈ b.head?, c ∈ numeralChars → d ∉ numeralChars

/-- **The rules of tokens.**  Digits and points are one token with all of their kind that follow,
the sign of an operation is one by itself, and any other character is passed over. -/
inductive Spells : List Text → Text → Prop
  | nil : Spells [] []
  | skip {us : List Text} {c : Char} {e : Text} (hc : c ∉ numeralChars ++ operatorChars)
      (h : Spells us e) : Spells us (c :: e)
  | operator {us : List Text} (o : Operator) {e : Text} (h : Spells us e) :
      Spells ([o.char] :: us) (o.char :: e)
  | run {us : List Text} {r e : Text} (hr : IsRun r) (he : ∀ c ∈ e.head?, c ∉ numeralChars)
      (h : Spells us e) : Spells (r :: us) (r ++ e)

/-! ### The tokens follow the rules -/

theorem spells_numeralOfRun {us : List Text} {r e : Text} (hr : ∀ c ∈ r, c ∈ numeralChars)
    (he : ∀ c ∈ e.head?, c ∉ numeralChars) (h : Spells us e) :
    Spells ((numeralOfRun r).map Token.text ++ us) (r ++ e) := by
  by_cases hnil : r = []
  · simpa [numeralOfRun, hnil] using h
  · simpa [numeralOfRun, hnil, Token.text] using Spells.run ⟨hnil, hr⟩ he h

theorem spells_tokensAfter {r : Text} (hr : ∀ c ∈ r, c ∈ numeralChars) (e : Text) :
    Spells ((tokensAfter r e).map Token.text) (r ++ e) := by
  induction e generalizing r with
  | nil => simpa [tokensAfter] using spells_numeralOfRun hr (by simp) .nil
  | cons c e ih =>
    rw [tokensAfter]
    split
    · rename_i hc
      have hrc : ∀ d ∈ r ++ [c], d ∈ numeralChars :=
        List.forall_mem_append.2 ⟨hr, by simpa using isNumeralChar_iff.1 hc⟩
      simpa using ih hrc
    · rename_i hc
      have hnotMem : c ∉ numeralChars := mt isNumeralChar_iff.2 hc
      have hrest : Spells ((tokens e).map Token.text) e := ih (r := []) (by simp)
      rw [List.map_append]
      refine spells_numeralOfRun hr (by simpa using hnotMem) ?_
      cases ho : Operator.ofChar? c with
      | none => exact .skip (by simp [hnotMem, ofChar?_eq_none_iff.1 ho]) hrest
      | some o => exact Operator.char_of_ofChar? ho ▸ .operator o hrest

theorem spells_lexemes (e : Text) : Spells (lexemes e) e := spells_tokensAfter (r := []) (by simp) e

/-- The rules leave no choice. -/
theorem Spells.lexemes_eq {us : List Text} {e : Text} (h : Spells us e) : lexemes e = us := by
  induction h with
  | nil => rfl
  | @skip us c e hc h ih =>
    rw [List.mem_append, not_or] at hc
    rw [← ih]
    simp [lexemes, tokens, tokensAfter, isNumeralChar_eq_false hc.1, ofChar?_eq_none_iff.2 hc.2,
      numeralOfRun]
  | operator o h ih => rw [lexemes, tokens_operator, List.map_cons, ← ih]; rfl
  | run hr he h ih =>
    rw [lexemes, tokens_run_append hr.1 (fun c hc => isNumeralChar_iff.2 (hr.2 c hc))
      fun c hc => isNumeralChar_eq_false (he c hc), List.map_cons, ← ih]
    rfl

/-- **The texts of the tokens of an expression are those that the rules allow.**  What is shown of
them below is shown by induction on the rules. -/
theorem lexemes_eq_iff {us : List Text} {e : Text} : lexemes e = us ↔ Spells us e :=
  ⟨fun h => h ▸ spells_lexemes e, Spells.lexemes_eq⟩

/-! ### Nothing is lost -/

theorem Spells.flatten_eq {us : List Text} {e : Text} (h : Spells us e) :
    us.flatten = e.filter (· ∈ numeralChars ++ operatorChars) := by
  induction h with
  | nil => rfl
  | skip hc h ih => rw [ih, List.filter_cons_of_neg (by simpa using hc)]
  | operator o h ih =>
    have ho : o.char ∈ operatorChars := mem_operatorChars.2 ⟨o, rfl⟩
    rw [List.flatten_cons, ih, List.filter_cons_of_pos (by simp [ho]), List.singleton_append]
  | @run us r e hr he h ih =>
    have hkept : ∀ c ∈ r, decide (c ∈ numeralChars ++ operatorChars) = true :=
      fun c hc => by simp [hr.2 c hc]
    rw [List.flatten_cons, ih, List.filter_append, List.filter_eq_self.2 hkept]

theorem Spells.isLexeme {us : List Text} {e : Text} (h : Spells us e) : ∀ u ∈ us, IsLexeme u := by
  induction h with
  | nil => simp
  | skip hc h ih => exact ih
  | operator o h ih =>
    exact List.forall_mem_cons.2 ⟨.inl ⟨o.char, mem_operatorChars.2 ⟨o, rfl⟩, rfl⟩, ih⟩
  | run hr he h ih => exact List.forall_mem_cons.2 ⟨.inr hr, ih⟩

/-! ### Expressions side by side -/

section Apart

variable {a b : Text}

theorem apart_of_getLast (h : ∀ c ∈ a.getLast?, c ∉ numeralChars) : Apart a b :=
  fun c hc _ _ hmem => absurd hmem (h c hc)

theorem apart_of_head (h : ∀ d ∈ b.head?, d ∉ numeralChars) : Apart a b :=
  fun _ _ d hd _ => h d hd

theorem Apart.of_append_left {g : Text} (h : Apart (g ++ a) b) : Apart a b := by
  intro c hc
  rw [Option.mem_def] at hc
  exact h c (by simp [List.getLast?_append, hc])

end Apart

/-- **Expressions side by side have the tokens of each.**  Only a run of digits and points must not
go on from one into the other. -/
theorem Spells.append {us vs : List Text} {a b : Text} (ha : Spells us a) (hb : Spells vs b)
    (h : Apart a b) : Spells (us ++ vs) (a ++ b) := by
  induction ha with
  | nil => exact hb
  | @skip us c a hc ha ih => exact .skip hc (ih (h.of_append_left (g := [c])))
  | @operator us o a ha ih => exact .operator o (ih (h.of_append_left (g := [o.char])))
  | @run us r a hr hend ha ih =>
    rw [List.append_assoc]
    refine .run hr ?_ (ih h.of_append_left)
    cases a with
    | cons c a => exact hend
    | nil =>
      -- the run stands at the end of the first expression
      have hlast : r.getLast hr.1 ∈ numeralChars := hr.2 _ (List.getLast_mem hr.1)
      rw [List.append_nil] at h
      exact fun d hd => h _ (List.getLast?_eq_some_getLast hr.1) d hd hlast

/-! ### The place of a token -/

/-- A run of digits and points that goes on neither to the left nor to the right. -/
structure IsMaximalRun (before r after : Text) : Prop where
  isRun : IsRun r
  before : ∀ c ∈ before.getLast?, c ∉ numeralChars
  after : ∀ c ∈ after.head?, c ∉ numeralChars

/-- A text is a token by what stands before and after it: it is the sign of an operation, or a
maximal run of digits and points. -/
def TakesPlace (before u after : Text) : Prop :=
  (∃ c ∈ operatorChars, u = [c]) ∨ IsMaximalRun before u after

theorem IsLexeme.spells {u : Text} (h : IsLexeme u) : Spells [u] u := by
  rcases h with ⟨c, hc, rfl⟩ | hrun
  · obtain ⟨o, rfl⟩ := mem_operatorChars.1 hc
    exact .operator o .nil
  · simpa using Spells.run hrun (by simp) .nil

section Place

variable {before u after : Text}

theorem TakesPlace.isLexeme (h : TakesPlace before u after) : IsLexeme u :=
  h.imp_right IsMaximalRun.isRun

theorem TakesPlace.apart_right (h : TakesPlace before u after) : Apart u after := by
  rcases h with ⟨c, hc, rfl⟩ | hrun
  · obtain ⟨o, rfl⟩ := mem_operatorChars.1 hc
    exact apart_of_getLast (by simpa using char_notMem_numeralChars o)
  · exact apart_of_head hrun.after

theorem TakesPlace.apart_left (h : TakesPlace before u after) : Apart before (u ++ after) := by
  rcases h with ⟨c, hc, rfl⟩ | hrun
  · obtain ⟨o, rfl⟩ := mem_operatorChars.1 hc
    exact apart_of_head (by simpa using char_notMem_numeralChars o)
  · exact apart_of_getLast hrun.before

/-- A token keeps its place behind a text that no run goes on from. -/
theorem TakesPlace.append_left {g : Text} (h : TakesPlace before u after)
    (hg : Apart g (before ++ (u ++ after))) : TakesPlace (g ++ before) u after := by
  refine h.imp_right fun hrun => ⟨hrun.isRun, ?_, hrun.after⟩
  cases before with
  | cons c before => simpa using hrun.before
  | nil =>
    -- the run stands at the beginning of what follows `g`
    obtain ⟨d, u, rfl⟩ := List.exists_cons_of_ne_nil hrun.isRun.1
    have hd : d ∈ numeralChars := hrun.isRun.2 d List.mem_cons_self
    rw [List.append_nil]
    exact fun c hc hmem => hg c hc d rfl hmem hd

end Place

/-- Every token takes its place between an expression of the tokens before it and one of the tokens
after it. -/
theorem Spells.exists_place {us vs : List Text} {u e : Text} (h : Spells (us ++ u :: vs) e) :
    ∃ before after, e = before ++ (u ++ after) ∧ Spells us before ∧ Spells vs after ∧
      TakesPlace before u after := by
  generalize hws : us ++ u :: vs = ws at h
  induction h generalizing us with
  | nil => simp at hws
  | @skip ws c e hc h ih =>
    obtain ⟨before, after, rfl, hbefore, hafter, hplace⟩ := ih hws
    rw [List.mem_append, not_or] at hc
    refine ⟨c :: before, after, rfl, .skip (by simp [hc]) hbefore, hafter, ?_⟩
    exact hplace.append_left (g := [c]) (apart_of_getLast (by simpa using hc.1))
  | @operator ws o e h ih =>
    -- the token of the rule is the one asked for, or one of those before it
    cases us with
    | nil =>
      obtain ⟨rfl, rfl⟩ := List.cons.inj hws
      exact ⟨[], e, rfl, .nil, h, .inl ⟨o.char, mem_operatorChars.2 ⟨o, rfl⟩, rfl⟩⟩
    | cons v us =>
      obtain ⟨rfl, htail⟩ := List.cons.inj hws
      obtain ⟨before, after, rfl, hbefore, hafter, hplace⟩ := ih htail
      refine ⟨o.char :: before, after, rfl, .operator o hbefore, hafter, ?_⟩
      exact hplace.append_left (g := [o.char])
        (apart_of_getLast (by simpa using char_notMem_numeralChars o))
  | @run ws r e hr he h ih =>
    cases us with
    | nil =>
      obtain ⟨rfl, rfl⟩ := List.cons.inj hws
      exact ⟨[], e, rfl, .nil, h, .inr ⟨hr, by simp, he⟩⟩
    | cons v us =>
      obtain ⟨rfl, htail⟩ := List.cons.inj hws
      obtain ⟨before, after, rfl, hbefore, hafter, hplace⟩ := ih htail
      refine ⟨v ++ before, after, (List.append_assoc ..).symm, .run hr ?_ hbefore, hafter,
        hplace.append_left (apart_of_head he)⟩
      cases before with
      | nil => simp
      | cons c before => exact he

/-- **A token stands at its place between the tokens before and after it, and what takes a place is
a token.** -/
theorem lexemes_eq_append_iff {us vs : List Text} {u e : Text} :
    lexemes e = us ++ u :: vs ↔
      ∃ before after, e = before ++ (u ++ after) ∧ lexemes before = us ∧ lexemes after = vs ∧
        TakesPlace before u after := by
  simp only [lexemes_eq_iff]
  constructor
  · exact Spells.exists_place
  · rintro ⟨before, after, rfl, hbefore, hafter, hplace⟩
    have hbehind : Spells (u :: vs) (u ++ after) :=
      hplace.isLexeme.spells.append hafter hplace.apart_right
    exact hbefore.append hbehind hplace.apart_left

/-! ### Texts joined with spaces -/

theorem spells_join {us : List Text} (hus : ∀ u ∈ us, IsLexeme u) : Spells us (join [' '] us) := by
  induction us with
  | nil => exact .nil
  | cons u us ih =>
    obtain ⟨hu, hus⟩ := List.forall_mem_cons.1 hus
    cases us with
    | nil => exact hu.spells
    | cons v us =>
      have hspace : ' ' ∉ numeralChars ++ operatorChars := by decide
      have hend : ' ' ∉ numeralChars := by decide
      have hrest : Spells (v :: us) (' ' :: join [' '] (v :: us)) := .skip hspace (ih hus)
      rw [join_cons_cons, List.append_assoc]
      exact hu.spells.append hrest (apart_of_head (by simpa using hend))

/-- Texts are tokens again when they are joined with spaces, if each is the text of a token. -/
theorem lexemes_join_eq_iff {us : List Text} :
    lexemes (join [' '] us) = us ↔ ∀ u ∈ us, IsLexeme u := by
  rw [lexemes_eq_iff]
  exact ⟨Spells.isLexeme, spells_join⟩

/-- **No character of a token is lost, and every token is the sign of an operation or a maximal run
at its place.**  The texts of tokens have these tokens again when they are joined with spaces, and
no other texts do. -/
theorem flatten_lexemes_and_lexemes_join_eq_iff :
    (∀ e : Text,
      (lexemes e).flatten = e.filter (· ∈ numeralChars ++ operatorChars) ∧
      (∀ us u vs, lexemes e = us ++ u :: vs ↔
        ∃ before after, e = before ++ (u ++ after) ∧ lexemes before = us ∧ lexemes after = vs ∧
          ((∃ c ∈ operatorChars, u = [c]) ∨ IsMaximalRun before u after)) ∧
      lexemes (join [' '] (lexemes e)) = lexemes e) ∧
    ∀ us : List Text, lexemes (join [' '] us) = us ↔
      ∀ u ∈ us, (∃ c ∈ operatorChars, u = [c]) ∨ (u ≠ [] ∧ ∀ c ∈ u, c ∈ numeralChars) := by
  refine ⟨fun e => ⟨?_, fun us u vs => lexemes_eq_append_iff, ?_⟩, fun us => lexemes_join_eq_iff⟩
  · exact (spells_lexemes e).flatten_eq
  · exact lexemes_join_eq_iff.2 (spells_lexemes e).isLexeme

/-- Digits of other scripts, the minus sign of the screen and letters are passed over, and end a
run. -/
example : lexemes "1..2a3 − ٣4×÷.x".toList =
    ["1..2".toList, "3".toList, "4".toList, "×".toList, "÷".toList, ".".toList] := by decide

end SpokenCalculator
