import Mathlib.Data.List.DropRight
import Mathlib.Tactic.ByContra
import Mathlib.Tactic.Push
import SpokenCalculator.Expression.Evaluation

/-!
# The tokens of an expression

* `tokens_append_operator`: an expression is divided at its operators;
* `tokens_run_append`: digits and points that stand together are one token;
* `mem_tokens`: there are no tokens but numerals and operators;
* `evaluate_eq`: the value of an expression by its tokens alone.
-/

namespace SpokenCalculator

namespace Token

/-- A token that expressions have: a numeral or an operator. -/
inductive IsProper : Token → Prop
  | numeral (t : Text) : IsProper (.numeral t)
  | operator (o : Operator) : IsProper (.operator o)

theorem IsProper.isEmpty_eq_false {t : Token} (h : t.IsProper) : t.isEmpty = false := by
  cases h <;> rfl

end Token

@[simp] theorem isNumeralChar_char (o : Operator) : Token.isNumeralChar o.char = false := by
  cases o <;> decide

/-- **Tokens are divided at an operator.** -/
theorem tokensAfter_append_operator (run a b : Text) (o : Operator) :
    tokensAfter run (a ++ o.char :: b) = tokensAfter run a ++ .operator o :: tokens b := by
  induction a generalizing run with
  | nil => simp [tokensAfter, tokens]
  | cons c a ih =>
    rw [List.cons_append, tokensAfter, tokensAfter]
    split
    · exact ih _
    · rw [ih, List.append_assoc, List.append_assoc]

theorem tokens_append_operator (a b : Text) (o : Operator) :
    tokens (a ++ o.char :: b) = tokens a ++ .operator o :: tokens b :=
  tokensAfter_append_operator [] a b o

theorem tokens_operator (b : Text) (o : Operator) :
    tokens (o.char :: b) = .operator o :: tokens b :=
  tokens_append_operator [] b o

/-- Digits and points belong to the run they follow, up to a character of another kind. -/
theorem tokensAfter_run_append (run : Text) {t e : Text}
    (ht : ∀ c ∈ t, Token.isNumeralChar c = true)
    (he : ∀ c ∈ e.head?, Token.isNumeralChar c = false) :
    tokensAfter run (t ++ e) = numeralOfRun (run ++ t) ++ tokens e := by
  induction t generalizing run with
  | nil =>
    rw [List.nil_append, List.append_nil]
    cases e with
    | nil => exact (List.append_nil _).symm
    | cons c e => simp [tokens, tokensAfter, he c rfl, numeralOfRun]
  | cons c t ih =>
    obtain ⟨hc, ht⟩ := List.forall_mem_cons.1 ht
    rw [List.cons_append, tokensAfter, if_pos hc, ih _ ht, List.append_assoc,
      List.singleton_append]

theorem tokens_run_append {t e : Text} (hne : t ≠ [])
    (ht : ∀ c ∈ t, Token.isNumeralChar c = true)
    (he : ∀ c ∈ e.head?, Token.isNumeralChar c = false) :
    tokens (t ++ e) = .numeral t :: tokens e := by
  rw [tokens, tokensAfter_run_append [] ht he, List.nil_append, numeralOfRun, if_neg hne,
    List.singleton_append]

theorem tokens_run {t : Text} (hne : t ≠ []) (h : ∀ c ∈ t, Token.isNumeralChar c = true) :
    tokens t = [.numeral t] := by
  have happend := tokens_run_append (e := []) hne h (by simp)
  rwa [List.append_nil] at happend

theorem mem_numeralOfRun {t : Token} {run : Text} (h : t ∈ numeralOfRun run) : t.IsProper := by
  unfold numeralOfRun at h
  split at h
  · cases h
  · rw [List.mem_singleton.1 h]
    exact .numeral run

theorem mem_tokensAfter {t : Token} {run e : Text} (h : t ∈ tokensAfter run e) : t.IsProper := by
  induction e generalizing run with
  | nil => exact mem_numeralOfRun h
  | cons c e ih =>
    rw [tokensAfter] at h
    split at h
    · exact ih h
    · rcases List.mem_append.1 h with h | h
      · exact mem_numeralOfRun h
      · rcases List.mem_append.1 h with h | h
        · obtain ⟨o, -, rfl⟩ := Option.map_eq_some_iff.1 (Option.mem_toList.1 h)
          exact .operator o
        · exact ih h

/-- There are no tokens but numerals and operators. -/
theorem mem_tokens {t : Token} {e : Text} (h : t ∈ tokens e) : t.IsProper := mem_tokensAfter h

/-! ### Blank expressions -/

theorem not_isNumeralChar_of_isBlank {c : Char} (h : Text.isBlank c = true) :
    Token.isNumeralChar c = false := by
  by_contra hc
  rw [Bool.not_eq_false, Token.isNumeralChar, Bool.or_eq_true, beq_iff_eq] at hc
  rcases hc with hc | rfl
  · simp only [Text.isAsciiDigit, Text.isBlank, Bool.and_eq_true, Bool.or_eq_true,
      decide_eq_true_eq, beq_iff_eq] at hc h
    omega
  · exact absurd h (by decide)

theorem ofChar?_of_isBlank {c : Char} (h : Text.isBlank c = true) : Operator.ofChar? c = none := by
  rw [Option.eq_none_iff_forall_ne_some]
  intro o ho
  rw [← Operator.char_of_ofChar? ho] at h
  cases o <;> exact absurd h (by decide)

theorem tokens_eq_nil_of_isBlank {e : Text} (h : ∀ c ∈ e, Text.isBlank c = true) :
    tokens e = [] := by
  induction e with
  | nil => rfl
  | cons c e ih =>
    have hc := h c (List.mem_cons_self ..)
    have hrest := ih fun d hd => h d (List.mem_cons_of_mem _ hd)
    rw [tokens] at hrest ⊢
    simp [tokensAfter, not_isNumeralChar_of_isBlank hc, ofChar?_of_isBlank hc, hrest,
      numeralOfRun]

theorem isBlank_of_trim_eq_nil {e : Text} (h : Text.trim e = []) :
    ∀ c ∈ e, Text.isBlank c = true := by
  obtain ⟨before, after, hbefore, hafter, heq⟩ := Text.exists_eq_append_trim e
  rw [heq, h, List.nil_append, List.forall_mem_append]
  exact ⟨hbefore, hafter⟩

/-- The value of an expression by its tokens: of none it is zero. -/
theorem evaluate_eq (e : Text) :
    evaluate e =
      if tokens e = [] then .ok .zero else (compute e).mapError Halt.toFault := by
  unfold evaluate
  split
  · rename_i h
    rw [if_pos (tokens_eq_nil_of_isBlank (isBlank_of_trim_eq_nil h))]
  · rfl

end SpokenCalculator
