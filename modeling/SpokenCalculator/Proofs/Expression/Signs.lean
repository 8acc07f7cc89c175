import SpokenCalculator.Proofs.Expression.Soundness

/-!
# Signs of the screen

Multiplication and division have a sign on the keyboard and one on the screen.  How strongly a sign
binds and what the machine does on it depends on its operation alone.  So an expression is evaluated
as its tokens with the signs of the keyboard, and nothing else of it counts.

* `keyboardSign`, `Token.keyboard`: a token with the sign of the keyboard;
* `mem_tokens_numeral`: a numeral of an expression is a run of digits and points;
* `stackOrder_keyboard`, `run_keyboard`: order and machine do not tell the signs apart;
* `evaluate_eq_of_texts`: expressions with the same tokens have the same value.
-/

namespace SpokenCalculator

/-! ### Tokens and their texts -/

/-- The text of a token, with the sign of the keyboard for a sign of the screen. -/
def keyboardSign (t : Text) : Text :=
  if t = ['×'] then ['*'] else if t = ['÷'] then ['/'] else t

namespace Token

/-- The token with the sign of the keyboard for a sign of the screen. -/
def keyboard : Token → Token
  | operator .cross => .operator .star
  | operator .obelus => .operator .slash
  | t => t

@[simp] theorem keyboard_numeral (n : Text) : (numeral n).keyboard = numeral n := rfl

@[simp] theorem isNumeral_keyboard (t : Token) : t.keyboard.isNumeral = t.isNumeral := by
  rcases t with n | o | u
  · rfl
  · cases o <;> rfl
  · rfl

@[simp] theorem precedence_keyboard (t : Token) : t.keyboard.precedence = t.precedence := by
  rcases t with n | o | u
  · rfl
  · cases o <;> rfl
  · rfl

end Token

theorem numeral_mem_numeralOfRun {run n : Text} (h : .numeral n ∈ numeralOfRun run) :
    n = run ∧ run ≠ [] := by
  by_cases hrun : run = [] <;> simp_all [numeralOfRun]

/-- A numeral among the tokens after a run of digits and points is such a run. -/
theorem mem_tokensAfter_numeral {run e n : Text} (hrun : ∀ c ∈ run, Token.isNumeralChar c = true)
    (h : .numeral n ∈ tokensAfter run e) :
    n ≠ [] ∧ ∀ c ∈ n, Token.isNumeralChar c = true := by
  induction e generalizing run with
  | nil =>
    obtain ⟨hn, hne⟩ := numeral_mem_numeralOfRun h
    exact hn ▸ ⟨hne, hrun⟩
  | cons c e ih =>
    by_cases hc : Token.isNumeralChar c = true
    · rw [tokensAfter, if_pos hc] at h
      refine ih (fun d hd => ?_) h
      rcases List.mem_append.1 hd with hd | hd
      · exact hrun d hd
      · rwa [List.mem_singleton.1 hd]
    · rw [tokensAfter, if_neg hc] at h
      simp only [List.mem_append, Option.mem_toList, Option.map_eq_some_iff, reduceCtorEq,
        and_false, exists_false, false_or] at h
      rcases h with h | h
      · obtain ⟨hn, hne⟩ := numeral_mem_numeralOfRun h
        exact hn ▸ ⟨hne, hrun⟩
      · exact ih (by simp) h

/-- **A numeral of an expression is a run of digits and points.** -/
theorem mem_tokens_numeral {e n : Text} (h : .numeral n ∈ tokens e) :
    n ≠ [] ∧ ∀ c ∈ n, Token.isNumeralChar c = true :=
  mem_tokensAfter_numeral (by simp) h

/-- A token of an expression is told from its text. -/
theorem ofText_keyboardSign {e : Text} {t : Token} (h : t ∈ tokens e) :
    Token.ofText (keyboardSign t.text) = t.keyboard := by
  cases mem_tokens h with
  | operator o => cases o <;> decide
  | numeral n =>
    obtain ⟨hne, hchars⟩ := mem_tokens_numeral h
    obtain ⟨c, n, rfl⟩ := List.exists_cons_of_ne_nil hne
    have hc : Token.isNumeralChar c = true := hchars c (List.mem_cons_self ..)
    have hcross : c ≠ '×' := by
      rintro rfl
      exact absurd hc (by decide)
    have hobelus : c ≠ '÷' := by
      rintro rfl
      exact absurd hc (by decide)
    have hsign : keyboardSign (c :: n) = c :: n := by simp [keyboardSign, hcross, hobelus]
    rw [Token.text, hsign, Token.ofText, if_pos hc, Token.keyboard_numeral]

/-! ### Order and machine -/

/-- The order does not tell the signs of an operation apart. -/
theorem stackOrderFrom_keyboard (waiting ts : List Token) :
    stackOrderFrom (waiting.map Token.keyboard) (ts.map Token.keyboard) =
      (stackOrderFrom waiting ts).map Token.keyboard := by
  induction ts generalizing waiting with
  | nil => rfl
  | cons t ts ih =>
    rw [List.map_cons, stackOrderFrom, stackOrderFrom, Token.isNumeral_keyboard]
    split
    · rw [ih, List.map_cons]
    · rw [List.takeWhile_map, List.dropWhile_map, ← List.map_cons, ih, List.map_append]
      simp only [Function.comp_def, Token.precedence_keyboard]

theorem stackOrder_keyboard (ts : List Token) :
    stackOrder (ts.map Token.keyboard) = (stackOrder ts).map Token.keyboard :=
  stackOrderFrom_keyboard [] ts

/-- The machine does not tell the signs of an operation apart. -/
theorem step_keyboard (stack : List Binary64) (t : Token) :
    step stack t.keyboard = step stack t := by
  rcases t with n | o | u
  · rfl
  · -- two operands are taken, one, or none
    rcases stack with _ | ⟨b, _ | ⟨a, stack⟩⟩ <;> cases o <;> rfl
  · rfl

theorem run_keyboard (ts : List Token) : run (ts.map Token.keyboard) = run ts := by
  have hstep : (fun stack t => step stack (Token.keyboard t)) = step := by
    funext stack t
    exact step_keyboard stack t
  rw [run, run, List.foldlM_map, hstep]

/-! ### Expressions -/

/-- The value of an expression by its tokens with the signs of the keyboard. -/
theorem evaluate_eq_keyboard (e : Text) :
    evaluate e =
      if (tokens e).map Token.keyboard = [] then .ok .zero
      else (run (stackOrder ((tokens e).map Token.keyboard))).mapError Halt.toFault := by
  rw [evaluate_eq, compute_eq, stackOrder_keyboard, run_keyboard]
  simp only [List.map_eq_nil_iff]

/-- **The value of an expression depends on the texts of its tokens alone, and signs of one
operation count as the same.** -/
theorem evaluate_eq_of_texts {e e' : Text}
    (h : (tokens e).map (fun t => keyboardSign t.text) =
      (tokens e').map fun t => keyboardSign t.text) :
    evaluate e = evaluate e' := by
  have htokens (e : Text) : (tokens e).map Token.keyboard =
      ((tokens e).map fun t => keyboardSign t.text).map Token.ofText := by
    rw [List.map_map]
    exact List.map_congr_left fun t ht => (ofText_keyboardSign ht).symm
  rw [evaluate_eq_keyboard e, evaluate_eq_keyboard e', htokens e, htokens e', h]

/-- Words, spaces and the signs of the screen make no difference, also to an expression that has no
value. -/
theorem evaluate_eq_of_texts_division :
    (tokens "6 ÷ 0 × 1.2.3".toList).map (fun t => keyboardSign t.text) =
        (tokens "six: 6/0*1.2.3".toList).map (fun t => keyboardSign t.text) ∧
      evaluate "6 ÷ 0 × 1.2.3".toList = evaluate "six: 6/0*1.2.3".toList :=
  have h : (tokens "6 ÷ 0 × 1.2.3".toList).map (fun t => keyboardSign t.text) =
      (tokens "six: 6/0*1.2.3".toList).map (fun t => keyboardSign t.text) := by decide
  ⟨h, evaluate_eq_of_texts h⟩

end SpokenCalculator
