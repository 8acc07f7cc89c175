import SpokenCalculator.Expression.ResultText
import SpokenCalculator.Proofs.Expression.Postorder
import SpokenCalculator.Proofs.Text.Numeral

/-!
# The text of a result is read back as the result

A result is the number nearest to some places.  Up to `2 ^ 19` the ten decimal places of its text
are these places.  Beyond that they may be others, but there the steps between numbers are so large
that the result is also the number nearest to what is written.

* `rankOfPlaces_written`: the rank of the places that are written;
* `exists_numeral_of_places`: the text without its last zeros has the same places;
* `exists_resultText`: the text of a result is a sign and a plain numeral of its magnitude;
* `evaluate_resultText`: evaluated again, the text of a result is the result.
-/

namespace SpokenCalculator
open Binary64 Text

/-! ### The places that are written -/

theorem rankOfPlaces_written_of_le {n : ℕ} (hn : n ≤ 2 ^ 19 * 10 ^ 10) :
    roundHalfEven (unitsOfRank (rankOfPlaces n) * 10 ^ 10) unit = n := by
  obtain ⟨j, hj⟩ : ∃ j, 34 + j = 1074 := ⟨1040, rfl⟩
  have hunit : (unit : ℚ) = 2 ^ 34 * 2 ^ j := unit_cast hj
  have hhalf : (unit : ℚ) / 2 = 2 ^ (33 + j) := by rw [hunit, pow_add]; ring
  have hnq : (n : ℚ) ≤ 2 ^ 19 * 10 ^ 10 := by exact_mod_cast hn
  have h := abs_rankOfPlaces_sub_lt (n := n) (j := j) (by
    rw [hunit]
    have hpos : (0 : ℚ) < 2 ^ j := by positivity
    nlinarith)
  rw [← hhalf] at h
  refine roundHalfEven_eq_of_abs_le unit_pos ?_ fun heq => ?_
  · push_cast
    exact h.le
  · push_cast at heq
    exact absurd heq h.ne

/-- A result from so many places, unless it is whole, is so large that the steps on both sides of it
are a power of two. -/
theorem lt_unitsOfRank_rankOfPlaces {n e : ℕ} (he : 33 + e = 1074) (hn : 2 ^ 19 * 10 ^ 10 ≤ n)
    (hw : ¬ unit ∣ unitsOfRank (rankOfPlaces n)) :
    2 ^ (52 + e) < unitsOfRank (rankOfPlaces n) := by
  have hpow : 2 ^ (52 + e) = 2 ^ 19 * unit := by rw [unit_eq, ← he, ← Nat.pow_add]; congr 1; omega
  obtain ⟨t, ht⟩ := exists_unitsOfRank (m := 2 ^ 52) (by decide) e
  rw [← Nat.pow_add, hpow] at ht
  have hle : t ≤ rankOfPlaces n := by
    refine (isNearest_rankOfPlaces n).ge_of_ge ?_
    rw [ht, le_div_iff₀ (by norm_num)]
    have := Nat.mul_le_mul_right unit hn
    rw [Nat.mul_right_comm] at this
    exact_mod_cast this
  rw [hpow, ← ht]
  refine unitsOfRank_strictMono (lt_of_le_of_ne hle ?_)
  rintro rfl
  exact hw (ht ▸ Nat.dvd_mul_left unit _)

/-- The places that are written for a result have its rank. -/
theorem rankOfPlaces_written {n : ℕ} (hw : ¬ unit ∣ unitsOfRank (rankOfPlaces n)) :
    rankOfPlaces (roundHalfEven (unitsOfRank (rankOfPlaces n) * 10 ^ 10) unit) =
      rankOfPlaces n := by
  rcases Nat.le_total n (2 ^ 19 * 10 ^ 10) with hn | hn
  · rw [rankOfPlaces_written_of_le hn]
  · obtain ⟨e, he⟩ : ∃ e, 33 + e = 1074 := ⟨1041, rfl⟩
    have hlt := lt_unitsOfRank_rankOfPlaces he hn hw
    have hround := abs_sub_roundHalfEven_le (unitsOfRank (rankOfPlaces n) * 10 ^ 10) unit_pos
    generalize roundHalfEven (unitsOfRank (rankOfPlaces n) * 10 ^ 10) unit = m at hround ⊢
    -- what is written is at most half a place away, less than half of the step there
    refine (isNearest_rankOfPlaces m).unique (isNearest_of_abs_lt hlt ?_)
    have hunit : (unit : ℚ) = 2 ^ 33 * 2 ^ e := unit_cast he
    have hpos : (0 : ℚ) < 2 ^ e := by positivity
    push_cast at hround
    have hscale : (m * unit / 10 ^ 10 - unitsOfRank (rankOfPlaces n) : ℚ) * 10 ^ 10 =
        -(unitsOfRank (rankOfPlaces n) * 10 ^ 10 - m * unit) := by ring
    have habs := congrArg abs hscale
    rw [abs_neg, abs_mul, abs_of_pos (show (0 : ℚ) < 10 ^ 10 by norm_num)] at habs
    rw [hunit] at hround habs ⊢
    linarith

/-! ### The text without its last zeros -/

/-- A number of places, written without the zeros at its end, is a plain numeral of as much. -/
theorem exists_numeral_of_places (sign : Text) (m : ℕ) :
    ∃ t d k, dropTail (· == '.') (dropTail (· == '0') (sign ++ pointText 10 m)) = sign ++ t ∧
      Numeral.isPlain t = true ∧ Decimal.ofPlain t = ⟨d, -(k : ℕ)⟩ ∧ k ≤ 10 ∧
      d * 10 ^ (10 - k) = m := by
  have hlen := length_leftpad (j := 10) (by decide) (Nat.mod_lt m (show 0 < 10 ^ 10 by decide))
  have hvalue := value_leftpad 10 (m % 10 ^ 10)
  have hdigits := isDigits_leftpad 10 (m % 10 ^ 10)
  have htext : pointText 10 m =
      ofNat (m / 10 ^ 10) ++ '.' :: (ofNat (m % 10 ^ 10)).leftpad 10 '0' := rfl
  rw [htext, ← List.append_assoc, dropTail_append_cons _ _ (by decide)]
  generalize (ofNat (m % 10 ^ 10)).leftpad 10 '0' = places at hlen hvalue hdigits ⊢
  -- the ten places are those that are kept and the zeros that are dropped
  obtain ⟨j, hj⟩ := exists_dropTail_append_zeros places
  generalize dropTail (· == '0') places = f at hj ⊢
  rw [hj] at hlen hvalue hdigits
  rw [List.length_append, List.length_replicate] at hlen
  rw [value_append_zeros] at hvalue
  obtain ⟨t, ht, hplain, hread⟩ := exists_numeral_of_digits (isDigits_ofNat (m / 10 ^ 10))
    (ofNat_ne_nil _) hdigits.of_append_left sign
  refine ⟨t, _, f.length, ht, hplain, hread, by omega, ?_⟩
  have hdiv := Nat.div_add_mod' m (10 ^ 10)
  have hpow : 10 ^ f.length * 10 ^ j = 10 ^ 10 := by rw [← Nat.pow_add, hlen]
  rw [value_append, value_ofNat, show 10 - f.length = j by omega, Nat.add_mul, Nat.mul_assoc, hpow,
    hvalue, hdiv]

/-! ### Reading a numeral -/

theorem ofDecimal_neg_exponent {d k : ℕ} (hk : k ≤ 10) :
    ofDecimal false ⟨d, -(k : ℕ)⟩ = ofUnits false (d * unit) (10 ^ k) := by
  by_cases hd : d = 0
  · rw [hd, Nat.zero_mul, ofUnits_zero]
    rfl
  · have htiny : Decimal.isTiny ⟨d, -(k : ℕ)⟩ = false := by
      simp only [Decimal.isTiny, hd, decide_false, Bool.false_or, decide_eq_false_iff_not]
      omega
    have hhuge : Decimal.isHuge ⟨d, -(k : ℕ)⟩ = false := by
      simp only [Decimal.isHuge, Bool.and_eq_false_iff, decide_eq_false_iff_not]
      omega
    have hnum : Decimal.num ⟨d, -(k : ℕ)⟩ = d := by
      rw [Decimal.num, show (-(k : ℤ)).toNat = 0 by omega]
      exact Nat.mul_one d
    have hden : Decimal.den ⟨d, -(k : ℕ)⟩ = 10 ^ k := by
      rw [Decimal.den, show (- -(k : ℤ)).toNat = k by omega]
      rfl
    rw [ofDecimal, htiny, hhuge, hnum, hden, if_neg Bool.false_ne_true, if_neg Bool.false_ne_true]

/-- A numeral of a number of places has their rank. -/
theorem ofPlain_of_places {t : Text} {d k m : ℕ} (hread : Decimal.ofPlain t = ⟨d, -(k : ℕ)⟩)
    (hk : k ≤ 10) (hd : d * 10 ^ (10 - k) = m) (hm : rankOfPlaces m < ranks) :
    ofPlain t = .finite false (rankOfPlaces m) hm := by
  rw [ofPlain, hread, ofDecimal_neg_exponent hk, ← ofRank_of_lt false hm, rankOfPlaces,
    ← ofUnits_eq_ofRank false hm]
  refine ofUnits_congr false (Nat.pow_pos (by decide)) (by decide) ?_
  have hpow : (10 : ℚ) ^ 10 = 10 ^ k * 10 ^ (10 - k) := by rw [← pow_add]; congr 1; omega
  rw [← hd]
  simp only [Nat.cast_mul, Nat.cast_pow, Nat.cast_ofNat]
  rw [hpow, div_eq_div_iff (by positivity) (by positivity)]
  ring

/-- A whole number in digits is read as itself. -/
theorem ofPlain_of_whole {r m : ℕ} (h : r < ranks) (hm : unitsOfRank r = m * unit) :
    ofPlain (ofNat m) = .finite false r h := by
  have hread : Decimal.ofPlain (ofNat m) = ⟨m, -(0 : ℕ)⟩ := by
    rw [ofPlain_digits (isDigits_ofNat m), value_ofNat]
    rfl
  rw [ofPlain, hread, ofDecimal_neg_exponent (by decide), ← hm, Nat.pow_zero, ofUnits,
    dif_pos (by rwa [nearestRank_unitsOfRank])]
  simp only [nearestRank_unitsOfRank]

/-! ### The text of a result -/

/-- The sign of a number as a text. -/
def signChars (negative : Bool) : Text := if negative then ['-'] else []

/-- A number that rounding leaves as it is: the number nearest to its places, with a sign only if
there are any. -/
theorem exists_places {v : Binary64} (h : roundPlaces v = .ok v) :
    ∃ s n, ∃ hq : rankOfPlaces n < ranks, v = .finite s (rankOfPlaces n) hq ∧
      (s = true → n ≠ 0) := by
  obtain ⟨s, r, hr, -, hs, hv⟩ := roundPlaces_eq_ok h
  obtain ⟨hq, hres⟩ := resultOfPlaces_eq s hs
  refine ⟨_, placesOfRank r, hq, hv.trans hres, fun hsign => ?_⟩
  rw [Bool.and_eq_true, decide_eq_true_eq] at hsign
  exact hsign.2

theorem textOfInt_sign (s : Bool) {m : ℕ} (h : s = true → m ≠ 0) :
    Text.ofInt (if s then -(m : ℤ) else m) = signChars s ++ ofNat m := by
  cases s with
  | false => rfl
  | true =>
    obtain ⟨j, rfl⟩ := Nat.exists_eq_succ_of_ne_zero (h rfl)
    rfl

theorem truncate_finite (s : Bool) {r m : ℕ} (h : r < ranks) (hm : unitsOfRank r = m * unit) :
    (finite s r h).truncate = if s then -(m : ℤ) else m := by
  have hpos : (unit : ℤ) ≠ 0 := by exact_mod_cast unit_pos.ne'
  rw [truncate, units_eq, hm]
  cases s with
  | false => simp [Int.mul_tdiv_cancel _ hpos]
  | true => simp [Int.neg_tdiv, Int.mul_tdiv_cancel _ hpos]

theorem isWhole_finite (s : Bool) {r : ℕ} (h : r < ranks) :
    (finite s r h).isWhole = true ↔ unit ∣ unitsOfRank r := by
  rw [isWhole, beq_iff_eq, Nat.dvd_iff_mod_eq_zero]

/-- **The text of a result is a plain numeral of its magnitude, after its sign.** -/
theorem exists_resultText {v : Binary64} (h : roundPlaces v = .ok v) :
    ∃ s r, ∃ hr : r < ranks, ∃ t, v = .finite s r hr ∧ resultText v = signChars s ++ t ∧
      Numeral.isPlain t = true ∧ ofPlain t = .finite false r hr := by
  obtain ⟨s, n, hq, rfl, hs⟩ := exists_places h
  by_cases hw : unit ∣ unitsOfRank (rankOfPlaces n)
  -- a whole number is written in digits, any other by its places
  · obtain ⟨m, hm⟩ := hw
    rw [Nat.mul_comm] at hm
    refine ⟨s, _, hq, ofNat m, rfl, ?_, ?_, ofPlain_of_whole hq hm⟩
    · have hm0 : s = true → m ≠ 0 := by
        rintro hsign rfl
        have hpos := rankOfPlaces_pos (Nat.pos_of_ne_zero (hs hsign))
        have hlt := unitsOfRank_strictMono hpos
        rw [unitsOfRank_zero, hm] at hlt
        omega
      rw [resultText, if_pos ((isWhole_finite s hq).2 ⟨m, by rw [hm, Nat.mul_comm]⟩),
        truncate_finite s hq hm, textOfInt_sign s hm0]
    · exact isPlain_iff.2 ⟨_, ofNat_ne_nil m, isDigits_ofNat m, Or.inl rfl⟩
  · have htext : resultText (.finite s (rankOfPlaces n) hq) = dropTail (· == '.')
        (dropTail (· == '0') (signChars s ++
          pointText 10 (roundHalfEven (unitsOfRank (rankOfPlaces n) * 10 ^ 10) unit))) := by
      rw [resultText, if_neg (by rwa [isWhole_finite]), if_pos (by rfl)]
      rfl
    have hrank := rankOfPlaces_written hw
    generalize roundHalfEven (unitsOfRank (rankOfPlaces n) * 10 ^ 10) unit = m at htext hrank
    obtain ⟨t, d, k, ht, hplain, hread, hk, hd⟩ := exists_numeral_of_places (signChars s) m
    refine ⟨s, _, hq, t, rfl, htext.trans ht, hplain, ?_⟩
    rw [ofPlain_of_places hread hk hd (hrank.trans_lt hq)]
    simp only [hrank]

theorem tokens_signChars (s : Bool) {t : Text} (ht : Numeral.isPlain t = true) :
    tokens (signChars s ++ t) = signTokens s ++ [.numeral t] := by
  obtain ⟨hne, hchars⟩ := isNumeralChar_of_isPlain ht
  cases s with
  | false => exact tokens_run hne hchars
  | true => exact (tokens_operator t .minus).trans (by rw [tokens_run hne hchars]; rfl)

/-- **The text of a result is evaluated to the result.** -/
theorem evaluate_resultText {v : Binary64} (h : roundPlaces v = .ok v) :
    evaluate (resultText v) = .ok v := by
  obtain ⟨s, r, hr, t, rfl, htext, hplain, hread⟩ := exists_resultText h
  have hvalue : (Formula.term s (.operand t)).value readNumeral = .ok (.finite s r hr) := by
    rw [Formula.value, Term.value, readNumeral, if_pos hplain, hread]
    cases s <;> rfl
  have hround : roundValue (.finite s r hr) = .ok (.finite s r hr) := by
    rw [← mapError_roundPlaces (ne_nan_of_isFinite rfl), h]
    rfl
  rw [htext, evaluate_of_tokens_eq (s := .term s (.operand t)) (tokens_signChars s hplain),
    Formula.result_of_value hvalue, hround]

theorem roundPlaces_of_mapError {x v : Binary64}
    (h : (roundPlaces x).mapError Halt.toFault = .ok v) : roundPlaces v = .ok v := by
  rcases hx : roundPlaces x with f | w
  · rw [hx] at h
    cases h
  · rw [hx] at h
    cases h
    exact roundPlaces_roundPlaces hx

/-- Every value is one that rounding leaves as it is. -/
theorem roundPlaces_of_evaluate {e : Text} {v : Binary64} (h : evaluate e = .ok v) :
    roundPlaces v = .ok v := by
  rw [evaluate_eq] at h
  split at h
  · cases h
    exact roundPlaces_signedZero false
  · rw [compute_eq, run] at h
    rcases hstack : (stackOrder (tokens e)).foldlM step [] with f | stack
    · rw [hstack] at h
      cases h
    · rw [hstack] at h
      change (finish stack).mapError _ = _ at h
      cases stack with
      | nil =>
        cases h
        exact roundPlaces_signedZero false
      | cons x stack => exact roundPlaces_of_mapError h

/-- So is the rounded value of every formula of numbers. -/
theorem roundPlaces_of_result {α : Type} {read : α → Except Fault Binary64}
    (hread : ∀ a, read a ≠ .ok .nan) {s : Formula α} {v : Binary64} (h : s.result read = .ok v) :
    roundPlaces v = .ok v := by
  rcases hx : s.value read with f | x
  · rw [Formula.result_of_fault hx] at h
    cases h
  · have hne : x ≠ .nan := by
      rintro rfl
      exact s.value_ne_nan hread hx
    rw [Formula.result_of_value hx, ← mapError_roundPlaces hne] at h
    exact roundPlaces_of_mapError h

/-- Different results have different texts. -/
theorem resultText_inj {v w : Binary64} (hv : roundPlaces v = .ok v) (hw : roundPlaces w = .ok w)
    (h : resultText v = resultText w) : v = w := by
  have heval := evaluate_resultText hv
  rw [h, evaluate_resultText hw] at heval
  exact (Except.ok.inj heval).symm

end SpokenCalculator
