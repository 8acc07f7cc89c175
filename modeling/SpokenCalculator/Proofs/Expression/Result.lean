import SpokenCalculator.Proofs.Binary64.Operation
import SpokenCalculator.Proofs.Expression.Places

/-!
# Results

What rounding to ten places gives: an overflow, or a number of places with a sign, where zero has
none.

* `resultOfPlaces`: the number with a sign and a number of places;
* `roundPlaces_finite`, `roundPlaces_infinite`, `roundPlaces_eq_ok`: rounding by its argument, and
  all results;
* `roundPlaces_roundPlaces`: a result is not changed by rounding;
* `isFinite_of_roundPlaces`, `ne_negative_zero_of_roundPlaces`: a result is finite and not a
  negative zero.
-/

namespace SpokenCalculator
open Binary64

/-- The number with a sign and a number of places. -/
def resultOfPlaces (s : Bool) (n : ℕ) : Binary64 := ofRank (s && decide (n ≠ 0)) (rankOfPlaces n)

/-- The number of places in one is not rounded. -/
theorem exists_placeScale : ∃ c, ∃ h : c < ranks,
    c ≠ 0 ∧ unitsOfRank c = 10 ^ 10 * unit ∧ placeScale = .finite false c h := by
  obtain ⟨c, h, hu, he⟩ := exists_ofInt (n := 10 ^ 10) (by decide)
  refine ⟨c, h, ?_, hu, he⟩
  rintro rfl
  have := unit_pos
  rw [unitsOfRank_zero] at hu
  omega

/-- The places of a magnitude that can be scaled are a finite number. -/
theorem exists_rank_placesOfRank {r : ℕ} (h : scaledRank r < ranks) :
    ∃ t < ranks, unitsOfRank t = placesOfRank r * unit := by
  rcases Nat.lt_or_ge (2 ^ 52) (placesOfRank r) with hn | hn
  · exact ⟨scaledRank r, h, unitsOfRank_scaledRank (Or.inl hn)⟩
  · obtain ⟨t, ht, hu, -⟩ := exists_ofInt (n := placesOfRank r) (by omega)
    exact ⟨t, ht, hu⟩

theorem rankOfPlaces_lt {n t : ℕ} (ht : t < ranks) (hu : unitsOfRank t = n * unit) :
    rankOfPlaces n < ranks := by
  refine lt_of_le_of_lt ((isNearest_rankOfPlaces n).le_of_le (s := t) ?_) ht
  have h0 : (0 : ℚ) ≤ n * unit := mul_nonneg (Nat.cast_nonneg _) (Nat.cast_nonneg _)
  rw [hu]
  push_cast
  rw [div_le_iff₀ (by norm_num)]
  linarith

/-! ### The three steps -/

theorem mul_cast_div_mul_cast (a b : ℕ) {u : ℕ} (hu : 0 < u) :
    ((a * u : ℕ) : ℚ) / (b * u : ℕ) = a / b := by
  push_cast
  exact mul_div_mul_right _ _ (by exact_mod_cast hu.ne')

theorem mul_placeScale (s : Bool) {r : ℕ} (h : r < ranks) :
    finite s r h * placeScale =
      if hr : scaledRank r < ranks then .finite s (scaledRank r) hr else .infinite s := by
  obtain ⟨c, hc, -, hu, he⟩ := exists_placeScale
  show _ = ofUnits s (unitsOfRank r * 10 ^ 10) 1
  rw [he, mul_finite, Bool.xor_false, hu, ← Nat.mul_assoc]
  refine ofUnits_congr s unit_pos Nat.one_pos ?_
  have := mul_cast_div_mul_cast (unitsOfRank r * 10 ^ 10) 1 unit_pos
  rwa [Nat.one_mul] at this

theorem div_placeScale (s : Bool) {n t : ℕ} (ht : t < ranks) (hu : unitsOfRank t = n * unit) :
    finite s t ht / placeScale = ofRank s (rankOfPlaces n) := by
  obtain ⟨c, hc, hc0, hcu, he⟩ := exists_placeScale
  rw [he, div_finite _ _ _ _ hc0, Bool.xor_false, hu, hcu, rankOfPlaces,
    ← ofUnits_eq_ofRank _ (rankOfPlaces_lt ht hu)]
  exact ofUnits_congr _ (Nat.mul_pos (by decide) unit_pos) (by decide)
    (mul_cast_div_mul_cast _ _ unit_pos)

theorem roundToInt_finite (s : Bool) {r : ℕ} (h : r < ranks) :
    (finite s r h).roundToInt =
      if s then -(roundHalfEven (unitsOfRank r) unit : ℤ) else roundHalfEven (unitsOfRank r) unit :=
  rfl

theorem ofPlaces_of_isFinite {i : ℤ} (h : (ofInt i).isFinite = true) :
    ofPlaces i = .ok (ofInt i / placeScale) := by
  rw [ofPlaces, ofInt?, if_pos h, Option.elim_some]

theorem ofInt_places (s : Bool) {n t : ℕ} (ht : t < ranks) (hu : unitsOfRank t = n * unit) :
    ofInt (if s then -(n : ℤ) else n) = .finite (s && decide (n ≠ 0)) t ht := by
  have habs : (if s then -(n : ℤ) else n).natAbs = n := by cases s <;> simp
  have hneg : decide ((if s then -(n : ℤ) else n) < 0) = (s && decide (n ≠ 0)) := by
    cases s <;> simp [Nat.pos_iff_ne_zero]
  rw [ofInt_eq ht (by rw [habs, hu]), hneg]

/-- A magnitude that can be scaled has a finite number of places. -/
theorem isFinite_ofInt_roundToInt (s : Bool) {r : ℕ} (hr : scaledRank r < ranks) :
    (ofInt (finite s (scaledRank r) hr).roundToInt).isFinite = true := by
  obtain ⟨t, ht, hu⟩ := exists_rank_placesOfRank hr
  rw [roundToInt_finite]
  exact congrArg isFinite (ofInt_places s ht hu)

/-! ### All results -/

theorem roundPlaces_of_infinite {v : Binary64} {s : Bool} (h : v * placeScale = .infinite s) :
    roundPlaces v = .error (.fault .overflow) := by
  rw [roundPlaces, h]

theorem roundPlaces_of_finite {v : Binary64} {s : Bool} {q : ℕ} {hq : q < ranks}
    (h : v * placeScale = .finite s q hq) :
    roundPlaces v = ofPlaces (Binary64.finite s q hq).roundToInt := by
  rw [roundPlaces, h]

theorem infinite_mul_placeScale (s : Bool) : infinite s * placeScale = infinite s := by
  obtain ⟨c, hc, hc0, -, he⟩ := exists_placeScale
  have hz : (finite false c hc).isZero = false := beq_eq_false_iff_ne.2 hc0
  rw [he]
  show mul _ _ = _
  simp only [mul, hz, isNegative, Bool.xor_false]
  exact if_neg Bool.false_ne_true

@[simp] theorem roundPlaces_infinite (s : Bool) :
    roundPlaces (.infinite s) = .error (.fault .overflow) :=
  roundPlaces_of_infinite (infinite_mul_placeScale s)

theorem roundPlaces_finite (s : Bool) {r : ℕ} (h : r < ranks) :
    roundPlaces (.finite s r h) =
      if scaledRank r < ranks then .ok (resultOfPlaces s (placesOfRank r))
      else .error (.fault .overflow) := by
  have hmul := mul_placeScale s h
  split_ifs at hmul ⊢ with hr
  · obtain ⟨t, ht, hu⟩ := exists_rank_placesOfRank hr
    rw [roundPlaces_of_finite hmul, ofPlaces_of_isFinite (isFinite_ofInt_roundToInt s hr),
      roundToInt_finite]
    show Except.ok (ofInt (if s then -(placesOfRank r : ℤ) else placesOfRank r) / _) = _
    rw [ofInt_places s ht hu, div_placeScale _ ht hu, resultOfPlaces]
  · exact roundPlaces_of_infinite hmul

/-- A value with a result is finite, and the result is a number of places with its sign. -/
theorem roundPlaces_eq_ok {x v : Binary64} (h : roundPlaces x = .ok v) :
    ∃ s r, ∃ hr : r < ranks, x = .finite s r hr ∧ scaledRank r < ranks ∧
      v = resultOfPlaces s (placesOfRank r) := by
  cases x with
  | nan => cases h
  | infinite s => rw [roundPlaces_infinite] at h; cases h
  | finite s r hr =>
    rw [roundPlaces_finite] at h
    split_ifs at h with hs
    cases h
    exact ⟨s, r, hr, rfl, hs, rfl⟩

/-- A number is rounded without a breakdown. -/
theorem roundPlaces_ne_breakdown {x : Binary64} (h : x ≠ .nan) (b : Breakdown) :
    roundPlaces x ≠ .error (.breakdown b) := by
  cases x with
  | nan => exact absurd rfl h
  | infinite s => rw [roundPlaces_infinite]; simp
  | finite s r hr => rw [roundPlaces_finite]; split_ifs <;> simp

theorem resultOfPlaces_eq {r : ℕ} (s : Bool) (h : scaledRank r < ranks) :
    ∃ ht : rankOfPlaces (placesOfRank r) < ranks, resultOfPlaces s (placesOfRank r) =
      .finite (s && decide (placesOfRank r ≠ 0)) (rankOfPlaces (placesOfRank r)) ht := by
  obtain ⟨t, ht, hu⟩ := exists_rank_placesOfRank h
  exact ⟨rankOfPlaces_lt ht hu, ofRank_of_lt _ _⟩

/-- **Rounding a result changes nothing.** -/
theorem roundPlaces_roundPlaces {x v : Binary64} (h : roundPlaces x = .ok v) :
    roundPlaces v = .ok v := by
  obtain ⟨s, r, hr, -, hs, rfl⟩ := roundPlaces_eq_ok h
  obtain ⟨ht, hv⟩ := resultOfPlaces_eq s hs
  rw [hv, roundPlaces_finite, if_pos (scaledRank_rankOfPlaces_lt hs), placesOfRank_rankOfPlaces,
    ← hv]
  simp only [resultOfPlaces, Bool.and_assoc, Bool.and_self]

theorem resultOfPlaces_zero (s : Bool) : resultOfPlaces s 0 = .zero := by
  have hrank : rankOfPlaces 0 = 0 := by rw [rankOfPlaces, Nat.zero_mul, nearestRank_zero]
  rw [resultOfPlaces, hrank]
  cases s <;> rfl

/-- Either zero is rounded to zero. -/
theorem roundPlaces_signedZero (s : Bool) : roundPlaces (signedZero s) = .ok .zero := by
  have hscaled : scaledRank 0 = 0 := by
    rw [scaledRank, unitsOfRank_zero, Nat.zero_mul, nearestRank_zero]
  have hplaces : placesOfRank 0 = 0 := by
    rw [placesOfRank, hscaled, unitsOfRank_zero]
    have h := roundHalfEven_mul_right 0 unit_pos
    rwa [Nat.zero_mul] at h
  rw [signedZero, roundPlaces_finite, if_pos (by rw [hscaled]; decide), hplaces,
    resultOfPlaces_zero]

theorem isFinite_of_roundPlaces {x v : Binary64} (h : roundPlaces x = .ok v) :
    v.isFinite = true := by
  obtain ⟨s, r, hr, -, hs, rfl⟩ := roundPlaces_eq_ok h
  obtain ⟨ht, hv⟩ := resultOfPlaces_eq s hs
  rw [hv]
  rfl

/-- Not a single place is lost by division. -/
theorem rankOfPlaces_pos {n : ℕ} (hn : 0 < n) : 0 < rankOfPlaces n := by
  have h1 : unitsOfRank 1 = 1 := by decide
  refine (isNearest_rankOfPlaces n).ge_of_ge (s := 1) ?_
  have h2 : 10 ^ 10 ≤ n * unit :=
    (le_trans (by decide) (two_pow_lt_unit (k := 34) (by decide)).le).trans
      (Nat.le_mul_of_pos_left unit hn)
  rw [h1, le_div_iff₀ (by norm_num)]
  exact_mod_cast (by omega : 1 * 10 ^ 10 ≤ n * unit)

/-- A result has the sign of its places, and zero has none. -/
theorem ne_negative_zero_of_roundPlaces {x v : Binary64} (h : roundPlaces x = .ok v) :
    v ≠ signedZero true := by
  obtain ⟨s, r, hr, -, hs, rfl⟩ := roundPlaces_eq_ok h
  obtain ⟨ht, hv⟩ := resultOfPlaces_eq s hs
  rw [hv]
  intro heq
  injection heq with hsign hrank
  simp only [Bool.and_eq_true, decide_eq_true_eq] at hsign
  have := rankOfPlaces_pos (Nat.pos_of_ne_zero hsign.2)
  omega

end SpokenCalculator
