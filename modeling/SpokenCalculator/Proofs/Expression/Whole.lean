import SpokenCalculator.Proofs.Binary64.Whole
import SpokenCalculator.Proofs.Expression.ResultText

/-!
# Expressions of whole numbers

Sums, differences and products of whole numbers are exact as long as every value on the way has at
most 53 binary digits.  Only the rounding to ten places can change the result: scaled by `10 ^ 10`
it may have more digits than there are, and then what is lost may be more than half a step between
the numbers of its size.

* `KeepsPlaces`: too little is lost to matter;
* `rankOfPlaces_roundDigits_iff`: a whole number survives the rounding exactly in this case;
* `Term.integerValue?`, `Formula.integerValue?`: the value of a formula over the integers, where
  every value on the way is short enough;
* `exists_evaluate_whole`: the value of such an expression, and when it is exact;
* `keepsPlaces_of_le`: small numbers lose nothing.
-/

namespace SpokenCalculator
open Binary64 Text

/-! ### Whole numbers in places -/

/-- Scaled to places and rounded to 53 digits, a whole number moves by less than half a step
between the numbers of its size. -/
def KeepsPlaces (n : ℕ) : Prop :=
  2 ^ 53 * ((roundDigits (n * 10 ^ 10) : ℤ) - (n * 10 ^ 10 : ℕ)).natAbs < 2 ^ n.log2 * 10 ^ 10

instance (n : ℕ) : Decidable (KeepsPlaces n) := inferInstanceAs (Decidable (_ < _))

theorem placesOfRank_whole {n r : ℕ} (hr : unitsOfRank r = n * unit) :
    placesOfRank r = roundDigits (n * 10 ^ 10) := by
  refine placesOfRank_eq_of_scaledRank rfl ?_
  rw [scaledRank, hr, Nat.mul_right_comm]
  exact unitsOfRank_nearestRank_whole (n * 10 ^ 10)

theorem scaledRank_whole_lt {n r : ℕ} (hn : n ≤ 2 ^ 53) (hr : unitsOfRank r = n * unit) :
    scaledRank r < ranks := by
  have hbound : (((n * 10 ^ 10 : ℕ) : ℤ)).natAbs < overflowBound := by
    have h : 2 ^ 53 * 10 ^ 10 < overflowBound := by decide +kernel
    rw [Int.natAbs_natCast]
    exact (Nat.mul_le_mul_right _ hn).trans_lt h
  have hfinite := isFinite_ofInt_iff.2 hbound
  rw [Binary64.ofInt, isFinite_ofUnits, Int.natAbs_natCast] at hfinite
  rwa [scaledRank, hr, Nat.mul_right_comm]

/-- A number that is scaled without loss is read back. -/
theorem rankOfPlaces_of_exact {n r : ℕ} (hr : unitsOfRank r = n * unit) :
    rankOfPlaces (n * 10 ^ 10) = r := by
  refine (isNearest_rankOfPlaces _).unique ?_
  have hq : ((n * 10 ^ 10 : ℕ) * unit / 10 ^ 10 : ℚ) = unitsOfRank r := by
    rw [hr]
    push_cast
    ring
  rw [hq]
  exact isNearest_unitsOfRank r

/-- What is lost is never half a step: half a step is an odd multiple of a power of two, and what is
lost is a multiple of a greater one. -/
theorem two_pow_mul_lost_ne {y m l k : ℕ} (hy : 2 ^ k ∣ y) (hm : 2 ^ 10 ∣ m)
    (hk : l + 33 ≤ k + 52) (hl : l ≤ 52) :
    2 ^ 53 * ((y : ℤ) - m).natAbs ≠ 2 ^ l * 10 ^ 10 := by
  intro heq
  have hten : 10 ^ 10 = 2 ^ 10 * 5 ^ 10 := by decide
  have hlost : ((2 ^ min k 10 : ℕ) : ℤ) ∣ (y : ℤ) - (m : ℤ) :=
    dvd_sub (Int.natCast_dvd_natCast.2 ((Nat.pow_dvd_pow 2 (min_le_left k 10)).trans hy))
      (Int.natCast_dvd_natCast.2 ((Nat.pow_dvd_pow 2 (min_le_right k 10)).trans hm))
  have hdvd : 2 ^ (53 + min k 10) ∣ 2 ^ (l + 10) * 5 ^ 10 := by
    have h := Nat.mul_dvd_mul_left (2 ^ 53) (Int.natCast_dvd.1 hlost)
    rwa [heq, ← Nat.pow_add, hten, ← Nat.mul_assoc, ← Nat.pow_add] at h
  have hcoprime : Nat.Coprime (2 ^ (53 + min k 10)) (5 ^ 10) :=
    Nat.Coprime.pow _ _ (by decide)
  have hle := (Nat.pow_dvd_pow_iff_le_right (by decide)).1
    (hcoprime.dvd_of_dvd_mul_right hdvd)
  omega

theorem log2_places {n : ℕ} (hn : n ≠ 0) :
    n.log2 + 33 ≤ (n * 10 ^ 10).log2 ∧ (n * 10 ^ 10).log2 < n.log2 + 35 := by
  have hm : n * 10 ^ 10 ≠ 0 := Nat.mul_ne_zero hn (by decide)
  rw [Nat.le_log2 hm, Nat.log2_lt hm, Nat.pow_add, Nat.pow_add]
  have hlow := Nat.log2_self_le hn
  have hhigh := Nat.lt_log2_self (n := n)
  rw [Nat.pow_succ] at hhigh
  generalize 2 ^ n.log2 = p at *
  omega

theorem roundDigits_two_pow_mul (l : ℕ) : roundDigits (2 ^ l * 10 ^ 10) = 2 ^ l * 10 ^ 10 := by
  have hlog := (log2_places (Nat.two_pow_pos l).ne').2
  rw [Nat.log2_two_pow] at hlog
  exact roundDigits_of_dvd
    ((Nat.pow_dvd_pow 2 (by omega : _ ≤ l)).trans (Nat.dvd_mul_right _ _))

/-- Half a step between the numbers of a size, in places. -/
theorem abs_sub_places_iff {y n l f : ℕ} (hf : (unit : ℚ) = 2 ^ 52 * 2 ^ f) :
    (2 * |(y * unit / 10 ^ 10 : ℚ) - n * unit| < 2 ^ (l + f) ↔
      2 ^ 53 * ((y : ℤ) - (n * 10 ^ 10 : ℕ)).natAbs < 2 ^ l * 10 ^ 10) ∧
    (2 * |(y * unit / 10 ^ 10 : ℚ) - n * unit| ≤ 2 ^ (l + f) ↔
      2 ^ 53 * ((y : ℤ) - (n * 10 ^ 10 : ℕ)).natAbs ≤ 2 ^ l * 10 ^ 10) := by
  have hpos : (0 : ℚ) < 2 ^ f / 10 ^ 10 := by positivity
  have hdist : 2 * |(y * unit / 10 ^ 10 : ℚ) - n * unit| =
      ((2 ^ 53 * ((y : ℤ) - (n * 10 ^ 10 : ℕ)).natAbs : ℕ) : ℚ) * (2 ^ f / 10 ^ 10) := by
    have hfactor : (y * unit / 10 ^ 10 : ℚ) - n * unit =
        ((y : ℚ) - n * 10 ^ 10) * (2 ^ 52 * (2 ^ f / 10 ^ 10)) := by
      rw [hf]
      ring
    have habs : ((((y : ℤ) - (n * 10 ^ 10 : ℕ)).natAbs : ℕ) : ℚ) = |(y : ℚ) - n * 10 ^ 10| := by
      rw [Nat.cast_natAbs]
      push_cast
      rfl
    rw [hfactor, abs_mul, abs_of_pos (mul_pos (by positivity) hpos), Nat.cast_mul, habs]
    push_cast
    ring
  have hstep : (2 : ℚ) ^ (l + f) = ((2 ^ l * 10 ^ 10 : ℕ) : ℚ) * (2 ^ f / 10 ^ 10) := by
    push_cast
    rw [pow_add]
    field_simp
    norm_num
  rw [hdist, hstep]
  exact ⟨(mul_lt_mul_iff_left₀ hpos).trans Nat.cast_lt,
    (mul_le_mul_iff_left₀ hpos).trans Nat.cast_le⟩

section Step

variable {q : ℚ} {n r l f : ℕ}

theorem unitsOfRank_whole_cast (hr : unitsOfRank r = n * unit) :
    (unitsOfRank r : ℚ) = n * unit := by
  rw [hr]
  push_cast
  rfl

/-- A position that is rounded to a whole number is at most half a step of its size away. -/
theorem Binary64.IsNearest.abs_sub_whole_le (h : IsNearest q r) (h0 : 0 ≤ q)
    (hr : unitsOfRank r = n * unit) (hf : 52 + f = 1074) (hn : n < 2 ^ (l + 1)) (hl : l ≤ 52) :
    2 * |q - n * unit| ≤ 2 ^ (l + f) := by
  have hpow : 2 ^ (l + 1) ≤ 2 ^ 53 := Nat.pow_le_pow_right (by decide) (by omega)
  -- the first number of the next size: the position is not above it, so the step is that of `l`
  obtain ⟨t, -, ht, -⟩ := exists_ofInt hpow
  have hrt : r < t := by
    rw [← unitsOfRank_strictMono.lt_iff_lt, hr, ht]
    exact Nat.mul_lt_mul_of_pos_right hn unit_pos
  have htq : (unitsOfRank t : ℚ) = 2 ^ 53 * 2 ^ (l + f) := by
    rw [ht]
    push_cast
    rw [unit_cast hf]
    ring
  have habove := h.above
  have hlow := unitsOfRank_le_cast hrt.le
  have hhigh := unitsOfRank_le_cast (Nat.succ_le_of_lt hrt)
  have hhalf := h.abs_sub_le_half h0 (e := l + f) (by rw [← htq]; linarith)
  rw [unitsOfRank_whole_cast hr] at hhalf
  linarith

/-- A position less than half a step of its size away from a whole number is rounded to it. -/
theorem isNearest_of_abs_sub_whole_lt (hr : unitsOfRank r = n * unit) (hf : 52 + f = 1074)
    (hn : 2 ^ l < n) (h : 2 * |q - n * unit| < 2 ^ (l + f)) : IsNearest q r := by
  have hlarge : 2 ^ (52 + (l + f)) < unitsOfRank r := by
    have hpow : 2 ^ (52 + (l + f)) = 2 ^ l * unit := by
      rw [unit_eq, ← hf]
      ring
    rw [hpow, hr]
    exact Nat.mul_lt_mul_of_pos_right hn unit_pos
  refine isNearest_of_abs_lt hlarge ?_
  rwa [unitsOfRank_whole_cast hr]

end Step

/-- **A whole number survives the rounding to ten places exactly if it keeps its places.** -/
theorem rankOfPlaces_roundDigits_iff {n r : ℕ} (hn : n ≤ 2 ^ 53) (hr : unitsOfRank r = n * unit) :
    rankOfPlaces (roundDigits (n * 10 ^ 10)) = r ↔ KeepsPlaces n := by
  by_cases hexact : roundDigits (n * 10 ^ 10) = n * 10 ^ 10
  · refine iff_of_true (by rw [hexact, rankOfPlaces_of_exact hr]) ?_
    rw [KeepsPlaces, hexact, sub_self]
    exact Nat.mul_pos (Nat.two_pow_pos _) (by decide)
  have hn0 : n ≠ 0 := by
    rintro rfl
    exact hexact (roundDigits_of_lt (by decide))
  have hlow : 2 ^ n.log2 < n := by
    refine lt_of_le_of_ne (Nat.log2_self_le hn0) fun heq => hexact ?_
    rw [← heq, roundDigits_two_pow_mul]
  have hhigh : n < 2 ^ (n.log2 + 1) := Nat.lt_log2_self
  have hlog : n.log2 ≤ 52 := Nat.le_of_lt_succ
    ((Nat.pow_lt_pow_iff_right (by decide)).1 (hlow.trans_le hn))
  have hscaled : 2 ^ 10 ∣ n * 10 ^ 10 := Dvd.dvd.mul_left (by decide) n
  have hne := two_pow_mul_lost_ne (pow_dvd_roundDigits (n * 10 ^ 10)) hscaled
    (by have := (log2_places hn0).1; omega) hlog
  obtain ⟨f, hf⟩ : ∃ f, 52 + f = 1074 := ⟨1022, rfl⟩
  obtain ⟨hlt, hle⟩ := abs_sub_places_iff (y := roundDigits (n * 10 ^ 10)) (n := n) (l := n.log2)
    (unit_cast hf)
  have hnear := isNearest_rankOfPlaces (roundDigits (n * 10 ^ 10))
  constructor
  · intro heq
    rw [heq] at hnear
    have hhalf := hnear.abs_sub_whole_le (by positivity) hr hf hhigh hlog
    exact lt_of_le_of_ne (hle.1 hhalf) hne
  · intro hkeeps
    exact hnear.unique (isNearest_of_abs_sub_whole_lt hr hf hlow (hlt.2 hkeeps))

/-- Numbers that are scaled to at most 63 digits lose nothing: ten of them are zeros at the end. -/
theorem keepsPlaces_of_le {n : ℕ} (hn : n ≤ 922337203) : KeepsPlaces n := by
  have hexact : roundDigits (n * 10 ^ 10) = n * 10 ^ 10 := by
    refine roundDigits_of_dvd (Dvd.dvd.mul_left (a := 2 ^ _) ?_ n)
    have hlog : (n * 10 ^ 10).log2 < 63 := by
      by_cases hm : n * 10 ^ 10 = 0
      · rw [hm]
        decide
      · rw [Nat.log2_lt hm]
        omega
    exact (Nat.pow_dvd_pow 2 (by omega : _ ≤ 10)).trans (by decide)
  rw [KeepsPlaces, hexact, sub_self]
  exact Nat.mul_pos (Nat.two_pow_pos _) (by decide)

/-! ### Rounding a whole number -/

theorem roundDigits_ne_zero {m : ℕ} (hm : m ≠ 0) : roundDigits m ≠ 0 := by
  have hpow : 1 * 2 ^ (m.log2 - 52) ≤ m := by
    rw [Nat.one_mul]
    exact (Nat.pow_le_pow_right (by decide) (Nat.sub_le _ _)).trans (Nat.log2_self_le hm)
  have hone := (roundHalfEven_mem_Icc (Nat.two_pow_pos _) hpow
    (Nat.le_mul_of_pos_right m (Nat.two_pow_pos _))).1
  exact Nat.mul_ne_zero (by omega) (Nat.two_pow_pos _).ne'

/-- A whole number, rounded to ten places. -/
theorem roundValue_isInt {x : Binary64} {i : ℤ} (hx : x.IsInt i) (hi : i.natAbs ≤ 2 ^ 53) :
    roundValue x =
      .ok (resultOfPlaces (decide (i < 0)) (roundDigits (i.natAbs * 10 ^ 10))) := by
  obtain ⟨s, r, h, n, rfl, hr, rfl⟩ := hx
  rw [natAbs_signed] at hi ⊢
  rw [← mapError_roundPlaces (ne_nan_of_isFinite rfl), roundPlaces_finite,
    if_pos (scaledRank_whole_lt hi hr), placesOfRank_whole hr]
  by_cases hn : n = 0
  · rw [hn, Nat.zero_mul, roundDigits_of_lt (by decide), resultOfPlaces_zero, resultOfPlaces_zero]
    rfl
  · have hsign : decide (signed s n < 0) = s := by
      cases s <;> simp [signed, Nat.pos_of_ne_zero hn]
    rw [hsign]
    rfl

/-- The result is the whole number exactly if it keeps its places. -/
theorem resultOfPlaces_eq_ofInt_iff {i : ℤ} (hi : i.natAbs ≤ 2 ^ 53) :
    resultOfPlaces (decide (i < 0)) (roundDigits (i.natAbs * 10 ^ 10)) = .ofInt i ↔
      KeepsPlaces i.natAbs := by
  obtain ⟨r, h, hr, -⟩ := exists_ofInt hi
  rw [ofInt_eq h hr, ← rankOfPlaces_roundDigits_iff hi hr]
  have hsign : (decide (i < 0) && decide (roundDigits (i.natAbs * 10 ^ 10) ≠ 0)) =
      decide (i < 0) := by
    by_cases hneg : i < 0
    · have hne := roundDigits_ne_zero (Nat.mul_ne_zero (Int.natAbs_ne_zero.2 hneg.ne)
        (show 10 ^ 10 ≠ 0 by decide))
      rw [decide_eq_true hne, Bool.and_true]
    · rw [decide_eq_false hneg, Bool.false_and]
  rw [resultOfPlaces, hsign]
  constructor
  · intro heq
    unfold ofRank at heq
    split_ifs at heq
    exact (Binary64.finite.inj heq).2
  · intro heq
    rw [heq, ofRank_of_lt _ h]

theorem resultText_isInt {x : Binary64} {i : ℤ} (hx : x.IsInt i) :
    resultText x = Text.ofInt i := by
  obtain ⟨s, r, h, n, rfl, hr, rfl⟩ := hx
  have hwhole : (finite s r h).isWhole = true :=
    (isWhole_finite s h).2 ⟨n, by rw [hr, Nat.mul_comm]⟩
  rw [resultText, if_pos hwhole, truncate_finite s h hr, signed]

/-! ### Formulas of whole numbers -/

/-- An integer of at most 53 binary digits, or the first one beyond them. -/
def short? (i : ℤ) : Option ℤ := if i.natAbs ≤ 2 ^ 53 then some i else none

/-- The short integer in digits. -/
def Text.integer? (t : Text) : Option ℤ :=
  if t.isEmpty || !t.all isAsciiDigit then none else short? (Text.value t)

/-- The short result of an operation on integers, which is no division. -/
def Operation.integerValue? : Operation → ℤ → ℤ → Option ℤ
  | add, i, j => short? (i + j)
  | sub, i, j => short? (i - j)
  | mul, i, j => short? (i * j)
  | div, _, _ => none

/-- The value of a term over the integers, where all values on the way are short. -/
def Term.integerValue? : Term Text → Option ℤ
  | operand n => integer? n
  | apply t o _ n => do o.operation.integerValue? (← t.integerValue?) (← integer? n)

/-- The value of a formula over the integers, where all values on the way are short. -/
def Formula.integerValue? : Formula Text → Option ℤ
  | term negative t => t.integerValue?.map fun i => if negative then -i else i
  | apply s o _ t => do o.operation.integerValue? (← s.integerValue?) (← t.integerValue?)

theorem short?_eq_some {i j : ℤ} (h : short? i = some j) : i = j ∧ j.natAbs ≤ 2 ^ 53 := by
  unfold short? at h
  split_ifs at h with hi
  cases h
  exact ⟨rfl, hi⟩

/-- A computation has an integer of at most 53 digits as its exact value. -/
def IsShort (x : Except Fault Binary64) (i : ℤ) : Prop :=
  (∃ v, x = .ok v ∧ v.IsInt i) ∧ i.natAbs ≤ 2 ^ 53

theorem isShort_readNumeral {t : Text} {i : ℤ} (h : Text.integer? t = some i) :
    IsShort (readNumeral t) i := by
  unfold integer? at h
  split_ifs at h with hdigits
  rw [Bool.or_eq_true, not_or, Bool.not_eq_true, Bool.not_eq_true', Bool.not_eq_false,
    List.isEmpty_eq_false_iff, List.all_eq_true] at hdigits
  obtain ⟨hne, hdigits⟩ := hdigits
  obtain ⟨rfl, hshort⟩ := short?_eq_some h
  have hplain : Numeral.isPlain t = true := isPlain_iff.2 ⟨t, hne, hdigits, Or.inl rfl⟩
  have hvalue : ofPlain t = ofUnits false (Text.value t * unit) 1 := by
    rw [ofPlain, ofPlain_digits hdigits]
    exact ofDecimal_neg_exponent (k := 0) (by decide)
  refine ⟨⟨_, if_pos hplain, ?_⟩, hshort⟩
  rw [hvalue]
  exact isInt_ofUnits false (by simpa using hshort)

theorem isShort_operate {o : Operation} {x y : Except Fault Binary64} {i j k : ℤ}
    (hx : IsShort x i) (hy : IsShort y j) (h : o.integerValue? i j = some k) :
    IsShort (x >>= fun a => y >>= operate o a) k := by
  obtain ⟨⟨a, rfl, ha⟩, -⟩ := hx
  obtain ⟨⟨b, rfl, hb⟩, -⟩ := hy
  have hresult : o ≠ .div ∧ (o.apply a b).IsInt k ∧ k.natAbs ≤ 2 ^ 53 := by
    cases o with
    | add =>
      obtain ⟨rfl, hk⟩ := short?_eq_some h
      exact ⟨Operation.noConfusion, ha.add hb hk, hk⟩
    | sub =>
      obtain ⟨rfl, hk⟩ := short?_eq_some h
      exact ⟨Operation.noConfusion, ha.sub hb hk, hk⟩
    | mul =>
      obtain ⟨rfl, hk⟩ := short?_eq_some h
      exact ⟨Operation.noConfusion, ha.mul hb hk, hk⟩
    | div => cases h
  obtain ⟨hdiv, hint, hk⟩ := hresult
  refine ⟨⟨o.apply a b, ?_, hint⟩, hk⟩
  show operate o a b = _
  rw [operate, if_neg fun hd => hdiv hd.1, if_pos hint.isFinite]

/-- **A term of whole numbers is exact.** -/
theorem Term.isShort_value {t : Term Text} {i : ℤ} (h : t.integerValue? = some i) :
    IsShort (t.value readNumeral) i := by
  induction t generalizing i with
  | operand n => exact isShort_readNumeral h
  | apply t o tight n ih =>
    simp only [integerValue?, Option.bind_eq_bind, Option.bind_eq_some_iff] at h
    obtain ⟨j, hj, k, hk, h⟩ := h
    exact isShort_operate (ih hj) (isShort_readNumeral hk) h

/-- **A formula of whole numbers is exact.** -/
theorem Formula.isShort_value {s : Formula Text} {i : ℤ} (h : s.integerValue? = some i) :
    IsShort (s.value readNumeral) i := by
  induction s generalizing i with
  | term negative t =>
    obtain ⟨j, hj, rfl⟩ := Option.map_eq_some_iff.1 h
    obtain ⟨⟨v, hv, hint⟩, hshort⟩ := Term.isShort_value hj
    rw [value, hv]
    cases negative with
    | false => exact ⟨⟨v, rfl, hint⟩, hshort⟩
    | true => exact ⟨⟨-v, rfl, hint.neg⟩, by simpa using hshort⟩
  | apply s o loose t ih =>
    simp only [integerValue?, Option.bind_eq_bind, Option.bind_eq_some_iff] at h
    obtain ⟨j, hj, k, hk, h⟩ := h
    exact isShort_operate (ih hj) (Term.isShort_value hk) h

/-- **An expression of whole numbers has a value, which is exact and written in digits just if it
keeps its places.** -/
theorem exists_evaluate_whole {e n : Text} {negative : Bool} {rest : List (Operator × Text)}
    {i : ℤ} (htokens : tokens e = signTokens negative ++ .numeral n :: rest.flatMap pairTokens)
    (hexact : (Formula.ofChain negative n rest).integerValue? = some i) :
    ∃ v, evaluate e = .ok v ∧
      (v = .ofInt i ∧ resultText v = Text.ofInt i ↔ KeepsPlaces i.natAbs) := by
  obtain ⟨⟨x, hx, hint⟩, hshort⟩ := Formula.isShort_value hexact
  have hvalue : evaluate e =
      .ok (resultOfPlaces (decide (i < 0)) (roundDigits (i.natAbs * 10 ^ 10))) := by
    rw [evaluate_of_tokens_eq (htokens.trans (Formula.tokens_ofChain negative n rest).symm),
      Formula.result_of_value hx, roundValue_isInt hint hshort]
  refine ⟨_, hvalue, fun h => (resultOfPlaces_eq_ofInt_iff hshort).1 h.1, fun hkeeps => ?_⟩
  rw [(resultOfPlaces_eq_ofInt_iff hshort).2 hkeeps]
  exact ⟨rfl, resultText_isInt (isInt_ofInt hshort)⟩

theorem evaluate_whole_product_difference :
    (Formula.ofChain false "30371".toList
      [(.cross, "30369".toList), (.minus, "7".toList)]).integerValue? = some 922336892 ∧
    ∃ v, evaluate "30371 × 30369 - 7".toList = .ok v ∧
      v = .ofInt 922336892 ∧ resultText v = "922336892".toList := by
  have hexact : (Formula.ofChain false "30371".toList
      [(.cross, "30369".toList), (.minus, "7".toList)]).integerValue? = some 922336892 := by
    decide +kernel
  obtain ⟨v, hv, hiff⟩ := exists_evaluate_whole
    (e := "30371 × 30369 - 7".toList) (by decide +kernel) hexact
  exact ⟨hexact, v, hv, hiff.2 (keepsPlaces_of_le (by decide))⟩

theorem evaluate_nine_digits_ne :
    evaluate "922337205".toList ≠ .ok (.ofInt 922337205) := by
  decide +kernel

end SpokenCalculator
