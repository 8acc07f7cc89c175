import SpokenCalculator.Proofs.Binary64.Whole
import SpokenCalculator.Proofs.Expression.Literal

/-!
# The decimal form of a number

A number with at most ten decimal places has one text: a sign perhaps, digits without a zero in
front, and perhaps a point with digits that do not end in zero.  The text of a finite number is of
this form and denotes the number rounded to ten places.  But zero has two such texts, with a sign
and without, and a number keeps its sign where all its places are rounded off.

* `IsNearestInt`: the whole number nearest to a rational one;
* `DecimalText`: the texts of this form, and the value that they denote;
* `eq_ofPlaces`, `IsDecimalOf.unique`: zero apart, the form of a value is unique;
* `resultText_eq`: whole numbers and others are written in the one form;
* `isDecimalOf_resultText_iff`: when the text of a number is its decimal form.
-/

namespace SpokenCalculator
open Binary64 Text

/-! ### Nearest whole numbers -/

/-- The whole number nearest to a rational one; of two equally near, the even one. -/
structure IsNearestInt (n : ℤ) (q : ℚ) : Prop where
  abs_sub_le : |q - n| ≤ 1 / 2
  even_of_half : |q - n| = 1 / 2 → Even n

theorem isNearestInt_roundHalfEven (n : ℕ) {d : ℕ} (hd : 0 < d) :
    IsNearestInt (roundHalfEven n d) ((n : ℚ) / d) := by
  obtain ⟨h1, h2, heven⟩ := roundHalfEven_spec n hd
  generalize roundHalfEven n d = m at h1 h2 heven
  have hdq : (0 : ℚ) < d := by exact_mod_cast hd
  have hn : (n : ℚ) = n / d * d := (div_mul_cancel₀ _ hdq.ne').symm
  have h1q : (2 * n : ℚ) ≤ 2 * (d * m) + d := by exact_mod_cast h1
  have h2q : (2 * (d * m) : ℚ) ≤ 2 * n + d := by exact_mod_cast h2
  rw [hn] at h1q h2q
  constructor
  · rw [Int.cast_natCast, abs_le]
    constructor <;> nlinarith
  · intro hhalf
    have htie : 2 * n = 2 * (d * m) + d ∨ 2 * (d * m) = 2 * n + d := by
      rw [Int.cast_natCast, abs_eq (by norm_num)] at hhalf
      rcases hhalf with hhalf | hhalf
      · left
        have : (2 * n : ℚ) = 2 * (d * m) + d := by rw [hn]; linear_combination 2 * (d : ℚ) * hhalf
        exact_mod_cast this
      · right
        have : (2 * (d * m) : ℚ) = 2 * n + d := by rw [hn]; linear_combination -2 * (d : ℚ) * hhalf
        exact_mod_cast this
    exact (Int.even_coe_nat m).2 (Nat.even_iff.2 (heven htie))

theorem IsNearestInt.neg {n : ℤ} {q : ℚ} (h : IsNearestInt n q) : IsNearestInt (-n) (-q) := by
  have habs : |-q - (-n : ℤ)| = |q - n| := by
    rw [← abs_neg]
    push_cast
    ring_nf
  exact ⟨habs ▸ h.abs_sub_le, fun hhalf => (h.even_of_half (habs ▸ hhalf)).neg⟩

/-- Of two whole numbers at most half away both are half away, and only one is even. -/
theorem IsNearestInt.unique {m n : ℤ} {q : ℚ} (hm : IsNearestInt m q) (hn : IsNearestInt n q) :
    m = n := by
  obtain ⟨hm1, hm2⟩ := abs_le.1 hm.abs_sub_le
  obtain ⟨hn1, hn2⟩ := abs_le.1 hn.abs_sub_le
  have hle : m ≤ n + 1 := by
    have : (m : ℚ) ≤ n + 1 := by linarith
    exact_mod_cast this
  have hge : n ≤ m + 1 := by
    have : (n : ℚ) ≤ m + 1 := by linarith
    exact_mod_cast this
  by_contra hne
  -- the two are neighbours, so that the number lies halfway between them
  have hhalf : |q - m| = 1 / 2 ∧ |q - n| = 1 / 2 := by
    rcases (by omega : m = n + 1 ∨ n = m + 1) with rfl | rfl
    · push_cast at *
      exact ⟨(abs_eq (by norm_num)).2 (Or.inr (by linarith)),
        (abs_eq (by norm_num)).2 (Or.inl (by linarith))⟩
    · push_cast at *
      exact ⟨(abs_eq (by norm_num)).2 (Or.inl (by linarith)),
        (abs_eq (by norm_num)).2 (Or.inr (by linarith))⟩
  have hem := hm.even_of_half hhalf.1
  have hen := hn.even_of_half hhalf.2
  rw [Int.even_iff] at hem hen
  omega

theorem isNearestInt_intCast (n : ℤ) : IsNearestInt n (n : ℚ) := by
  constructor <;> simp

/-- Half a divisor and less is rounded to zero. -/
theorem roundHalfEven_eq_zero_iff {n d : ℕ} (hd : 0 < d) : roundHalfEven n d = 0 ↔ 2 * n ≤ d := by
  constructor
  · intro h
    obtain ⟨hle, -, -⟩ := roundHalfEven_spec n hd
    rw [h] at hle
    omega
  · intro h
    exact roundHalfEven_eq hd (by omega) (by omega) fun _ => rfl

/-! ### Texts -/

/-- A decimal number with at most ten places in its short form. -/
@[ext]
structure DecimalText where
  negative : Bool
  whole : Text
  fraction : Text
  isDigits_whole : IsDigits whole
  whole_ne_nil : whole ≠ []
  eq_zero_of_head : whole.head? = some '0' → whole = ['0']
  isDigits_fraction : IsDigits fraction
  length_fraction : fraction.length ≤ 10
  getLast_fraction : fraction.getLast? ≠ some '0'

namespace DecimalText

/-- The characters of the number. -/
def text (d : DecimalText) : Text := signChars d.negative ++ (d.whole ++ afterPoint d.fraction)

/-- The value that is denoted. -/
def toRat (d : DecimalText) : ℚ :=
  (if d.negative then -1 else 1) * (value (d.whole ++ d.fraction) / 10 ^ d.fraction.length)

/-- The magnitude in units of the tenth place. -/
def places (d : DecimalText) : ℕ :=
  value (d.whole ++ d.fraction) * 10 ^ (10 - d.fraction.length)

theorem toRat_eq (d : DecimalText) : d.toRat = signed d.negative d.places / 10 ^ 10 := by
  have hpow : (10 : ℚ) ^ 10 = 10 ^ d.fraction.length * 10 ^ (10 - d.fraction.length) := by
    rw [← pow_add, Nat.add_sub_cancel' d.length_fraction]
  have hplaces : (d.places : ℚ) / 10 ^ 10 =
      value (d.whole ++ d.fraction) / 10 ^ d.fraction.length := by
    rw [places, hpow]
    push_cast
    exact mul_div_mul_right _ _ (by positivity)
  rw [toRat, ← hplaces, signed]
  cases d.negative with
  | false => simp
  | true => simp; ring

theorem places_eq (d : DecimalText) :
    d.places = value d.whole * 10 ^ 10 + value d.fraction * 10 ^ (10 - d.fraction.length) ∧
      value d.fraction * 10 ^ (10 - d.fraction.length) < 10 ^ 10 := by
  have hpow : 10 ^ 10 = 10 ^ d.fraction.length * 10 ^ (10 - d.fraction.length) := by
    rw [← Nat.pow_add, Nat.add_sub_cancel' d.length_fraction]
  constructor
  · rw [places, value_append, Nat.add_mul, Nat.mul_assoc, ← hpow]
  · rw [hpow]
    exact Nat.mul_lt_mul_of_pos_right (value_lt d.isDigits_fraction) (by positivity)

/-! ### From places to text -/

theorem dropTail_append_zeros (f : Text) (j : ℕ) :
    dropTail (· == '0') (f ++ List.replicate j '0') = dropTail (· == '0') f := by
  induction j with
  | zero => simp
  | succ j ih =>
    rw [List.replicate_succ', ← List.append_assoc]
    exact (List.rdropWhile_concat_pos _ _ _ rfl).trans ih

/-- The ten places of a number of them. -/
def padded (m : ℕ) : Text := (ofNat (m % 10 ^ 10)).leftpad 10 '0'

theorem length_padded (m : ℕ) : (padded m).length = 10 :=
  length_leftpad (by decide) (Nat.mod_lt m (by decide))

/-- The text of a number of places. -/
def ofPlaces (negative : Bool) (m : ℕ) : DecimalText where
  negative := negative
  whole := ofNat (m / 10 ^ 10)
  fraction := dropTail (· == '0') (padded m)
  isDigits_whole := isDigits_ofNat _
  whole_ne_nil := ofNat_ne_nil _
  eq_zero_of_head h := by
    by_cases hm : m / 10 ^ 10 = 0
    · rw [hm]
      decide
    · obtain ⟨c, t, ht⟩ := List.exists_cons_of_ne_nil (ofNat_ne_nil (m / 10 ^ 10))
      rw [ht, List.head?_cons, Option.some.injEq] at h
      exact absurd h (head_ofNat_ne_zero hm ht)
  isDigits_fraction := by
    obtain ⟨j, hj⟩ := exists_dropTail_append_zeros (padded m)
    have hdigits : IsDigits (padded m) := isDigits_leftpad 10 _
    rw [hj] at hdigits
    exact hdigits.of_append_left
  length_fraction := by
    obtain ⟨j, hj⟩ := exists_dropTail_append_zeros (padded m)
    have hlength := congrArg List.length hj
    rw [length_padded, List.length_append] at hlength
    omega
  getLast_fraction h := by
    have hne : dropTail (· == '0') (padded m) ≠ [] := by
      rintro hnil
      rw [hnil] at h
      cases h
    have hlast := getLast_dropTail (· == '0') hne
    rw [List.getLast?_eq_some_getLast hne, Option.some.injEq] at h
    rw [h] at hlast
    exact absurd hlast (by decide)

/-- Every text of the form is that of its places. -/
theorem eq_ofPlaces (d : DecimalText) : d = ofPlaces d.negative d.places := by
  obtain ⟨hplaces, hlt⟩ := d.places_eq
  have hwhole : d.places / 10 ^ 10 = value d.whole := by omega
  have hrest : d.places % 10 ^ 10 = value d.fraction * 10 ^ (10 - d.fraction.length) := by omega
  have hpadded : padded d.places = d.fraction ++ List.replicate (10 - d.fraction.length) '0' := by
    refine eq_of_value_eq (isDigits_leftpad 10 _)
      (d.isDigits_fraction.append (isDigits_zeros _)) ?_ ?_
    · rw [length_padded, List.length_append, List.length_replicate]
      exact (Nat.add_sub_cancel' d.length_fraction).symm
    · rw [padded, value_leftpad, hrest, value_append_zeros]
  ext1
  · rfl
  · show d.whole = ofNat (d.places / 10 ^ 10)
    rw [hwhole, ofNat_value d.isDigits_whole d.whole_ne_nil d.eq_zero_of_head]
  · show d.fraction = dropTail (· == '0') (padded d.places)
    rw [hpadded, dropTail_append_zeros, dropTail_eq_self]
    intro c hc
    refine beq_eq_false_iff_ne.2 ?_
    rintro rfl
    exact d.getLast_fraction hc

theorem places_ofPlaces (negative : Bool) (m : ℕ) : (ofPlaces negative m).places = m := by
  obtain ⟨hplaces, -⟩ := (ofPlaces negative m).places_eq
  obtain ⟨j, hj⟩ := exists_dropTail_append_zeros (padded m)
  have hlength := congrArg List.length hj
  have hvalue : value (padded m) = m % 10 ^ 10 := value_leftpad 10 _
  rw [length_padded, List.length_append, List.length_replicate] at hlength
  rw [hj, value_append_zeros] at hvalue
  have hfraction : (ofPlaces negative m).fraction = dropTail (· == '0') (padded m) := rfl
  rw [hplaces, hfraction, show 10 - (dropTail (· == '0') (padded m)).length = j by omega, hvalue]
  show value (ofNat (m / 10 ^ 10)) * 10 ^ 10 + m % 10 ^ 10 = m
  rw [value_ofNat, Nat.div_add_mod']

theorem toRat_ofPlaces (negative : Bool) (m : ℕ) :
    (ofPlaces negative m).toRat = signed negative m / 10 ^ 10 := by
  rw [toRat_eq, places_ofPlaces]
  rfl

/-- The one text that has a sign and denotes zero. -/
theorem text_eq_negative_zero_iff (d : DecimalText) :
    d.text = "-0".toList ↔ d.negative = true ∧ d.places = 0 := by
  constructor
  · intro h
    obtain ⟨c, w, hw⟩ := List.exists_cons_of_ne_nil d.whole_ne_nil
    rw [text, hw] at h
    cases hnegative : d.negative with
    | false =>
      rw [hnegative] at h
      have hc := d.isDigits_whole c (by simp [hw])
      rw [(List.cons.inj h).1] at hc
      exact absurd hc (by decide)
    | true =>
      rw [hnegative] at h
      obtain ⟨hc, hrest⟩ := List.cons.inj (List.cons.inj h).2
      obtain ⟨rfl, hpoint⟩ := List.append_eq_nil_iff.1 hrest
      have hfraction : d.fraction = [] := by
        by_contra hne
        rw [afterPoint, if_neg hne] at hpoint
        cases hpoint
      refine ⟨rfl, ?_⟩
      rw [places, hw, hfraction, hc]
      decide
  · rintro ⟨hnegative, hplaces⟩
    rw [d.eq_ofPlaces, hnegative, hplaces]
    decide

end DecimalText

/-- A text is the decimal form of a value: the only text of the form that denotes it, where zero has
no sign. -/
def IsDecimalOf (t : Text) (q : ℚ) : Prop :=
  ∃ d : DecimalText, d.text = t ∧ d.toRat = q ∧ t ≠ "-0".toList

theorem signed_inj {s t : Bool} {m n : ℕ} (hs : ¬ (s = true ∧ m = 0)) (ht : ¬ (t = true ∧ n = 0))
    (h : signed s m = signed t n) : s = t ∧ m = n := by
  cases s <;> cases t <;> simp [signed] at * <;> omega

/-- **A value has one decimal form.** -/
theorem IsDecimalOf.unique {t u : Text} {q : ℚ} (ht : IsDecimalOf t q) (hu : IsDecimalOf u q) :
    t = u := by
  obtain ⟨d, rfl, hd, hdzero⟩ := ht
  obtain ⟨e, rfl, he, hezero⟩ := hu
  rw [ne_eq, DecimalText.text_eq_negative_zero_iff] at hdzero hezero
  have hsigned : signed d.negative d.places = signed e.negative e.places := by
    rw [← he, d.toRat_eq, e.toRat_eq, div_left_inj' (by norm_num)] at hd
    exact_mod_cast hd
  obtain ⟨hnegative, hplaces⟩ := signed_inj hdzero hezero hsigned
  rw [d.eq_ofPlaces, e.eq_ofPlaces, hnegative, hplaces]

/-! ### The text of a number -/

/-- The exact value of a finite number. -/
def Binary64.toRat (x : Binary64) : ℚ := x.units / unit

theorem toRat_finite (s : Bool) {r : ℕ} (h : r < ranks) :
    (finite s r h).toRat = (if s then -1 else 1) * (unitsOfRank r / unit) := by
  rw [Binary64.toRat, units_eq]
  cases s with
  | false => simp
  | true => simp; ring

/-- A whole number has no places after its point. -/
theorem text_ofPlaces_whole (negative : Bool) (m : ℕ) :
    (DecimalText.ofPlaces negative (m * 10 ^ 10)).text = signChars negative ++ ofNat m := by
  have hwhole : m * 10 ^ 10 / 10 ^ 10 = m := Nat.mul_div_cancel m (by decide)
  have hfraction : dropTail (· == '0') (DecimalText.padded (m * 10 ^ 10)) = [] := by
    rw [DecimalText.padded, Nat.mul_mod_left]
    decide
  simp only [DecimalText.text, DecimalText.ofPlaces, hwhole, hfraction, afterPoint, if_true,
    List.append_nil]

/-- The places of a number, with its sign in front. -/
theorem text_ofPlaces (negative : Bool) (m : ℕ) :
    (DecimalText.ofPlaces negative m).text =
      dropTail (· == '.') (dropTail (· == '0') (signChars negative ++ pointText 10 m)) := by
  have hpoint : pointText 10 m = ofNat (m / 10 ^ 10) ++ '.' :: DecimalText.padded m := rfl
  have hdigits := (DecimalText.ofPlaces negative m).isDigits_fraction
  rw [hpoint, ← List.append_assoc, dropTail_append_cons _ _ (by decide)]
  exact (dropTail_point_append (isDigits_ofNat _) (ofNat_ne_nil _) hdigits _).symm

/-- **Both ways of writing a number give the decimal form of its places.**  A zero has no sign, but
a number that is rounded to zero keeps its sign. -/
theorem resultText_eq {x : Binary64} (hx : x.isFinite = true) :
    resultText x = (DecimalText.ofPlaces (x.isNegative && !x.isZero) (x.scaled 10)).text := by
  rcases x with _ | _ | ⟨s, r, h⟩
  · cases hx
  · cases hx
  · by_cases hw : unit ∣ unitsOfRank r
    · obtain ⟨m, hm⟩ := hw
      rw [Nat.mul_comm] at hm
      have hscaled : (finite s r h).scaled 10 = m * 10 ^ 10 := by
        show roundHalfEven (unitsOfRank r * 10 ^ 10) unit = _
        rw [hm, Nat.mul_right_comm, roundHalfEven_mul_right _ unit_pos]
      have hzero : r = 0 ↔ m = 0 := by
        rw [← unitsOfRank_strictMono.injective.eq_iff, unitsOfRank_zero, hm, Nat.mul_eq_zero]
        exact or_iff_left unit_pos.ne'
      have hsign : decide ((finite s r h).truncate < 0) = (s && !(r == 0)) := by
        rw [truncate_finite s h hm, Bool.eq_iff_iff]
        cases s <;> simp [hzero, Nat.pos_iff_ne_zero]
      rw [resultText, if_pos ((isWhole_finite s h).2 ⟨m, by rw [hm, Nat.mul_comm]⟩), textOfInt_eq,
        hsign, natAbs_truncate, hscaled, text_ofPlaces_whole]
      show _ ++ ofNat (unitsOfRank r / unit) = _
      rw [hm, Nat.mul_div_cancel _ unit_pos]
      rfl
    · have hzero : (r == 0) = false := by
        refine beq_eq_false_iff_ne.2 ?_
        rintro rfl
        exact hw (unitsOfRank_zero ▸ dvd_zero unit)
      have hsign : (s && !(r == 0)) = s := by rw [hzero, Bool.not_false, Bool.and_true]
      rw [resultText, if_neg (by rwa [isWhole_finite]), if_pos hx, text_ofPlaces]
      show _ = dropTail _ (dropTail _ (signChars (s && !(r == 0)) ++ _))
      rw [hsign]
      rfl

/-- The places of a number are the nearest to its value. -/
theorem isNearestInt_scaled {x : Binary64} (hx : x.isFinite = true) :
    IsNearestInt (signed x.isNegative (x.scaled 10)) (x.toRat * 10 ^ 10) := by
  rcases x with _ | _ | ⟨s, r, h⟩
  · cases hx
  · cases hx
  · have hnear := isNearestInt_roundHalfEven (unitsOfRank r * 10 ^ 10) unit_pos
    have hvalue : ((unitsOfRank r * 10 ^ 10 : ℕ) : ℚ) / unit = unitsOfRank r / unit * 10 ^ 10 := by
      push_cast
      ring
    have hscaled : (finite s r h).scaled 10 = roundHalfEven (unitsOfRank r * 10 ^ 10) unit := rfl
    rw [hvalue, ← hscaled] at hnear
    rw [toRat_finite]
    cases s with
    | false => simpa [signed, isNegative] using hnear
    | true => simpa [signed, isNegative] using hnear.neg

/-- The sign of a zero does not count. -/
theorem signed_sign {x : Binary64} (hx : x.isFinite = true) :
    signed (x.isNegative && !x.isZero) (x.scaled 10) = signed x.isNegative (x.scaled 10) := by
  rcases x with _ | _ | ⟨s, r, h⟩
  · cases hx
  · cases hx
  · by_cases hr : r = 0
    · subst hr
      have hscaled : (finite s 0 h).scaled 10 = 0 := by
        rw [scaled, magnitude, unitsOfRank_zero, Nat.zero_mul]
        exact (roundHalfEven_eq_zero_iff unit_pos).2 (Nat.zero_le _)
      rw [hscaled]
      cases s <;> rfl
    · have hzero : (finite s r h).isZero = false := beq_eq_false_iff_ne.2 hr
      rw [hzero, Bool.not_false, Bool.and_true]

/-- A whole number is an integer. -/
theorem exists_toRat_of_isWhole {x : Binary64} (hx : x.isWhole = true) : ∃ i : ℤ, x.toRat = i := by
  rcases x with _ | _ | ⟨s, r, h⟩
  · cases hx
  · cases hx
  · obtain ⟨m, hm⟩ := (isWhole_finite s h).1 hx
    have hunit : (unit : ℚ) ≠ 0 := by exact_mod_cast unit_pos.ne'
    have hvalue : (unitsOfRank r : ℚ) / unit = m := by
      rw [hm]
      push_cast
      field_simp
    refine ⟨(if s then -1 else 1) * m, ?_⟩
    rw [toRat_finite, hvalue]
    push_cast
    rfl

/-- All places of a negative number are rounded off where it is not further than half a place from
zero. -/
theorem negative_zero_iff {x : Binary64} (hx : x.isFinite = true) :
    (x.isNegative && !x.isZero) = true ∧ x.scaled 10 = 0 ↔
      -(1 / (2 * 10 ^ 10)) ≤ x.toRat ∧ x.toRat < 0 := by
  rcases x with _ | _ | ⟨s, r, h⟩
  · cases hx
  · cases hx
  · have hunit : (0 : ℚ) < unit := by exact_mod_cast unit_pos
    have hscaled : (finite s r h).scaled 10 = 0 ↔
        (unitsOfRank r : ℚ) / unit ≤ 1 / (2 * 10 ^ 10) := by
      show roundHalfEven (unitsOfRank r * 10 ^ 10) unit = 0 ↔ _
      rw [roundHalfEven_eq_zero_iff unit_pos, div_le_div_iff₀ hunit (by norm_num), one_mul,
        ← @Nat.cast_le ℚ]
      push_cast
      constructor <;> intro hle <;> linarith
    have hzero : r ≠ 0 ↔ (0 : ℚ) < unitsOfRank r / unit := by
      have hmono := unitsOfRank_strictMono.lt_iff_lt (a := 0) (b := r)
      rw [unitsOfRank_zero] at hmono
      rw [div_pos_iff_of_pos_right hunit, Nat.cast_pos, hmono, Nat.pos_iff_ne_zero]
    rw [hscaled, toRat_finite]
    cases s with
    | false =>
      have hnonneg : (0 : ℚ) ≤ unitsOfRank r / unit := by positivity
      simp only [isNegative, Bool.false_and, Bool.false_eq_true, false_and, if_false, one_mul,
        false_iff, not_and, not_lt]
      exact fun _ => hnonneg
    | true =>
      have hsign : (true && !(r == 0)) = true ↔ r ≠ 0 := by simp
      show (true && !(r == 0)) = true ∧ _ ↔ _
      rw [hsign, hzero]
      simp only [if_true, neg_one_mul, neg_le_neg_iff, neg_lt_zero]
      exact and_comm

/-- **The text of a finite number is the decimal form of the number rounded to ten places, unless
the number is negative and rounded to zero.**  Then it is a zero with a sign. -/
theorem isDecimalOf_resultText_iff {x : Binary64} (hx : x.isFinite = true) :
    ∃ n : ℤ, IsNearestInt n (x.toRat * 10 ^ 10) ∧
      (x.isWhole = true → (n : ℚ) / 10 ^ 10 = x.toRat) ∧
      (IsDecimalOf (resultText x) (n / 10 ^ 10) ↔
        ¬ (-(1 / (2 * 10 ^ 10)) ≤ x.toRat ∧ x.toRat < 0)) ∧
      (-(1 / (2 * 10 ^ 10)) ≤ x.toRat ∧ x.toRat < 0 → resultText x = "-0".toList) := by
  have hnear := isNearestInt_scaled hx
  have htext := resultText_eq hx
  have hvalue : (DecimalText.ofPlaces (x.isNegative && !x.isZero) (x.scaled 10)).toRat =
      signed x.isNegative (x.scaled 10) / 10 ^ 10 := by
    rw [DecimalText.toRat_ofPlaces, signed_sign hx]
  have hzero : resultText x = "-0".toList ↔
      -(1 / (2 * 10 ^ 10)) ≤ x.toRat ∧ x.toRat < 0 := by
    rw [htext, DecimalText.text_eq_negative_zero_iff, DecimalText.places_ofPlaces]
    exact negative_zero_iff hx
  refine ⟨_, hnear, fun hwhole => ?_, ?_, hzero.2⟩
  · obtain ⟨i, hi⟩ := exists_toRat_of_isWhole hwhole
    rw [hi] at hnear ⊢
    have hself := isNearestInt_intCast (i * 10 ^ 10)
    push_cast at hself
    rw [hnear.unique hself]
    push_cast
    exact mul_div_cancel_right₀ _ (by norm_num)
  · rw [← hzero]
    constructor
    · rintro ⟨-, -, -, hne⟩
      exact hne
    · intro hne
      exact ⟨_, htext.symm, hvalue, hne⟩

/-- 0.00048828125 lies halfway between two numbers of ten places. -/
theorem isDecimalOf_resultText_tie :
    (ofBits 0x3f40000000000000).isFinite = true ∧
      resultText (ofBits 0x3f40000000000000) = "0.0004882812".toList ∧
      ∃ n : ℤ, IsNearestInt n ((ofBits 0x3f40000000000000).toRat * 10 ^ 10) ∧
        IsDecimalOf (resultText (ofBits 0x3f40000000000000)) (n / 10 ^ 10) := by
  obtain ⟨hfinite, htext, hunits⟩ : (ofBits 0x3f40000000000000).isFinite = true ∧
      resultText (ofBits 0x3f40000000000000) = "0.0004882812".toList ∧
      0 ≤ (ofBits 0x3f40000000000000).units := by decide +kernel
  have hnonneg : (0 : ℚ) ≤ (ofBits 0x3f40000000000000).toRat :=
    div_nonneg (by exact_mod_cast hunits) (Nat.cast_nonneg unit)
  obtain ⟨n, hnear, -, hform, -⟩ := isDecimalOf_resultText_iff hfinite
  exact ⟨hfinite, htext, n, hnear, hform.2 fun h => absurd hnonneg (not_le.2 h.2)⟩

/-- -0.00000000001 is written with the sign of a zero. -/
theorem resultText_negative_zero :
    (ofBits 0xbda5fd7fe1796495).isFinite = true ∧
      resultText (ofBits 0xbda5fd7fe1796495) = "-0".toList ∧
      ∀ q, ¬ IsDecimalOf (resultText (ofBits 0xbda5fd7fe1796495)) q := by
  obtain ⟨hfinite, htext⟩ : (ofBits 0xbda5fd7fe1796495).isFinite = true ∧
      resultText (ofBits 0xbda5fd7fe1796495) = "-0".toList := by decide +kernel
  refine ⟨hfinite, htext, ?_⟩
  rintro q ⟨-, -, -, hne⟩
  exact hne htext

end SpokenCalculator
