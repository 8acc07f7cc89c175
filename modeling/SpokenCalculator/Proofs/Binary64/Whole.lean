import SpokenCalculator.Proofs.Binary64.Operation

/-!
# Whole numbers of double precision

A whole number of at most 53 digits is exact, and so are sums, differences and products of such
numbers as long as they have no more digits either.  A longer one is rounded to its first 53 digits.

* `IsInt`: a number has an integer as its exact value;
* `IsInt.add`, `IsInt.sub`, `IsInt.mul`: the operations on integers, where their results are short;
* `exists_ofUnits_mem_Icc`: rounding does not cross a short whole number;
* `roundDigits`: a whole number rounded to 53 binary digits;
* `unitsOfRank_nearestRank_whole`: the number nearest to a whole number.
-/

namespace SpokenCalculator.Binary64

/-- The integer with a sign and a magnitude. -/
def signed (s : Bool) (n : ℕ) : ℤ := if s then -(n : ℤ) else n

@[simp] theorem natAbs_signed (s : Bool) (n : ℕ) : (signed s n).natAbs = n := by
  cases s <;> simp [signed]

/-- A number has an integer as its exact value. -/
def IsInt (x : Binary64) (i : ℤ) : Prop :=
  ∃ s r, ∃ h : r < ranks, ∃ n : ℕ, x = .finite s r h ∧ unitsOfRank r = n * unit ∧ i = signed s n

theorem units_of_signed (s : Bool) {r n : ℕ} (h : r < ranks) (hr : unitsOfRank r = n * unit) :
    (finite s r h).units = signed s n * unit := by
  rw [units_eq, hr, signed]
  cases s <;> simp

theorem IsInt.units {x : Binary64} {i : ℤ} (hx : x.IsInt i) : x.units = i * unit := by
  obtain ⟨s, r, h, n, rfl, hr, rfl⟩ := hx
  exact units_of_signed s h hr

theorem IsInt.isFinite {x : Binary64} {i : ℤ} (hx : x.IsInt i) : x.isFinite = true := by
  obtain ⟨s, r, h, n, rfl, -, -⟩ := hx
  rfl

theorem isInt_signedZero (s : Bool) : (signedZero s).IsInt 0 :=
  ⟨s, 0, by decide, 0, rfl, by rw [unitsOfRank_zero, Nat.zero_mul], by cases s <;> rfl⟩

theorem isInt_ofUnits (s : Bool) {n : ℕ} (hn : n ≤ 2 ^ 53) :
    (ofUnits s (n * unit) 1).IsInt (signed s n) := by
  obtain ⟨r, h, hr, -⟩ := exists_ofInt hn
  refine ⟨s, r, h, n, ?_, hr, rfl⟩
  rw [← hr, ofUnits, dif_pos (by simpa using h)]
  simp only [nearestRank_unitsOfRank]

theorem isInt_ofInt {i : ℤ} (hi : i.natAbs ≤ 2 ^ 53) : (ofInt i).IsInt i := by
  have h := isInt_ofUnits (decide (i < 0)) hi
  have hsigned : signed (decide (i < 0)) i.natAbs = i := by
    by_cases hneg : i < 0
    · rw [decide_eq_true hneg, signed, if_pos rfl]
      omega
    · rw [decide_eq_false hneg, signed, if_neg Bool.false_ne_true]
      omega
  rwa [hsigned] at h

/-! ### Operations -/

section Operations

variable {x y : Binary64} {i j : ℤ}

theorem IsInt.neg (hx : x.IsInt i) : (-x).IsInt (-i) := by
  obtain ⟨s, r, h, n, rfl, hr, rfl⟩ := hx
  exact ⟨!s, r, h, n, rfl, hr, by cases s <;> simp [signed]⟩

theorem IsInt.add (hx : x.IsInt i) (hy : y.IsInt j) (hij : (i + j).natAbs ≤ 2 ^ 53) :
    (x + y).IsInt (i + j) := by
  have hunits : x.units + y.units = (i + j) * unit := by rw [hx.units, hy.units, add_mul]
  obtain ⟨s, r, h, n, rfl, -, -⟩ := hx
  obtain ⟨t, q, k, m, rfl, -, -⟩ := hy
  have hunit : (0 : ℤ) < unit := by exact_mod_cast unit_pos
  rw [add_finite, hunits]
  by_cases hzero : i + j = 0
  · rw [if_pos (by rw [hzero, zero_mul]), hzero]
    exact isInt_signedZero _
  · have hsign : decide ((i + j) * (unit : ℤ) < 0) = decide (i + j < 0) := by
      simp only [mul_neg_iff, hunit, hunit.not_gt, and_false, and_true, false_or]
    rw [if_neg (mul_ne_zero hzero hunit.ne'), hsign, Int.natAbs_mul, Int.natAbs_natCast]
    exact isInt_ofInt hij

theorem IsInt.sub (hx : x.IsInt i) (hy : y.IsInt j) (hij : (i - j).natAbs ≤ 2 ^ 53) :
    (x - y).IsInt (i - j) := by
  rw [sub_eq_add_neg] at hij ⊢
  exact hx.add hy.neg hij

theorem IsInt.mul (hx : x.IsInt i) (hy : y.IsInt j) (hij : (i * j).natAbs ≤ 2 ^ 53) :
    (x * y).IsInt (i * j) := by
  obtain ⟨s, r, h, n, rfl, hr, rfl⟩ := hx
  obtain ⟨t, q, k, m, rfl, hq, rfl⟩ := hy
  have hsigned : signed s n * signed t m = signed (s ^^ t) (n * m) := by
    cases s <;> cases t <;> simp [signed]
  have hunits : ofUnits (s ^^ t) (n * unit * (m * unit)) unit =
      ofUnits (s ^^ t) (n * m * unit) 1 := by
    refine ofUnits_congr _ unit_pos Nat.one_pos ?_
    have hne : (unit : ℚ) ≠ 0 := by exact_mod_cast unit_pos.ne'
    push_cast
    field_simp
  rw [hsigned, natAbs_signed] at hij
  rw [mul_finite, hr, hq, hunits, hsigned]
  exact isInt_ofUnits _ hij

end Operations

/-- A quotient between two whole numbers is rounded to a number between them. -/
theorem exists_ofUnits_mem_Icc (s : Bool) {n d a b : ℕ} (hd : 0 < d) (hb : b ≤ 2 ^ 53)
    (ha : a * unit * d ≤ n) (hn : n ≤ b * unit * d) :
    ∃ r, ∃ h : r < ranks, ofUnits s n d = .finite s r h ∧ a * unit ≤ unitsOfRank r ∧
      unitsOfRank r ≤ b * unit := by
  have hdq : (0 : ℚ) < d := by exact_mod_cast hd
  have hab : a ≤ b := by
    refine Nat.le_of_mul_le_mul_right ?_ (Nat.mul_pos unit_pos hd)
    rw [← Nat.mul_assoc, ← Nat.mul_assoc]
    exact ha.trans hn
  obtain ⟨low, hlow⟩ := exists_unitsOfRank (hab.trans hb) 1074
  obtain ⟨high, hhigh⟩ := exists_unitsOfRank hb 1074
  rw [← unit_eq] at hlow hhigh
  have hnear := isNearest_nearestRank n hd
  have hle : low ≤ nearestRank n d := by
    refine hnear.ge_of_ge ?_
    rw [hlow, le_div_iff₀ hdq]
    exact_mod_cast ha
  have hge : nearestRank n d ≤ high := by
    refine hnear.le_of_le ?_
    rw [hhigh, div_le_iff₀ hdq]
    exact_mod_cast hn
  have hlower := unitsOfRank_strictMono.monotone hle
  have hupper := unitsOfRank_strictMono.monotone hge
  rw [hlow] at hlower
  rw [hhigh] at hupper
  have hranks := lt_ranks_of_le hb hupper
  exact ⟨_, hranks, dif_pos hranks, hlower, hupper⟩

/-! ### Long whole numbers -/

/-- A whole number rounded to its first 53 binary digits. -/
def roundDigits (m : ℕ) : ℕ := roundHalfEven m (2 ^ (m.log2 - 52)) * 2 ^ (m.log2 - 52)

/-- A number of at most 53 digits, apart from zeros at its end, is not rounded. -/
theorem roundDigits_of_dvd {m : ℕ} (h : 2 ^ (m.log2 - 52) ∣ m) : roundDigits m = m := by
  obtain ⟨q, hq⟩ := h
  generalize hk : m.log2 - 52 = k at hq
  rw [roundDigits, hk, hq, Nat.mul_comm (2 ^ k) q, roundHalfEven_mul_right _ (Nat.two_pow_pos k)]

theorem roundDigits_of_lt {m : ℕ} (h : m < 2 ^ 53) : roundDigits m = m := by
  refine roundDigits_of_dvd ?_
  have hlog : m.log2 < 53 := by
    by_cases hm : m = 0
    · rw [hm]
      decide
    · exact (Nat.log2_lt hm).2 h
  rw [Nat.sub_eq_zero_of_le (by omega), Nat.pow_zero]
  exact Nat.one_dvd m

theorem pow_dvd_roundDigits (m : ℕ) : 2 ^ (m.log2 - 52) ∣ roundDigits m := Nat.dvd_mul_left _ _

theorem roundHalfEven_mul_mul (n d : ℕ) {c : ℕ} (hc : 0 < c) :
    roundHalfEven (n * c) (d * c) = roundHalfEven n d := by
  have hcond : ∀ a b : ℕ, (a * c < 2 * (b * c) ↔ a < 2 * b) ∧
      (2 * (b * c) = a * c ↔ 2 * b = a) := by
    intro a b
    rw [← Nat.mul_assoc]
    exact ⟨Nat.mul_lt_mul_right hc, Nat.mul_left_inj hc.ne'⟩
  unfold roundHalfEven
  rw [Nat.mul_mod_mul_right, Nat.mul_div_mul_right _ _ hc]
  simp only [hcond]

/-- Rounding a quotient does not cross a whole number. -/
theorem roundHalfEven_mem_Icc {n d a b : ℕ} (hd : 0 < d) (ha : a * d ≤ n) (hb : n ≤ b * d) :
    a ≤ roundHalfEven n d ∧ roundHalfEven n d ≤ b := by
  obtain ⟨h1, h2, -⟩ := roundHalfEven_spec n hd
  generalize roundHalfEven n d = q at h1 h2
  have hlow : d * (2 * a) ≤ d * (2 * q + 1) := by linarith
  have hhigh : d * (2 * q) ≤ d * (2 * b + 1) := by linarith
  have := Nat.le_of_mul_le_mul_left hlow hd
  have := Nat.le_of_mul_le_mul_left hhigh hd
  omega

theorem log2_mul_two_pow {m : ℕ} (hm : m ≠ 0) (e : ℕ) : (m * 2 ^ e).log2 = m.log2 + e := by
  have hne : m * 2 ^ e ≠ 0 := Nat.mul_ne_zero hm (Nat.two_pow_pos e).ne'
  refine (Nat.log2_eq_iff hne).2 ⟨?_, ?_⟩
  · rw [Nat.pow_add]
    exact Nat.mul_le_mul_right _ (Nat.log2_self_le hm)
  · rw [Nat.add_right_comm, Nat.pow_add]
    exact Nat.mul_lt_mul_of_pos_right Nat.lt_log2_self (Nat.two_pow_pos e)

/-- **The number nearest to a whole number is that number rounded to 53 digits.** -/
theorem unitsOfRank_nearestRank_whole (m : ℕ) :
    unitsOfRank (nearestRank (m * unit) 1) = roundDigits m * unit := by
  rcases Nat.lt_or_ge m (2 ^ 53) with hm | hm
  · obtain ⟨r, h, hr, -⟩ := exists_ofInt hm.le
    rw [roundDigits_of_lt hm, ← hr, nearestRank_unitsOfRank]
  · have hne : m ≠ 0 := by
      rintro rfl
      exact absurd hm (by decide)
    obtain ⟨k, hk⟩ : ∃ k, m.log2 = 52 + k :=
      Nat.exists_eq_add_of_le (((Nat.le_log2 hne).2 hm).trans' (by decide))
    obtain ⟨e, he⟩ : ∃ e, unit = 2 ^ e := ⟨1074, unit_eq⟩
    have hexp : exponentNear (m * 2 ^ e) 1 = k + e := by
      rw [exponentNear, Nat.div_one, log2_mul_two_pow hne, hk]
      omega
    have hround : roundHalfEven (m * 2 ^ e) (1 * Nat.pow 2 (k + e)) = roundHalfEven m (2 ^ k) := by
      rw [Nat.one_mul, Nat.pow_eq, Nat.pow_add]
      exact roundHalfEven_mul_mul m _ (Nat.two_pow_pos e)
    have hlow : 2 ^ 52 * 2 ^ k ≤ m := by
      rw [← Nat.pow_add, ← hk]
      exact Nat.log2_self_le hne
    have hhigh : m ≤ 2 ^ 53 * 2 ^ k := by
      rw [← Nat.pow_add, show 53 + k = m.log2 + 1 by omega]
      exact Nat.lt_log2_self.le
    obtain ⟨h52, h53⟩ := roundHalfEven_mem_Icc (Nat.two_pow_pos k) hlow hhigh
    rw [he, nearestRank, hexp, hround, unitsOfRank_grid h53 (Or.inr h52), roundDigits, hk,
      Nat.add_sub_cancel_left, Nat.pow_add, Nat.mul_assoc]

end SpokenCalculator.Binary64
