import SpokenCalculator.Binary64.Printing
import SpokenCalculator.Proofs.Binary64.Operation

/-!
# The number of a decimal fraction

A decimal fraction is read as the number nearest to its value.  The shortcuts for exponents that are
very small or very large give the same number, and the fewest digits of a magnitude are chosen among
those that are read as it.

* `Decimal.toRat`: the value of a decimal fraction;
* `ofDecimal_eq`, `ofDecimal_congr`: the number depends on the value alone;
* `isFinite_ofDecimal_iff`: the values that are read as finite numbers;
* `ofDecimal_shortest`: the fewest digits of a magnitude are read as this magnitude.
-/

namespace SpokenCalculator

/-- The value of a decimal fraction. -/
def Decimal.toRat (x : Decimal) : ℚ := x.digits * 10 ^ x.exponent

theorem Decimal.num_div_den (x : Decimal) : (x.num : ℚ) / x.den = x.toRat := by
  obtain ⟨d, e⟩ := x
  rw [num, den, toRat, Nat.pow_eq, Nat.pow_eq]
  push_cast
  have hten : (10 : ℚ) ≠ 0 := by norm_num
  rw [mul_div_assoc, ← zpow_natCast, ← zpow_natCast, ← zpow_sub₀ hten]
  congr 2
  omega

namespace Binary64

theorem two_pow_le_ten_pow (k : ℕ) : 2 ^ (3 * k) ≤ 10 ^ k := by
  rw [Nat.pow_mul]
  exact Nat.pow_le_pow_left (by decide) k

/-- A quotient of at most half a unit is rounded to zero. -/
theorem nearestRank_of_le_half {n d : ℕ} (hd : 0 < d) (h : 2 * n ≤ d) : nearestRank n d = 0 := by
  have hdq : (0 : ℚ) < d := by exact_mod_cast hd
  have hq : 2 * ((n : ℚ) / d) ≤ 1 := by
    rw [← mul_div_assoc, div_le_one hdq]
    exact_mod_cast h
  have hone : unitsOfRank 1 = 1 := by decide
  refine nearestRank_eq hd rfl ⟨?_, fun _ => Even.zero, ?_, ?_⟩
  · rw [unitsOfRank_zero, hone]
    push_cast
    linarith
  · intro s hs
    exact absurd hs (Nat.succ_ne_zero s)
  · intro s hs
    exact absurd hs (Nat.succ_ne_zero s)

theorem ofUnits_of_isTiny (s : Bool) {x : Decimal} (h : x.isTiny = true) :
    ofUnits s (x.num * unit) x.den = signedZero s := by
  obtain ⟨d, e⟩ := x
  by_cases hd : d = 0
  · rw [Decimal.num, hd, Nat.zero_mul, Nat.zero_mul, ofUnits_zero]
  have he : e + 400 + d.log2 < 0 := by simpa [Decimal.isTiny, hd] using h
  obtain ⟨j, hj⟩ : ∃ j : ℕ, (-e).toNat = 401 + d.log2 + j :=
    ⟨(-e).toNat - (401 + d.log2), by omega⟩
  have hnum : Decimal.num ⟨d, e⟩ = d := by
    rw [Decimal.num, show e.toNat = 0 by omega]
    exact Nat.mul_one d
  have hden : Decimal.den ⟨d, e⟩ = 10 ^ (401 + d.log2 + j) := by
    rw [Decimal.den, hj, Nat.pow_eq]
  have hzero : nearestRank (d * unit) (10 ^ (401 + d.log2 + j)) = 0 := by
    refine nearestRank_of_le_half (Nat.pow_pos (by decide)) ?_
    obtain ⟨k, hk⟩ : ∃ k, k = 1074 := ⟨_, rfl⟩
    have hlog : d * unit ≤ 2 ^ (d.log2 + 1) * 2 ^ k := by
      rw [unit_eq, hk]
      exact Nat.mul_le_mul_right _ Nat.lt_log2_self.le
    calc 2 * (d * unit) ≤ 2 * (2 ^ (d.log2 + 1) * 2 ^ k) := Nat.mul_le_mul_left 2 hlog
      _ = 2 ^ (1 + (d.log2 + 1 + k)) := by rw [Nat.pow_add, Nat.pow_add]; ring
      _ ≤ 2 ^ (3 * (401 + d.log2 + j)) := Nat.pow_le_pow_right (by decide) (by omega)
      _ ≤ 10 ^ (401 + d.log2 + j) := two_pow_le_ten_pow _
  have hranks : (0 : ℕ) < ranks := by decide
  rw [hnum, hden, ofUnits, dif_pos (by rw [hzero]; exact hranks)]
  simp only [hzero, signedZero]

theorem ofUnits_of_isHuge (s : Bool) {x : Decimal} (h : x.isHuge = true) :
    ofUnits s (x.num * unit) x.den = .infinite s := by
  obtain ⟨d, e⟩ := x
  simp only [Decimal.isHuge, Bool.and_eq_true, decide_eq_true_eq] at h
  obtain ⟨hd, he⟩ := h
  have hden : Decimal.den ⟨d, e⟩ = 1 := by
    rw [Decimal.den, show (-e).toNat = 0 by omega, Nat.pow_eq, Nat.pow_zero]
  have hlarge : overflowBound ≤ Decimal.num ⟨d, e⟩ := by
    obtain ⟨k, hk⟩ : ∃ k, k = 1024 := ⟨_, rfl⟩
    calc overflowBound ≤ 2 ^ k := by rw [overflowBound, hk]; exact Nat.sub_le _ _
      _ ≤ 2 ^ (3 * e.toNat) := Nat.pow_le_pow_right (by decide) (by omega)
      _ ≤ 10 ^ e.toNat := two_pow_le_ten_pow _
      _ ≤ d * 10 ^ e.toNat := Nat.le_mul_of_pos_left _ (Nat.pos_of_ne_zero hd)
  have hinfinite := mt isFinite_ofInt_iff.1
    (show ¬ ((Decimal.num ⟨d, e⟩ : ℕ) : ℤ).natAbs < overflowBound by
      rw [Int.natAbs_natCast]
      exact not_lt.2 hlarge)
  rw [ofInt, isFinite_ofUnits, Int.natAbs_natCast] at hinfinite
  rw [hden, ofUnits, dif_neg hinfinite]

/-- **A decimal fraction is read as the number nearest to its value.** -/
theorem ofDecimal_eq (s : Bool) (x : Decimal) :
    ofDecimal s x = ofUnits s (x.num * unit) x.den := by
  unfold ofDecimal
  split
  · rename_i h
    exact (ofUnits_of_isTiny s h).symm
  · split
    · rename_i h
      exact (ofUnits_of_isHuge s h).symm
    · rfl

/-- Decimal fractions of one value are read as one number. -/
theorem ofDecimal_congr (s : Bool) {x y : Decimal} (h : x.toRat = y.toRat) :
    ofDecimal s x = ofDecimal s y := by
  rw [ofDecimal_eq, ofDecimal_eq]
  refine ofUnits_congr s x.den_pos y.den_pos ?_
  have hx := x.num_div_den
  have hy := y.num_div_den
  push_cast
  rw [mul_div_right_comm, mul_div_right_comm, hx, hy, h]

/-- A decimal fraction is read as a finite number below half a step beyond the last. -/
theorem isFinite_ofDecimal_iff (s : Bool) (x : Decimal) :
    (ofDecimal s x).isFinite = true ↔ x.toRat < overflowBound := by
  have hden : (0 : ℚ) < x.den := by exact_mod_cast x.den_pos
  rw [ofDecimal_eq, isFinite_ofUnits_iff_lt _ _ x.den_pos, Nat.mul_right_comm,
    Nat.mul_lt_mul_right unit_pos, ← x.num_div_den, div_lt_iff₀ hden]
  exact_mod_cast Iff.rfl

/-! ### The fewest digits -/

theorem nearer_eq (u : Nat) (low high : Decimal) :
    nearer u low high = low ∨ nearer u low high = high := by
  simp only [nearer]
  split
  · exact Or.inl rfl
  · exact Or.inr rfl

theorem of_choose? {P : Decimal → Prop} {u : ℕ} {a b : Bool} {low high x : Decimal}
    (h : choose? u low high a b = some x) (hlow : a = true → P low) (hhigh : b = true → P high) :
    P x := by
  unfold choose? at h
  split at h
  · rw [← Option.some.inj h]
    rcases nearer_eq u low high with hn | hn <;> rw [hn]
    · exact hlow rfl
    · exact hhigh rfl
  · exact Option.some.inj h ▸ hlow rfl
  · exact Option.some.inj h ▸ hhigh rfl
  · cases h

theorem readsAs_of_withDigits? {r n : ℕ} {x : Decimal} (h : withDigits? r n = some x) :
    readsAs x r = true := by
  unfold withDigits? at h
  exact of_choose? (P := fun y => readsAs y r = true) h id id

theorem readsAs_allDigits (r : ℕ) : readsAs (allDigits r) r = true := by
  obtain ⟨k, hk⟩ : ∃ k : ℕ, k = 1074 := ⟨_, rfl⟩
  have hdigits : allDigits r = ⟨unitsOfRank r * 5 ^ k, -(k : ℤ)⟩ := by
    unfold allDigits
    rw [show (-1074 : ℤ) = -(k : ℤ) by omega, ← hk, Nat.pow_eq]
  have hnum : (allDigits r).num = unitsOfRank r * 5 ^ k := by
    rw [hdigits, Decimal.num, show (-(k : ℤ)).toNat = 0 by omega]
    exact Nat.mul_one _
  have hden : (allDigits r).den = 10 ^ k := by
    rw [hdigits, Decimal.den, show (- -(k : ℤ)).toNat = k by omega, Nat.pow_eq]
  have hunit : unit = 2 ^ k := by rw [unit_eq, hk]
  rw [readsAs, beq_iff_eq, hnum, hden, hunit]
  refine nearestRank_eq (Nat.pow_pos (by decide)) ?_ (isNearest_unitsOfRank r)
  have hten : (10 : ℚ) ^ k = 5 ^ k * 2 ^ k := by rw [← mul_pow]; norm_num
  push_cast
  rw [hten, mul_assoc, mul_div_cancel_right₀ _ (by positivity)]

theorem readsAs_shortest (r : ℕ) : readsAs (shortest r) r = true := by
  rw [shortest]
  cases hfew : (List.range 17).findSome? fun n => withDigits? r (n + 1) with
  | none => exact readsAs_allDigits r
  | some x =>
    obtain ⟨n, -, hn⟩ := List.exists_of_findSome?_eq_some hfew
    exact readsAs_of_withDigits? hn

/-- **The fewest digits of a magnitude are read as this magnitude.** -/
theorem ofDecimal_shortest (s : Bool) {r : ℕ} (h : r < ranks) :
    ofDecimal s (shortest r) = .finite s r h := by
  have hr := beq_iff_eq.1 (readsAs_shortest r)
  rw [ofDecimal_eq, ofUnits, dif_pos (by rwa [hr])]
  simp only [hr]

/-- A magnitude other than zero has a digit. -/
theorem digits_shortest_ne_zero {r : ℕ} (hr : r ≠ 0) : (shortest r).digits ≠ 0 := by
  intro h
  have hreads := beq_iff_eq.1 (readsAs_shortest r)
  rw [Decimal.num, h, Nat.zero_mul, Nat.zero_mul, nearestRank_zero] at hreads
  exact hr hreads.symm

end Binary64
end SpokenCalculator
