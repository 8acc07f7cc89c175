import SpokenCalculator.Binary64.Basic

/-!
# Rounding to the nearest number

Every operation is carried out exactly and rounded once: to the nearest of two neighbours, and
to the one of even rank when both are equally near.

* `roundHalfEven`: a quotient rounded to a whole number, halves to the even one;
* `nearestRank`, `ofUnits`: a quotient of units rounded to a number;
* `roundHalfEven_spec`, `roundHalfEven_eq`: the result is at most half a divisor away, and even at
  a half, and it is determined by this.
-/

namespace SpokenCalculator

/-- The quotient of two natural numbers, rounded to the nearest one; of two equally near, to the
even one. -/
def roundHalfEven (n d : Nat) : Nat :=
  if d < 2 * (n % d) ∨ (2 * (n % d) = d ∧ n / d % 2 = 1) then n / d + 1 else n / d

theorem roundHalfEven_spec (n : Nat) {d : Nat} (hd : 0 < d) :
    2 * n ≤ 2 * (d * roundHalfEven n d) + d ∧ 2 * (d * roundHalfEven n d) ≤ 2 * n + d ∧
      (2 * n = 2 * (d * roundHalfEven n d) + d ∨ 2 * (d * roundHalfEven n d) = 2 * n + d →
        roundHalfEven n d % 2 = 0) := by
  have hn := Nat.div_add_mod n d
  have hlt := Nat.mod_lt n hd
  have hstep : d * (n / d + 1) = d * (n / d) + d := by rw [Nat.mul_add, Nat.mul_one]
  unfold roundHalfEven
  split
  · rw [hstep]; omega
  · omega

/-- Nothing else is at most half a divisor away, and even at a half. -/
theorem roundHalfEven_eq {n d m : Nat} (hd : 0 < d) (hle : 2 * n ≤ 2 * (d * m) + d)
    (hge : 2 * (d * m) ≤ 2 * n + d)
    (heven : 2 * n = 2 * (d * m) + d ∨ 2 * (d * m) = 2 * n + d → m % 2 = 0) :
    roundHalfEven n d = m := by
  obtain ⟨h1, h2, h3⟩ := roundHalfEven_spec n hd
  generalize roundHalfEven n d = k at h1 h2 h3
  rcases Nat.lt_trichotomy k m with h | h | h
  · have hstep : d * k + d ≤ d * m := by rw [← Nat.mul_succ]; exact Nat.mul_le_mul_left d h
    have hm : m = k + 1 := Nat.le_antisymm
      (Nat.le_of_mul_le_mul_left (by rw [Nat.mul_succ]; omega) hd) h
    have := h3 (Or.inl (by omega))
    have := heven (Or.inr (by omega))
    omega
  · exact h
  · have hstep : d * m + d ≤ d * k := by rw [← Nat.mul_succ]; exact Nat.mul_le_mul_left d h
    have hk : k = m + 1 := Nat.le_antisymm
      (Nat.le_of_mul_le_mul_left (by rw [Nat.mul_succ]; omega) hd) h
    have := h3 (Or.inr (by omega))
    have := heven (Or.inl (by omega))
    omega

theorem roundHalfEven_mul_right (q : Nat) {d : Nat} (hd : 0 < d) : roundHalfEven (q * d) d = q := by
  unfold roundHalfEven
  rw [Nat.mul_div_cancel _ hd, Nat.mul_mod_left]
  simp; omega

@[simp] theorem roundHalfEven_one (n : Nat) : roundHalfEven n 1 = n := by
  simpa using roundHalfEven_mul_right n Nat.one_pos

namespace Binary64

/-- The exponent of the step between the numbers near `n / d` units. -/
def exponentNear (n d : Nat) : Nat := (n / d).log2 - 52

/-- The rank nearest to `n / d` units, as if ranks had no bound.  A quotient that rounds up to the
next power of two carries into the exponent by itself. -/
def nearestRank (n d : Nat) : Nat :=
  exponentNear n d * binade + roundHalfEven n (d * Nat.pow 2 (exponentNear n d))

/-- The number of a given sign nearest to a magnitude of `n / d` units. -/
def ofUnits (negative : Bool) (n d : Nat) : Binary64 :=
  if h : nearestRank n d < ranks then .finite negative (nearestRank n d) h
  else .infinite negative

@[simp] theorem nearestRank_zero (d : Nat) : nearestRank 0 d = 0 := by
  simp [nearestRank, exponentNear, roundHalfEven]

@[simp] theorem ofUnits_zero (negative : Bool) (d : Nat) :
    ofUnits negative 0 d = signedZero negative := by
  have h : (0 : Nat) < ranks := by decide
  simp [ofUnits, signedZero, h]

@[simp] theorem isNegative_ofUnits (negative : Bool) (n d : Nat) :
    (ofUnits negative n d).isNegative = negative := by
  unfold ofUnits; split <;> rfl

end Binary64
end SpokenCalculator
