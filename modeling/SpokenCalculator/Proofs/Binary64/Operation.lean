import SpokenCalculator.Binary64.Arithmetic
import SpokenCalculator.Proofs.Binary64.Nearest

/-!
# The operations on finite numbers

* `ofUnits_eq_ofRank`, `ofUnits_congr`: a rounded quotient as a rank, however it is written;
* `mul_finite`, `div_finite`, `add_finite`, `ofInt_eq`: the operations by their units;
* `exists_ofInt`: whole numbers of at most 53 digits are exact;
* `isFinite_ofUnits_iff_lt`, `isFinite_ofInt_iff`: the quotients and the whole numbers that are
  rounded to finite ones;
* `isFinite_div`: a quotient by one or more;
* `neg_add_neg`: the sum of opposite numbers.
-/

namespace SpokenCalculator.Binary64

theorem ofUnits_eq_ofRank (s : Bool) {n d : ℕ} (h : nearestRank n d < ranks) :
    ofUnits s n d = ofRank s (nearestRank n d) := by
  rw [ofUnits, dif_pos h, ofRank_of_lt s h]

/-- A quotient is rounded by its value. -/
theorem ofUnits_congr (s : Bool) {n d n' d' : ℕ} (hd : 0 < d) (hd' : 0 < d')
    (h : (n : ℚ) / d = n' / d') : ofUnits s n d = ofUnits s n' d' := by
  have hr : nearestRank n d = nearestRank n' d' :=
    nearestRank_eq hd h (isNearest_nearestRank n' hd')
  simp only [ofUnits, hr]

theorem mul_finite (s t : Bool) {r q : ℕ} (h : r < ranks) (k : q < ranks) :
    finite s r h * finite t q k = ofUnits (s ^^ t) (unitsOfRank r * unitsOfRank q) unit := rfl

theorem div_finite (s t : Bool) {r q : ℕ} (h : r < ranks) (k : q < ranks) (hq : q ≠ 0) :
    finite s r h / finite t q k = ofUnits (s ^^ t) (unitsOfRank r * unit) (unitsOfRank q) := by
  have hz : (finite t q k).isZero = false := by simpa [isZero] using hq
  show div _ _ = _
  simp only [div, hz, isNegative, magnitude]
  exact if_neg Bool.false_ne_true

theorem ofInt_eq {i : ℤ} {r : ℕ} (h : r < ranks) (hr : unitsOfRank r = i.natAbs * unit) :
    ofInt i = .finite (decide (i < 0)) r h := by
  rw [ofInt, ← hr, ofUnits, dif_pos (by simpa using h)]
  simp only [nearestRank_unitsOfRank]

theorem exists_ofInt {n : ℕ} (hn : n ≤ 2 ^ 53) :
    ∃ r, ∃ h : r < ranks, unitsOfRank r = n * unit ∧ ofInt n = .finite false r h := by
  obtain ⟨r, hr⟩ := exists_unitsOfRank hn 1074
  rw [← unit_eq] at hr
  have h : r < ranks := lt_ranks_of_le hn hr.le
  refine ⟨r, h, hr, ?_⟩
  rw [ofInt_eq h (by rw [Int.natAbs_natCast, hr]), decide_eq_false (by omega)]

/-- The whole numbers below this one are rounded to finite numbers: it is half a step beyond the
last of them. -/
def overflowBound : ℕ := 2 ^ 1024 - 2 ^ 970

theorem halfway_eq (k m : ℕ) :
    (2 ^ 53 - 1) * 2 ^ (k + 1 + m) + 2 ^ (54 + k) * 2 ^ m =
      2 * ((2 ^ (54 + k) - 2 ^ k) * 2 ^ m) := by
  have h : 2 ^ (54 + k) - 2 ^ k = (2 ^ 54 - 1) * 2 ^ k := by
    rw [Nat.pow_add, Nat.sub_mul, Nat.one_mul]
  rw [h, Nat.pow_add, Nat.pow_add, Nat.pow_add]
  norm_num
  ring

/-- The bound is halfway from the last finite magnitude to the one that would follow. -/
theorem exists_last_rank :
    ∃ last,
      last + 1 = ranks ∧ unitsOfRank last + unitsOfRank ranks = 2 * (overflowBound * unit) := by
  refine ⟨2045 * binade + (2 ^ 53 - 1), by decide, ?_⟩
  have h := halfway_eq 970 1074
  simp only [Nat.reduceAdd] at h
  rw [unitsOfRank_ranks, unitsOfRank_grid (by decide) (Or.inr (by decide)), unit_eq, overflowBound]
  exact h

theorem isFinite_ofUnits (s : Bool) (n d : ℕ) :
    (ofUnits s n d).isFinite = true ↔ nearestRank n d < ranks := by
  unfold ofUnits
  split
  · rename_i h
    exact iff_of_true rfl h
  · rename_i h
    exact iff_of_false Bool.false_ne_true h

/-- A quotient is rounded to a finite number below half a step beyond the last. -/
theorem isFinite_ofUnits_iff_lt (s : Bool) (n : ℕ) {d : ℕ} (hd : 0 < d) :
    (ofUnits s n d).isFinite = true ↔ n < overflowBound * unit * d := by
  obtain ⟨last, hlast, hsum⟩ := exists_last_rank
  have hsum' : (unitsOfRank last + unitsOfRank ranks : ℚ) = 2 * (overflowBound * unit) := by
    exact_mod_cast hsum
  have hdq : (0 : ℚ) < d := by exact_mod_cast hd
  have hlt : n < overflowBound * unit * d ↔ (n : ℚ) / d < overflowBound * unit := by
    rw [div_lt_iff₀ hdq]
    exact_mod_cast Iff.rfl
  have hnear := isNearest_nearestRank n hd
  rw [isFinite_ofUnits, hlt]
  generalize nearestRank n d = r at hnear ⊢
  generalize (n : ℚ) / d = q at hnear ⊢
  constructor
  · intro hr
    by_contra hle
    have hle' := not_lt.1 hle
    have habove := hnear.above
    have h1 := unitsOfRank_le_cast (show r ≤ last by omega)
    have h2 := unitsOfRank_le_cast (show r + 1 ≤ ranks by omega)
    -- only the last magnitude could be that near, and at the halfway point it is not the even one
    have hr' : r = last := by
      by_contra hne
      have := unitsOfRank_lt_cast (show r < last by omega)
      linarith
    subst hr'
    have heven := hnear.even_above (by rw [hlast] at habove ⊢; linarith)
    have hranks : Even ranks := by decide
    rw [← hlast] at hranks
    exact Nat.even_add_one.1 hranks heven
  · intro hlt'
    by_contra hle
    obtain ⟨s, rfl⟩ : ∃ s, s + 1 = r := ⟨r - 1, by omega⟩
    have hbelow := hnear.below s rfl
    have h1 := unitsOfRank_le_cast (show last ≤ s by omega)
    have h2 := unitsOfRank_le_cast (show ranks ≤ s + 1 by omega)
    linarith

/-- A whole number is rounded to a finite one below half a step beyond the last. -/
theorem isFinite_ofInt_iff {i : ℤ} : (ofInt i).isFinite = true ↔ i.natAbs < overflowBound := by
  rw [ofInt, isFinite_ofUnits_iff_lt _ _ Nat.one_pos, Nat.mul_one]
  exact Nat.mul_lt_mul_right unit_pos

/-- Every finite magnitude is below that bound. -/
theorem unitsOfRank_lt_overflowBound {r : ℕ} (h : r < ranks) :
    unitsOfRank r < overflowBound * unit := by
  have hfinite := isFinite_ofUnits false (unitsOfRank r) 1
  rw [nearestRank_unitsOfRank, isFinite_ofUnits_iff_lt _ _ Nat.one_pos, Nat.mul_one] at hfinite
  exact hfinite.2 h

/-- A number divided by one or more is finite just if it was. -/
theorem isFinite_div {x y : Binary64} (hy : unit ≤ y.magnitude) :
    (x / y).isFinite = x.isFinite := by
  have hpos := unit_pos.trans_le hy
  rcases y with _ | t | ⟨t, q, k⟩
  · exact absurd hpos (Nat.lt_irrefl 0)
  · exact absurd hpos (Nat.lt_irrefl 0)
  · rcases x with _ | s | ⟨s, r, h⟩
    · rfl
    · rfl
    · have hq : q ≠ 0 := by
        rintro rfl
        exact absurd hpos (by rw [magnitude, unitsOfRank_zero]; exact Nat.lt_irrefl 0)
      rw [div_finite s t h k hq]
      refine (isFinite_ofUnits_iff_lt _ _ hpos).2 ?_
      calc unitsOfRank r * unit
          < overflowBound * unit * unit :=
            Nat.mul_lt_mul_of_pos_right (unitsOfRank_lt_overflowBound h) unit_pos
        _ ≤ overflowBound * unit * unitsOfRank q := Nat.mul_le_mul_left _ hy

/-! ### Numbers and opposite numbers -/

theorem ne_nan_of_isFinite {x : Binary64} (h : x.isFinite = true) : x ≠ .nan := by
  rintro rfl
  cases h

theorem neg_ne_nan {x : Binary64} (h : x ≠ .nan) : -x ≠ .nan := by
  cases x with
  | nan => exact absurd rfl h
  | infinite s => exact Binary64.noConfusion
  | finite s r hr => exact Binary64.noConfusion

theorem ofUnits_ne_nan (s : Bool) (n d : ℕ) : ofUnits s n d ≠ .nan := by
  unfold ofUnits
  split <;> exact Binary64.noConfusion

theorem neg_finite (s : Bool) {r : ℕ} (h : r < ranks) : -finite s r h = finite (!s) r h := rfl

theorem isFinite_neg (x : Binary64) : (-x).isFinite = x.isFinite := by cases x <;> rfl

theorem isFinite_of_isZero {x : Binary64} (h : x.isZero = true) : x.isFinite = true := by
  cases x with
  | nan => cases h
  | infinite s => cases h
  | finite s r hr => rfl

theorem neg_ofUnits (s : Bool) (n d : ℕ) : -ofUnits s n d = ofUnits (!s) n d := by
  unfold ofUnits
  split <;> rfl

theorem sub_neg_eq_add (x y : Binary64) : x - -y = x + y := by
  show add x y.neg.neg = add x y
  rw [neg_neg]

theorem neg_sub_eq_add (x y : Binary64) : -x - y = -x + -y := rfl

theorem add_finite (s t : Bool) {r q : ℕ} (h : r < ranks) (k : q < ranks) :
    finite s r h + finite t q k =
      if (finite s r h).units + (finite t q k).units = 0 then signedZero (s && t)
      else ofUnits (decide ((finite s r h).units + (finite t q k).units < 0))
        ((finite s r h).units + (finite t q k).units).natAbs 1 := rfl

/-- The sum of the opposites is the opposite of the sum, or both are zeros, or neither is finite. -/
theorem neg_add_neg (x y : Binary64) :
    -x + -y = -(x + y) ∨ (x + y).isZero = true ∧ (-x + -y).isZero = true ∨
      (x + y).isFinite = false ∧ (-x + -y).isFinite = false := by
  rcases x with _ | s | ⟨s, r, h⟩
  · exact Or.inl rfl
  · rcases y with _ | t | ⟨t, q, k⟩
    · exact Or.inl rfl
    -- two infinities are opposed if one of them is changed, but then they are no number
    · right; right
      cases s <;> cases t <;> exact ⟨rfl, rfl⟩
    · exact Or.inl rfl
  · rcases y with _ | t | ⟨t, q, k⟩
    · exact Or.inl rfl
    · exact Or.inl rfl
    · have hu : (finite (!s) r h).units + (finite (!t) q k).units =
          -((finite s r h).units + (finite t q k).units) := by
        have hx := units_neg (finite s r h)
        have hy := units_neg (finite t q k)
        rw [neg] at hx hy
        omega
      rw [neg_finite, neg_finite, add_finite, add_finite, hu]
      generalize (finite s r h).units + (finite t q k).units = u
      by_cases hzero : u = 0
      · rw [if_pos hzero, if_pos (by omega)]
        exact Or.inr (Or.inl ⟨rfl, rfl⟩)
      · rw [if_neg hzero, if_neg (by omega), neg_ofUnits, Int.natAbs_neg]
        refine Or.inl (congrArg (ofUnits · _ 1) ?_)
        by_cases hneg : u < 0
        · rw [decide_eq_true hneg, decide_eq_false (by omega)]
          rfl
        · rw [decide_eq_false hneg, decide_eq_true (by omega)]
          rfl

end SpokenCalculator.Binary64
