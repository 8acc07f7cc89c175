import SpokenCalculator.Expression.Evaluation
import SpokenCalculator.Proofs.Binary64.Nearest

/-!
# Rounding to ten places is idempotent

A result is a magnitude times `10 ^ 10`, rounded to a whole number of places, and the quotient of
that by `10 ^ 10`.  All three steps round.  Still, a result has the whole number of places from
which it was made, so rounding it again changes nothing.

Below `2 ^ 51` places the errors are too small to matter, and below `2 ^ 52` they can only be
mistaken for a half, which goes to an even number.  Any other number of places is the scaled
magnitude itself.  The result is the magnitude nearest to its quotient, so it is no farther from it
than the magnitude at the beginning, which is scaled to it; where the steps on both sides are equal
that is enough.  They differ at a power of two only, and there one computation with 53 digits
decides.

* `scaledRank`, `placesOfRank`, `rankOfPlaces`: the three steps on ranks;
* `placesOfRank_rankOfPlaces`, `scaledRank_rankOfPlaces_lt`: the places of a result, and that it can
  be scaled again.
-/

namespace SpokenCalculator
open Binary64

/-- The rank of a magnitude times the number of places in one. -/
def scaledRank (r : ℕ) : ℕ := nearestRank (unitsOfRank r * 10 ^ 10) 1

/-- The whole number of places nearest to a magnitude. -/
def placesOfRank (r : ℕ) : ℕ := roundHalfEven (unitsOfRank (scaledRank r)) unit

/-- The rank of a whole number of places. -/
def rankOfPlaces (n : ℕ) : ℕ := nearestRank (n * unit) (10 ^ 10)

theorem unit_cast {a b : ℕ} (h : a + b = 1074) : (unit : ℚ) = 2 ^ a * 2 ^ b := by
  rw [unit_eq, ← h, pow_add]; push_cast; rfl

theorem isNearest_scaledRank (r : ℕ) : IsNearest (unitsOfRank r * 10 ^ 10) (scaledRank r) := by
  have h := isNearest_nearestRank (unitsOfRank r * 10 ^ 10) Nat.one_pos
  push_cast at h
  rwa [div_one] at h

theorem isNearest_rankOfPlaces (n : ℕ) : IsNearest (n * unit / 10 ^ 10) (rankOfPlaces n) := by
  have h := isNearest_nearestRank (n * unit) (d := 10 ^ 10) (by decide)
  push_cast at h
  exact h

/-- No magnitude gives a number of places more nearly than its own. -/
theorem abs_rankOfPlaces_sub_le (n s : ℕ) :
    |(unitsOfRank (rankOfPlaces n) : ℚ) * 10 ^ 10 - n * unit| ≤
      |(unitsOfRank s : ℚ) * 10 ^ 10 - n * unit| := by
  have hscale : ∀ t : ℕ, |(unitsOfRank t : ℚ) * 10 ^ 10 - n * unit| =
      |(n * unit / 10 ^ 10 : ℚ) - unitsOfRank t| * 10 ^ 10 := by
    intro t
    rw [abs_sub_comm (n * unit / 10 ^ 10 : ℚ), ← abs_of_pos (show (0 : ℚ) < 10 ^ 10 by norm_num),
      ← abs_mul, sub_mul, abs_of_pos (show (0 : ℚ) < 10 ^ 10 by norm_num),
      div_mul_cancel₀ _ (by norm_num)]
  rw [hscale, hscale]
  exact mul_le_mul_of_nonneg_right ((isNearest_rankOfPlaces n).abs_sub_le s) (by norm_num)

/-! ### Few places -/

/-- How close a result is to its places: a place is more than `2 ^ 33` of the steps into which the
quotient is rounded. -/
theorem abs_rankOfPlaces_sub_lt {n j : ℕ} (h : (n * unit : ℚ) ≤ 10 ^ 10 * (2 ^ 53 * 2 ^ j)) :
    |(unitsOfRank (rankOfPlaces n) : ℚ) * 10 ^ 10 - n * unit| < 2 ^ (33 + j) := by
  have hpos : (0 : ℚ) < 2 ^ j := by positivity
  have h0 : (0 : ℚ) ≤ n * unit / 10 ^ 10 :=
    div_nonneg (mul_nonneg (Nat.cast_nonneg _) (Nat.cast_nonneg _)) (by norm_num)
  have hle := (isNearest_rankOfPlaces n).abs_sub_le_half h0
    ((div_le_iff₀ (by norm_num)).2 (by linarith))
  obtain ⟨h1, h2⟩ := abs_le.1 hle
  have hdiv : (n * unit : ℚ) = n * unit / 10 ^ 10 * 10 ^ 10 := by ring
  rw [pow_add]
  exact abs_lt.2 ⟨by linarith, by linarith⟩

/-- Scaled again, the result is as close to the places. -/
theorem abs_scaledRank_rankOfPlaces_sub_le {n k : ℕ} (hk : k ≤ 1041) (hn : 2 ^ k * n < 2 ^ 53) :
    |(unitsOfRank (scaledRank (rankOfPlaces n)) : ℚ) - n * unit| ≤ unit / 2 ^ k := by
  obtain ⟨j, hj⟩ : ∃ j, k + (33 + j) = 1074 := ⟨1041 - k, by omega⟩
  have hu : (n * unit : ℚ) = ((2 ^ k * n : ℕ) : ℚ) * 2 ^ (33 + j) := by
    rw [unit_cast hj]; push_cast; ring
  have hpos : (0 : ℚ) < 2 ^ j := by positivity
  have hn' : ((2 ^ k * n : ℕ) : ℚ) ≤ 2 ^ 53 := by exact_mod_cast hn.le
  have h := abs_rankOfPlaces_sub_lt (n := n) (j := j) (by
    have := mul_le_mul_of_nonneg_right hn' hpos.le
    rw [hu, pow_add]
    nlinarith)
  rw [hu] at h ⊢
  rw [unit_cast hj, mul_div_cancel_left₀ _ (by positivity)]
  exact (isNearest_scaledRank _).abs_sub_le_pow hn h.le

theorem placesOfRank_rankOfPlaces_of_lt {n : ℕ} (hn : n < 2 ^ 51) :
    placesOfRank (rankOfPlaces n) = n := by
  have h := abs_scaledRank_rankOfPlaces_sub_le (n := n) (k := 2) (by decide) (by omega)
  have hpos : (0 : ℚ) < unit := by exact_mod_cast unit_pos
  exact roundHalfEven_eq_of_abs_le unit_pos (by linarith) fun heq => by linarith

theorem placesOfRank_rankOfPlaces_of_even {n : ℕ} (hn : n < 2 ^ 52) (he : Even n) :
    placesOfRank (rankOfPlaces n) = n := by
  have h := abs_scaledRank_rankOfPlaces_sub_le (n := n) (k := 1) (by decide) (by omega)
  exact roundHalfEven_eq_of_abs_le unit_pos (by linarith) fun _ => he

/-! ### Many places -/

theorem placesOfRank_eq_of_scaledRank {n r y : ℕ} (hr : scaledRank r = y)
    (hy : unitsOfRank y = n * unit) : placesOfRank r = n := by
  rw [placesOfRank, hr, hy, roundHalfEven_mul_right _ unit_pos]

/-- A number of places at the beginning of a block is a power of two.  For all of them one quotient
of 53 digits, with an exponent, is close enough. -/
theorem scaledRank_rankOfPlaces_of_block {n b : ℕ} (hn : 0 < n)
    (hb : unitsOfRank (b * binade) = n * unit) : scaledRank (rankOfPlaces n) = b * binade := by
  have hlarge : 35 ≤ b := by
    by_contra hlt
    have h1 : unitsOfRank (b * binade) ≤ unitsOfRank (33 * binade + 2 ^ 52) := by
      refine unitsOfRank_strictMono.monotone ?_
      have : b * binade ≤ 34 * binade := Nat.mul_le_mul_right _ (by omega)
      rw [binade_eq] at *
      omega
    rw [unitsOfRank_grid (by decide) (Or.inr le_rfl), ← Nat.pow_add, hb] at h1
    have h2 : 2 ^ (52 + 33) < unit := two_pow_lt_unit (by decide)
    have h3 := Nat.le_mul_of_pos_left unit hn
    omega
  obtain ⟨e, rfl⟩ : ∃ e, b = 34 + e + 1 := ⟨b - 35, by omega⟩
  have hy : unitsOfRank ((34 + e + 1) * binade) = 2 ^ 52 * 2 ^ (34 + e) := by
    rw [Nat.add_mul, Nat.one_mul, ← unitsOfRank_grid (by decide) (Or.inr le_rfl), binade_eq]
  have hyq : (unitsOfRank ((34 + e + 1) * binade) : ℚ) = 2 ^ 86 * 2 ^ e := by
    rw [hy]; push_cast; ring
  have hnu : (n * unit : ℚ) = 2 ^ 86 * 2 ^ e := by rw [← hyq, hb]; push_cast; rfl
  have hpos : (0 : ℚ) < 2 ^ e := by positivity
  -- `2 ^ 76 / 5 ^ 10`, rounded to a whole number
  obtain ⟨w, hw⟩ := exists_unitsOfRank_cast (m := 7737125245533627) (by decide) e
  push_cast at hw
  have hdist := abs_rankOfPlaces_sub_le n w
  rw [hnu, hw] at hdist
  have herr : |(7737125245533627 * 2 ^ e * 10 ^ 10 - 2 ^ 86 * 2 ^ e : ℚ)| = 2818804736 * 2 ^ e := by
    rw [abs_of_nonneg (by linarith)]
    ring
  rw [herr] at hdist
  refine (isNearest_scaledRank _).unique (isNearest_of_abs_lt (e := 33 + e) ?_ ?_)
  · rw [hy, ← Nat.pow_add]
    exact Nat.pow_lt_pow_right (by decide) (by omega)
  · rw [hyq, pow_add]
    linarith

/-- A number of places to which some magnitude is scaled exactly. -/
theorem scaledRank_rankOfPlaces_of_scaledRank {n r : ℕ} (hn : 0 < n)
    (hr : unitsOfRank (scaledRank r) = n * unit) :
    scaledRank (rankOfPlaces n) = scaledRank r := by
  have hd := Nat.div_add_mod (scaledRank r) binade
  rw [Nat.mul_comm] at hd
  by_cases hblock : scaledRank r % binade = 0
  · rw [hblock, Nat.add_zero] at hd
    rw [← hd] at hr ⊢
    exact scaledRank_rankOfPlaces_of_block hn hr
  · obtain ⟨y, hy⟩ : ∃ y, scaledRank r = y + 1 := ⟨scaledRank r - 1, by
      have := Nat.pos_of_ne_zero hblock
      have := Nat.mod_le (scaledRank r) binade
      omega⟩
    have hnear := isNearest_scaledRank r
    have hdist := abs_rankOfPlaces_sub_le n r
    have hrq : (unitsOfRank (scaledRank r) : ℚ) = n * unit := by rw [hr]; push_cast; rfl
    rw [hy] at hnear hrq hblock ⊢
    rw [← hrq] at hdist
    have hexp : exponentOfRank y = exponentOfRank (y + 1) := by
      unfold exponentOfRank
      rw [Nat.succ_div_of_not_dvd fun hdvd => hblock (Nat.mod_eq_zero_of_dvd hdvd)]
    exact (isNearest_scaledRank _).unique (hnear.of_abs_sub_le hexp hdist)

/-! ### All places -/

/-- A large number of places, or an odd one of that size, is not rounded: there the scaled
magnitudes are whole, or whole and halves. -/
theorem unitsOfRank_scaledRank {r : ℕ}
    (h : 2 ^ 52 < placesOfRank r ∨ 2 ^ 51 < placesOfRank r ∧ Odd (placesOfRank r)) :
    unitsOfRank (scaledRank r) = placesOfRank r * unit := by
  obtain ⟨h1, h2, h3⟩ := roundHalfEven_spec (unitsOfRank (scaledRank r)) unit_pos
  change _ ≤ 2 * (unit * placesOfRank r) + _ at h1
  change 2 * (unit * placesOfRank r) ≤ _ at h2
  change _ = 2 * (unit * placesOfRank r) + _ ∨ 2 * (unit * placesOfRank r) = _ →
    placesOfRank r % 2 = 0 at h3
  generalize placesOfRank r = n at *
  obtain ⟨g, hu⟩ := two_dvd_unit
  have hg : 0 < g := Nat.pos_of_ne_zero fun h0 => by
    rw [h0] at hu
    exact unit_pos.ne' hu
  have hn : 2 ^ 51 + 1 ≤ n := by omega
  -- the scaled magnitude is a whole number of halves, twice as many as there are places, or one
  -- more or less
  obtain ⟨k, hk⟩ : g ∣ unitsOfRank (scaledRank r) := by
    refine dvd_unitsOfRank ⟨2, by omega⟩ ?_
    have := Nat.mul_le_mul_left unit hn
    omega
  rw [hk, hu] at h1 h2 h3 ⊢
  have hle : k ≤ 2 * n + 1 := Nat.le_of_mul_le_mul_left
    (show 2 * g * k ≤ 2 * g * (2 * n + 1) by linarith) (by omega)
  have hge : 2 * n ≤ k + 1 := Nat.le_of_mul_le_mul_left
    (show 2 * g * (2 * n) ≤ 2 * g * (k + 1) by linarith) (by omega)
  have hne : k % 2 = 1 → n % 2 = 0 := by
    intro hodd
    rcases (by omega : k = 2 * n + 1 ∨ k + 1 = 2 * n) with heq | heq
    · exact h3 (Or.inl (by rw [heq]; ring))
    · exact h3 (Or.inr (by rw [show 2 * g * n = g * (2 * n) by ring, ← heq]; ring))
  have heven : k % 2 = 0 := by
    rcases h with h | ⟨-, h⟩
    · -- so large a magnitude is whole
      have hdvd := dvd_unitsOfRank (g := unit) (r := scaledRank r) dvd_rfl (by
        have := Nat.mul_le_mul_left g (show 2 ^ 53 ≤ k by omega)
        omega)
      rw [hk, hu, Nat.mul_comm 2 g] at hdvd
      exact Nat.mod_eq_zero_of_dvd (Nat.dvd_of_mul_dvd_mul_left hg hdvd)
    · have := Nat.odd_iff.1 h
      omega
  rw [show k = 2 * n by omega]
  ring

/-- A result has few places, or an even number of them, or as many as a magnitude has exactly. -/
theorem scaledRank_rankOfPlaces_cases (r : ℕ) :
    placesOfRank r < 2 ^ 51 ∨ placesOfRank r < 2 ^ 52 ∧ Even (placesOfRank r) ∨
      unitsOfRank (scaledRank (rankOfPlaces (placesOfRank r))) = placesOfRank r * unit ∧
        (scaledRank (rankOfPlaces (placesOfRank r)) = scaledRank r ∨
          placesOfRank r = 2 ^ 52) := by
  by_cases hsmall : placesOfRank r < 2 ^ 51
  · exact Or.inl hsmall
  by_cases heven : placesOfRank r < 2 ^ 52 ∧ Even (placesOfRank r)
  · exact Or.inr (Or.inl heven)
  right; right
  by_cases hpow : placesOfRank r = 2 ^ 52
  · have hb : unitsOfRank (1075 * binade) = placesOfRank r * unit := by
      rw [show 1075 * binade = 1074 * binade + 2 ^ 52 from rfl,
        unitsOfRank_grid (by decide) (Or.inr le_rfl), hpow, unit_eq]
    have hpos : 0 < placesOfRank r := by omega
    exact ⟨by rw [scaledRank_rankOfPlaces_of_block hpos hb, hb], Or.inr hpow⟩
  · have hexact : unitsOfRank (scaledRank r) = placesOfRank r * unit := by
      refine unitsOfRank_scaledRank ?_
      by_cases hlarge : 2 ^ 52 < placesOfRank r
      · exact Or.inl hlarge
      · have hodd : Odd (placesOfRank r) := by
          rw [← Nat.not_even_iff_odd]
          intro h
          exact heven ⟨by omega, h⟩
        have hne : placesOfRank r ≠ 2 ^ 51 := by
          intro h
          rw [h] at hodd
          exact absurd hodd (by decide)
        exact Or.inr ⟨by omega, hodd⟩
    have heq := scaledRank_rankOfPlaces_of_scaledRank (by omega) hexact
    exact ⟨by rw [heq, hexact], Or.inl heq⟩

/-- **A result has the number of places from which it was made.** -/
theorem placesOfRank_rankOfPlaces (r : ℕ) :
    placesOfRank (rankOfPlaces (placesOfRank r)) = placesOfRank r := by
  rcases scaledRank_rankOfPlaces_cases r with h | ⟨h, he⟩ | ⟨h, -⟩
  · exact placesOfRank_rankOfPlaces_of_lt h
  · exact placesOfRank_rankOfPlaces_of_even h he
  · exact placesOfRank_eq_of_scaledRank rfl h

/-- A result that could be scaled can be scaled again. -/
theorem scaledRank_rankOfPlaces_lt {r : ℕ} (h : scaledRank r < ranks) :
    scaledRank (rankOfPlaces (placesOfRank r)) < ranks := by
  have hfew : placesOfRank r < 2 ^ 52 → scaledRank (rankOfPlaces (placesOfRank r)) < ranks := by
    intro hn
    have hle := abs_scaledRank_rankOfPlaces_sub_le (k := 1) (by decide)
      (show 2 ^ 1 * placesOfRank r < 2 ^ 53 by omega)
    have hpos : (0 : ℚ) < unit := by exact_mod_cast unit_pos
    have hup : (unitsOfRank (scaledRank (rankOfPlaces (placesOfRank r))) : ℚ) ≤
        (placesOfRank r + 1) * unit := by linarith [(abs_le.1 hle).2]
    exact lt_ranks_of_le (m := placesOfRank r + 1) (by omega) (by exact_mod_cast hup)
  rcases scaledRank_rankOfPlaces_cases r with hn | ⟨hn, -⟩ | ⟨hunits, hr | hn⟩
  · exact hfew (by omega)
  · exact hfew hn
  · rwa [hr]
  · exact lt_ranks_of_le (by omega) hunits.le

end SpokenCalculator
