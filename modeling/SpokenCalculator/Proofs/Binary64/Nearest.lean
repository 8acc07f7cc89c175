import Mathlib.Algebra.Order.Floor.Semiring
import Mathlib.Algebra.Order.Archimedean.Basic
import Mathlib.Data.Rat.Floor
import Mathlib.Tactic.FieldSimp
import Mathlib.Tactic.Linarith
import Mathlib.Tactic.LinearCombination
import Mathlib.Tactic.Positivity
import SpokenCalculator.Proofs.Binary64.Rank

/-!
# The nearest magnitude

A position on the line of magnitudes is a rational number of units.  The nearest rank to it lies
between the midpoints to its two neighbours, and at a midpoint it is the even one.  This determines
the rank, so the roundings of equal quotients are equal and rounding is monotone.

* `IsNearest`: the rank nearest to a position;
* `isNearest_nearestRank`, `nearestRank_eq`: `nearestRank` is the nearest rank, and the only one;
* `IsNearest.mono`, `IsNearest.abs_sub_le`, `IsNearest.abs_sub_le_half`: order, and how far the
  nearest magnitude is away;
* `isNearest_of_abs_lt`, `IsNearest.of_abs_sub_le`: positions close enough to a magnitude;
* `isNearest_grid`: positions rounded to the multiples of a step, and the magnitudes beside these;
* `abs_sub_roundHalfEven_le`, `roundHalfEven_eq_of_abs_le`: the whole number nearest to a quotient.
-/

namespace SpokenCalculator

/-! ### Whole numbers -/

/-- A quotient is rounded by at most one half. -/
theorem abs_sub_roundHalfEven_le (n : ℕ) {d : ℕ} (hd : 0 < d) :
    |(n : ℚ) - roundHalfEven n d * d| ≤ d / 2 := by
  obtain ⟨h1, h2, -⟩ := roundHalfEven_spec n hd
  have h1' : (2 * n : ℚ) ≤ 2 * (d * roundHalfEven n d) + d := by exact_mod_cast h1
  have h2' : (2 * (d * roundHalfEven n d) : ℚ) ≤ 2 * n + d := by exact_mod_cast h2
  exact abs_le.2 ⟨by linarith, by linarith⟩

/-- A whole number at most one half away from a quotient, and even at one half, is its rounding. -/
theorem roundHalfEven_eq_of_abs_le {n d m : ℕ} (hd : 0 < d) (h : |(n : ℚ) - m * d| ≤ d / 2)
    (heven : |(n : ℚ) - m * d| = d / 2 → Even m) : roundHalfEven n d = m := by
  obtain ⟨hlo, hhi⟩ := abs_le.1 h
  have h1 : (2 * n : ℚ) ≤ 2 * (d * m) + d := by linarith
  have h2 : (2 * (d * m) : ℚ) ≤ 2 * n + d := by linarith
  refine roundHalfEven_eq hd (by exact_mod_cast h1) (by exact_mod_cast h2) ?_
  intro htie
  refine Nat.even_iff.1 (heven ?_)
  have hdq : (0 : ℚ) < d := by exact_mod_cast hd
  rcases htie with h | h
  · have h' : (2 * n : ℚ) = 2 * (d * m) + d := by exact_mod_cast h
    rw [abs_of_nonneg (by linarith)]
    linarith
  · have h' : (2 * (d * m) : ℚ) = 2 * n + d := by exact_mod_cast h
    rw [abs_of_nonpos (by linarith)]
    linarith

end SpokenCalculator

namespace SpokenCalculator.Binary64

/-- The rank nearest to a position: of two equally near, the even one. -/
structure IsNearest (q : ℚ) (r : ℕ) : Prop where
  above : 2 * q ≤ unitsOfRank r + unitsOfRank (r + 1)
  even_above : 2 * q = unitsOfRank r + unitsOfRank (r + 1) → Even r
  below : ∀ s, s + 1 = r → (unitsOfRank s + unitsOfRank r : ℚ) ≤ 2 * q
  even_below : ∀ s, s + 1 = r → (unitsOfRank s + unitsOfRank r : ℚ) = 2 * q → Even r

theorem unitsOfRank_lt_cast {r s : ℕ} (h : r < s) : (unitsOfRank r : ℚ) < unitsOfRank s := by
  exact_mod_cast unitsOfRank_strictMono h

theorem unitsOfRank_le_cast {r s : ℕ} (h : r ≤ s) : (unitsOfRank r : ℚ) ≤ unitsOfRank s := by
  exact_mod_cast unitsOfRank_strictMono.monotone h

theorem unitsOfRank_succ_cast (r : ℕ) :
    (unitsOfRank (r + 1) : ℚ) = unitsOfRank r + 2 ^ exponentOfRank r := by
  rw [unitsOfRank_succ]; push_cast; rfl

/-- Every multiple of a step with at most 53 digits is a magnitude. -/
theorem exists_unitsOfRank_cast {m : ℕ} (hm : m ≤ 2 ^ 53) (e : ℕ) :
    ∃ r, (unitsOfRank r : ℚ) = m * 2 ^ e := by
  obtain ⟨r, hr⟩ := exists_unitsOfRank hm e
  exact ⟨r, by rw [hr]; push_cast; rfl⟩

/-! ### Order -/

theorem IsNearest.mono {p q : ℚ} {r s : ℕ} (hp : IsNearest p r) (hq : IsNearest q s) (h : p ≤ q) :
    r ≤ s := by
  by_contra hlt
  obtain ⟨t, rfl⟩ : ∃ t, t + 1 = r := ⟨r - 1, by omega⟩
  have hst : s ≤ t := by omega
  have h1 := hp.below t rfl
  have h2 := hq.above
  have h3 := unitsOfRank_le_cast hst
  have h4 := unitsOfRank_le_cast (Nat.add_le_add_right hst 1)
  -- both positions are the midpoint between `s` and `s + 1`, and only one of the two is even
  have hts : t = s := by
    by_contra hne
    have := unitsOfRank_lt_cast (r := s) (s := t) (by omega)
    linarith
  subst hts
  have he := hp.even_below t rfl (by linarith)
  have ho := hq.even_above (by linarith)
  exact (Nat.even_add_one.1 he) ho

theorem IsNearest.unique {q : ℚ} {r s : ℕ} (hr : IsNearest q r) (hs : IsNearest q s) : r = s :=
  le_antisymm (hr.mono hs le_rfl) (hs.mono hr le_rfl)

/-- A magnitude is nearest to itself. -/
theorem isNearest_unitsOfRank (r : ℕ) : IsNearest (unitsOfRank r) r where
  above := by have := unitsOfRank_lt_cast (Nat.lt_succ_self r); linarith
  even_above := fun h => by have := unitsOfRank_lt_cast (Nat.lt_succ_self r); linarith
  below := fun s hs => by have := unitsOfRank_lt_cast (r := s) (s := r) (by omega); linarith
  even_below := fun s hs h => by
    have := unitsOfRank_lt_cast (r := s) (s := r) (by omega); linarith

/-- Rounding does not cross a magnitude from below. -/
theorem IsNearest.le_of_le {q : ℚ} {r s : ℕ} (h : IsNearest q r) (hq : q ≤ unitsOfRank s) :
    r ≤ s :=
  h.mono (isNearest_unitsOfRank s) hq

/-- Rounding does not cross a magnitude from above. -/
theorem IsNearest.ge_of_ge {q : ℚ} {r s : ℕ} (h : IsNearest q r) (hq : unitsOfRank s ≤ q) :
    s ≤ r :=
  (isNearest_unitsOfRank s).mono h hq

/-! ### Distance -/

/-- No magnitude is nearer. -/
theorem IsNearest.abs_sub_le {q : ℚ} {r : ℕ} (h : IsNearest q r) (s : ℕ) :
    |q - unitsOfRank r| ≤ |q - unitsOfRank s| := by
  have ha := h.above
  rcases Nat.lt_trichotomy s r with hs | rfl | hs
  · obtain ⟨t, rfl⟩ : ∃ t, t + 1 = r := ⟨r - 1, by omega⟩
    have hb := h.below t rfl
    have hst := unitsOfRank_le_cast (Nat.le_of_lt_succ hs)
    have hsr := unitsOfRank_lt_cast hs
    rw [abs_of_nonneg (a := q - unitsOfRank s) (by linarith)]
    exact abs_le.2 ⟨by linarith, by linarith⟩
  · exact le_rfl
  · have hrs := unitsOfRank_le_cast hs
    have hr := unitsOfRank_lt_cast hs
    rw [abs_sub_comm q (unitsOfRank s), abs_of_nonneg (a := unitsOfRank s - q) (by linarith)]
    exact abs_le.2 ⟨by linarith, by linarith⟩

/-- A position of at most 53 digits before its fraction is rounded by at most half a unit of the
last of these digits. -/
theorem IsNearest.abs_sub_le_half {q : ℚ} {r : ℕ} (h : IsNearest q r) (h0 : 0 ≤ q) {e : ℕ}
    (hq : q ≤ 2 ^ 53 * 2 ^ e) : |q - unitsOfRank r| ≤ 2 ^ e / 2 := by
  have hpos : (0 : ℚ) < 2 ^ e := by positivity
  set m := ⌊q / 2 ^ e + 1 / 2⌋₊ with hm
  have hle : (m : ℚ) ≤ q / 2 ^ e + 1 / 2 := Nat.floor_le (by positivity)
  have hlt : q / 2 ^ e + 1 / 2 < m + 1 := Nat.lt_floor_add_one _
  have hdiv : q / 2 ^ e ≤ 2 ^ 53 := (div_le_iff₀ hpos).2 hq
  have hm53 : m ≤ 2 ^ 53 := by
    have hlt' : (m : ℚ) < ((2 ^ 53 + 1 : ℕ) : ℚ) := by push_cast; linarith
    exact Nat.le_of_lt_succ (by exact_mod_cast hlt')
  obtain ⟨s, hs⟩ := exists_unitsOfRank_cast hm53 e
  have habs : |q / 2 ^ e - m| ≤ 1 / 2 := abs_le.2 ⟨by linarith, by linarith⟩
  calc |q - unitsOfRank r| ≤ |q - unitsOfRank s| := h.abs_sub_le s
    _ = |q / 2 ^ e * 2 ^ e - m * 2 ^ e| := by rw [hs, div_mul_cancel₀ q hpos.ne']
    _ = |q / 2 ^ e - m| * 2 ^ e := by rw [← sub_mul, abs_mul, abs_of_pos hpos]
    _ ≤ 1 / 2 * 2 ^ e := mul_le_mul_of_nonneg_right habs hpos.le
    _ = 2 ^ e / 2 := by ring

/-- Within one step of a number of at most 53 digits, the rounded position is too. -/
theorem IsNearest.abs_sub_le_pow {q : ℚ} {r : ℕ} (h : IsNearest q r) {m e : ℕ} (hm : m < 2 ^ 53)
    (hq : |q - m * 2 ^ e| ≤ 2 ^ e) : |(unitsOfRank r : ℚ) - m * 2 ^ e| ≤ 2 ^ e := by
  obtain ⟨hlo, hhi⟩ := abs_le.1 hq
  obtain ⟨t, ht⟩ := exists_unitsOfRank_cast (m := m + 1) hm e
  push_cast at ht
  have hupper := unitsOfRank_le_cast (h.le_of_le (s := t) (by linarith))
  refine abs_le.2 ⟨?_, by linarith⟩
  cases m with
  | zero =>
    have : (0 : ℚ) ≤ unitsOfRank r := Nat.cast_nonneg _
    have : (0 : ℚ) < 2 ^ e := by positivity
    push_cast
    linarith
  | succ k =>
    obtain ⟨s, hs⟩ := exists_unitsOfRank_cast (m := k) (by omega) e
    push_cast at hlo ⊢
    have hlower := unitsOfRank_le_cast (h.ge_of_ge (s := s) (by linarith))
    linarith

/-- A position within half the smaller of the two steps beside a magnitude. -/
theorem isNearest_of_abs_lt {q : ℚ} {e r : ℕ} (hr : 2 ^ (52 + e) < unitsOfRank r)
    (h : 2 * |q - unitsOfRank r| < 2 ^ e) : IsNearest q r := by
  obtain ⟨hlo, hhi⟩ := abs_lt.1 (show |q - unitsOfRank r| < 2 ^ e / 2 by linarith)
  have habove : (unitsOfRank r : ℚ) + 2 ^ e ≤ unitsOfRank (r + 1) := by
    rw [unitsOfRank_succ_cast]
    have := pow_le_pow_right₀ (one_le_two (α := ℚ)) (le_exponentOfRank hr.le)
    linarith
  have hbelow : ∀ s, s + 1 = r → (unitsOfRank s : ℚ) + 2 ^ e ≤ unitsOfRank r := by
    rintro s rfl
    -- the magnitude before is not below the power of two either
    obtain ⟨t, ht⟩ := exists_unitsOfRank (m := 2 ^ 52) (by decide) e
    rw [← Nat.pow_add] at ht
    have hts : t ≤ s := Nat.le_of_lt_succ (unitsOfRank_strictMono.lt_iff_lt.1 (ht ▸ hr))
    have hs : 2 ^ (52 + e) ≤ unitsOfRank s := ht ▸ unitsOfRank_strictMono.monotone hts
    rw [unitsOfRank_succ_cast]
    have := pow_le_pow_right₀ (one_le_two (α := ℚ)) (le_exponentOfRank hs)
    linarith
  exact
    { above := by linarith
      even_above := fun h => by linarith
      below := fun s hs => by have := hbelow s hs; linarith
      even_below := fun s hs h => by have := hbelow s hs; linarith }

/-- Where the steps on both sides of a magnitude are equal, a position on either side is rounded to
it if one not nearer is. -/
theorem IsNearest.of_abs_sub_le {p q : ℚ} {r : ℕ} (h : IsNearest p (r + 1))
    (he : exponentOfRank r = exponentOfRank (r + 1))
    (hpq : |q - unitsOfRank (r + 1)| ≤ |p - unitsOfRank (r + 1)|) : IsNearest q (r + 1) := by
  have h1 := h.above
  have h2 := h.below r rfl
  have e1 := h.even_above
  have e2 := h.even_below r rfl
  have hlow := unitsOfRank_succ_cast r
  rw [unitsOfRank_succ_cast (r + 1), ← he] at h1 e1
  -- both midpoints are half a step away
  have hp : |p - unitsOfRank (r + 1)| ≤ 2 ^ exponentOfRank r / 2 :=
    abs_le.2 ⟨by linarith, by linarith⟩
  have heven : |p - unitsOfRank (r + 1)| = 2 ^ exponentOfRank r / 2 → Even (r + 1) := by
    intro heq
    rcases abs_choice (p - unitsOfRank (r + 1)) with habs | habs
    · exact e1 (by rw [habs] at heq; linarith)
    · exact e2 (by rw [habs] at heq; linarith)
  obtain ⟨hq1, hq2⟩ := abs_le.1 (hpq.trans hp)
  have htie : |q - unitsOfRank (r + 1)| = 2 ^ exponentOfRank r / 2 → Even (r + 1) := by
    intro heq
    exact heven (le_antisymm hp (heq ▸ hpq))
  have hpos : (0 : ℚ) < 2 ^ exponentOfRank r := by positivity
  refine ⟨?_, ?_, ?_, ?_⟩
  · rw [unitsOfRank_succ_cast (r + 1), ← he]
    linarith
  · intro heq
    rw [unitsOfRank_succ_cast (r + 1), ← he] at heq
    exact htie (by rw [abs_of_nonneg (by linarith)]; linarith)
  · intro s hs
    obtain rfl : s = r := Nat.add_right_cancel hs
    linarith
  · intro s hs heq
    obtain rfl : s = r := Nat.add_right_cancel hs
    exact htie (by rw [abs_of_nonpos (by linarith)]; linarith)

/-! ### Multiples of a step -/

section Grid

variable {q : ℚ} {e m : ℕ}

theorem unitsOfRank_grid_cast (hm : m ≤ 2 ^ 53) (h52 : e = 0 ∨ 2 ^ 52 ≤ m) :
    (unitsOfRank (e * binade + m) : ℚ) = m * 2 ^ e := by
  rw [unitsOfRank_grid hm h52]; push_cast; rfl

theorem even_grid_iff (e m : ℕ) : Even (e * binade + m) ↔ Even m := by
  have hb : Even (e * binade) := Even.mul_left (by decide) e
  rw [Nat.even_add, iff_true_left hb]

/-- The next magnitude is at least one step away. -/
theorem le_unitsOfRank_grid_succ (hm : m ≤ 2 ^ 53) (h52 : e = 0 ∨ 2 ^ 52 ≤ m) :
    ((m : ℚ) + 1) * 2 ^ e ≤ unitsOfRank (e * binade + m + 1) := by
  have hexp : e ≤ exponentOfRank (e * binade + m) := by
    rcases h52 with rfl | h
    · exact Nat.zero_le _
    · refine le_exponentOfRank ?_
      rw [unitsOfRank_grid hm (Or.inr h), Nat.pow_add]
      exact Nat.mul_le_mul_right _ h
  have := pow_le_pow_right₀ (one_le_two (α := ℚ)) hexp
  rw [unitsOfRank_succ_cast, unitsOfRank_grid_cast hm h52]
  linarith

/-- The magnitude before is one step away, unless a block begins here. -/
theorem unitsOfRank_grid_pred (hm : m ≤ 2 ^ 53) (h52 : e = 0 ∨ 2 ^ 52 < m) {s : ℕ}
    (hs : s + 1 = e * binade + m) : (unitsOfRank s : ℚ) = (m - 1) * 2 ^ e := by
  have hm0 : m ≠ 0 := by
    rintro rfl
    rcases h52 with rfl | h
    · simp at hs
    · exact absurd h (by decide)
  obtain ⟨k, rfl⟩ : ∃ k, m = k + 1 := ⟨m - 1, by omega⟩
  have hsk : s = e * binade + k := by omega
  rw [hsk, unitsOfRank_grid_cast (by omega) (by omega)]
  push_cast
  ring

/-- A position with 53 digits before the step is rounded to a multiple with as many, or to the first
one beyond them. -/
theorem digits_of_grid (hlt : q < 2 ^ 53 * 2 ^ e) (hge : e ≠ 0 → 2 ^ 52 * 2 ^ e ≤ q)
    (h1 : 2 * q ≤ (2 * m + 1) * 2 ^ e) (h2 : (2 * m - 1) * 2 ^ e ≤ 2 * q) :
    m ≤ 2 ^ 53 ∧ (e = 0 ∨ 2 ^ 52 ≤ m) := by
  have hpos : (0 : ℚ) < 2 ^ e := by positivity
  constructor
  · have h : (2 * m - 1 : ℚ) < 2 * 2 ^ 53 := lt_of_mul_lt_mul_right (by linarith) hpos.le
    have h' : 2 * m < 2 * 2 ^ 53 + 1 := by
      exact_mod_cast (by push_cast; linarith : ((2 * m : ℕ) : ℚ) < ((2 * 2 ^ 53 + 1 : ℕ) : ℚ))
    omega
  · refine or_iff_not_imp_left.2 fun h0 => ?_
    have h : (2 * 2 ^ 52 : ℚ) ≤ 2 * m + 1 := le_of_mul_le_mul_right (by linarith [hge h0]) hpos
    have h' : 2 * 2 ^ 52 ≤ 2 * m + 1 := by
      exact_mod_cast (by push_cast; linarith : ((2 * 2 ^ 52 : ℕ) : ℚ) ≤ ((2 * m + 1 : ℕ) : ℚ))
    omega

/-- A position rounded to the multiples of a step that has 53 digits there is rounded to the nearest
magnitude. -/
theorem isNearest_grid (hlt : q < 2 ^ 53 * 2 ^ e) (hge : e ≠ 0 → 2 ^ 52 * 2 ^ e ≤ q)
    (h1 : 2 * q ≤ (2 * m + 1) * 2 ^ e) (h2 : (2 * m - 1) * 2 ^ e ≤ 2 * q)
    (heven : 2 * q = (2 * m + 1) * 2 ^ e ∨ (2 * m - 1) * 2 ^ e = 2 * q → Even m) :
    IsNearest q (e * binade + m) := by
  obtain ⟨hm, h52⟩ := digits_of_grid hlt hge h1 h2
  have hr := unitsOfRank_grid_cast hm h52
  have habove := le_unitsOfRank_grid_succ hm h52
  have hbelow : ∀ s, s + 1 = e * binade + m →
      (unitsOfRank s : ℚ) = (m - 1) * 2 ^ e ∨ (unitsOfRank s + m * 2 ^ e : ℚ) < 2 * q := by
    intro s hs
    by_cases hfirst : e ≠ 0 ∧ m = 2 ^ 52
    · -- the magnitude begins a block, and the position is not below it
      right
      have hsr := unitsOfRank_lt_cast (r := s) (s := e * binade + m) (by omega)
      have hq := hge hfirst.1
      rw [hr, hfirst.2] at hsr
      rw [hfirst.2]
      push_cast at hsr ⊢
      linarith
    · exact Or.inl (unitsOfRank_grid_pred hm (by omega) hs)
  refine ⟨?_, ?_, ?_, ?_⟩
  · rw [hr]
    linarith
  · intro heq
    rw [hr] at heq
    exact (even_grid_iff e m).2 (heven (Or.inl (by linarith)))
  · intro s hs
    rw [hr]
    rcases hbelow s hs with h | h <;> linarith
  · intro s hs heq
    rw [hr] at heq
    rcases hbelow s hs with h | h
    · exact (even_grid_iff e m).2 (heven (Or.inr (by linarith)))
    · linarith

end Grid

/-! ### The rounding of a quotient -/

/-- The exponent of the step is large enough for the quotient to have at most 53 digits. -/
theorem lt_mul_pow_exponentNear (n : ℕ) {d : ℕ} (hd : 0 < d) :
    n < 2 ^ 53 * (d * 2 ^ exponentNear n d) := by
  have hlog : n / d < 2 ^ (53 + exponentNear n d) := by
    refine Nat.lt_log2_self.trans_le (Nat.pow_le_pow_right (by decide) ?_)
    unfold exponentNear
    omega
  calc n < 2 ^ (53 + exponentNear n d) * d := (Nat.div_lt_iff_lt_mul hd).1 hlog
    _ = 2 ^ 53 * (d * 2 ^ exponentNear n d) := by rw [Nat.pow_add]; ring

/-- The exponent of the step is no larger than needed for that. -/
theorem mul_pow_exponentNear_le {n d : ℕ} (h : exponentNear n d ≠ 0) :
    2 ^ 52 * (d * 2 ^ exponentNear n d) ≤ n := by
  have hne : n / d ≠ 0 := by
    intro h0
    exact h (by simp [exponentNear, h0])
  have hlog : 2 ^ (52 + exponentNear n d) ≤ n / d := by
    have he : 52 + exponentNear n d = (n / d).log2 := by unfold exponentNear at h ⊢; omega
    rw [he]
    exact Nat.log2_self_le hne
  calc 2 ^ 52 * (d * 2 ^ exponentNear n d) = 2 ^ (52 + exponentNear n d) * d := by
        rw [Nat.pow_add]; ring
    _ ≤ n / d * d := Nat.mul_le_mul_right d hlog
    _ ≤ n := Nat.div_mul_le_self n d

theorem isNearest_nearestRank (n : ℕ) {d : ℕ} (hd : 0 < d) :
    IsNearest (n / d) (nearestRank n d) := by
  have hlt := lt_mul_pow_exponentNear n hd
  have hge := mul_pow_exponentNear_le (n := n) (d := d)
  unfold nearestRank
  show IsNearest _ (exponentNear n d * binade + roundHalfEven n (d * 2 ^ exponentNear n d))
  generalize exponentNear n d = e at *
  obtain ⟨h1, h2, h3⟩ := roundHalfEven_spec n (Nat.mul_pos hd (Nat.two_pow_pos e))
  generalize roundHalfEven n (d * 2 ^ e) = m at *
  have hdq : (0 : ℚ) < d := by exact_mod_cast hd
  obtain ⟨q, hq⟩ : ∃ q : ℚ, (n : ℚ) = q * d := ⟨n / d, (div_mul_cancel₀ _ hdq.ne').symm⟩
  rw [hq, mul_div_cancel_right₀ _ hdq.ne']
  refine isNearest_grid ?_ ?_ ?_ ?_ ?_
  · have h : (n : ℚ) < 2 ^ 53 * (d * 2 ^ e) := by exact_mod_cast hlt
    exact lt_of_mul_lt_mul_right (a := (d : ℚ)) (by linarith) hdq.le
  · intro he
    have h : (2 ^ 52 * (d * 2 ^ e) : ℚ) ≤ n := by exact_mod_cast hge he
    exact le_of_mul_le_mul_right (a := (d : ℚ)) (by linarith) hdq
  · have h : (2 * n : ℚ) ≤ 2 * (d * 2 ^ e * m) + d * 2 ^ e := by exact_mod_cast h1
    exact le_of_mul_le_mul_right (a := (d : ℚ)) (by linarith) hdq
  · have h : (2 * (d * 2 ^ e * m) : ℚ) ≤ 2 * n + d * 2 ^ e := by exact_mod_cast h2
    exact le_of_mul_le_mul_right (a := (d : ℚ)) (by linarith) hdq
  · intro htie
    refine Nat.even_iff.2 (h3 (htie.imp (fun h => ?_) fun h => ?_))
    · have h' : (2 * n : ℚ) = 2 * (d * 2 ^ e * m) + d * 2 ^ e := by
        rw [hq]
        linear_combination d * h
      exact_mod_cast h'
    · have h' : (2 * (d * 2 ^ e * m) : ℚ) = 2 * n + d * 2 ^ e := by
        rw [hq]
        linear_combination d * h
      exact_mod_cast h'

/-- The nearest rank to a quotient, however the quotient is written. -/
theorem nearestRank_eq {n d r : ℕ} {q : ℚ} (hd : 0 < d) (hq : (n : ℚ) / d = q)
    (h : IsNearest q r) : nearestRank n d = r :=
  (isNearest_nearestRank n hd).unique (hq ▸ h)

@[simp] theorem nearestRank_unitsOfRank (r : ℕ) : nearestRank (unitsOfRank r) 1 = r :=
  nearestRank_eq Nat.one_pos (by simp) (isNearest_unitsOfRank r)

end SpokenCalculator.Binary64
