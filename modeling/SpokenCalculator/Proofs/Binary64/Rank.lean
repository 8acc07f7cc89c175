import Mathlib.Data.Nat.Prime.Basic
import Mathlib.Tactic.Linarith
import Mathlib.Tactic.Ring
import SpokenCalculator.Binary64.Rounding

/-!
# The sequence of magnitudes

A rank is an exponent, which counts blocks of `2 ^ 52` ranks, and a significand below `2 ^ 53`; the
magnitude is the significand times a power of two.  Everything about the sequence follows from this
and from the fact that the next magnitude is one step of the exponent away.

* `significand`: the rank without its exponent;
* `unitsOfRank_eq`, `unitsOfRank_grid`: a magnitude as significand and power, in both directions;
* `unitsOfRank_succ`, `unitsOfRank_strictMono`: the next magnitude, and the order;
* `exists_unitsOfRank`: every multiple of a step with at most 53 digits is a magnitude;
* `lt_ranks_iff`, `lt_ranks_of_le`: the finite ranks are those of magnitudes below `2 ^ 1024`.
-/

namespace SpokenCalculator.Binary64

theorem binade_eq : binade = 2 ^ 52 := rfl

/-- The digits of the magnitude of a rank. -/
def significand (r : ℕ) : ℕ := r - exponentOfRank r * binade

theorem rank_eq (r : ℕ) : exponentOfRank r * binade + significand r = r := by
  have h := Nat.div_add_mod r binade
  unfold significand exponentOfRank
  rcases Nat.eq_zero_or_pos (r / binade) with h0 | h0
  · rw [h0]; simp
  · obtain ⟨k, hk⟩ := Nat.exists_eq_add_of_lt h0
    rw [hk] at h ⊢
    have : binade * (0 + k + 1) = (0 + k + 1 - 1) * binade + binade := by
      rw [Nat.add_sub_cancel]; ring
    omega

theorem significand_lt (r : ℕ) : significand r < 2 ^ 53 := by
  have h := rank_eq r
  have hd := Nat.div_add_mod r binade
  have hm : r % binade < binade := Nat.mod_lt _ (by decide)
  rw [binade_eq] at *
  unfold exponentOfRank at h
  rw [binade_eq] at h
  omega

/-- Only the first block has significands below `2 ^ 52`. -/
theorem le_significand {r : ℕ} (h : exponentOfRank r ≠ 0) : 2 ^ 52 ≤ significand r := by
  have hr := rank_eq r
  have hd := Nat.div_add_mod r binade
  unfold exponentOfRank at h hr
  rw [binade_eq] at *
  omega

theorem unitsOfRank_eq (r : ℕ) : unitsOfRank r = significand r * 2 ^ exponentOfRank r := by
  have hr := rank_eq r
  have hd := Nat.div_add_mod r binade
  unfold unitsOfRank
  split_ifs with h
  · have he : exponentOfRank r = 0 := by rw [exponentOfRank, Nat.div_eq_of_lt h]
    rw [he] at hr ⊢
    omega
  · have hq : significand r = binade + r % binade := by
      have hpos : 0 < r / binade := Nat.div_pos (Nat.le_of_not_lt h) (by decide)
      unfold exponentOfRank at hr
      rw [binade_eq] at *
      omega
    rw [hq]
    rfl

/-- A multiple of a power of two is the magnitude of the rank with that exponent.  At the end of a
block it is also the first magnitude of the next one. -/
theorem unitsOfRank_grid {e q : ℕ} (hq : q ≤ 2 ^ 53) (he : e = 0 ∨ 2 ^ 52 ≤ q) :
    unitsOfRank (e * binade + q) = q * 2 ^ e := by
  have hb : binade = 2 ^ 52 := binade_eq
  have hr := rank_eq (e * binade + q)
  rw [unitsOfRank_eq]
  rcases Nat.lt_or_ge q (2 ^ 53) with hlt | hge
  · have hx : exponentOfRank (e * binade + q) = e := by
      unfold exponentOfRank
      rw [Nat.add_comm, Nat.add_mul_div_right _ _ (by decide), hb]
      omega
    rw [hx] at hr ⊢
    rw [Nat.add_left_cancel hr]
  · have hq' : q = 2 ^ 53 := le_antisymm hq hge
    have hx : exponentOfRank (e * binade + q) = e + 1 := by
      unfold exponentOfRank
      rw [Nat.add_comm, Nat.add_mul_div_right _ _ (by decide), hq', hb]
      omega
    have hs : significand (e * binade + q) = 2 ^ 52 := by
      rw [hx, Nat.add_mul, Nat.one_mul] at hr
      omega
    rw [hx, hs, hq']
    ring

/-- The next magnitude. -/
theorem unitsOfRank_succ (r : ℕ) : unitsOfRank (r + 1) = unitsOfRank r + 2 ^ exponentOfRank r := by
  have he : exponentOfRank r = 0 ∨ 2 ^ 52 ≤ significand r + 1 := by
    by_cases h : exponentOfRank r = 0
    · exact Or.inl h
    · exact Or.inr (Nat.le_succ_of_le (le_significand h))
  have hr : exponentOfRank r * binade + (significand r + 1) = r + 1 := by
    rw [← Nat.add_assoc, rank_eq]
  rw [← hr, unitsOfRank_grid (q := significand r + 1) (significand_lt r) he, unitsOfRank_eq r]
  ring

theorem unitsOfRank_strictMono : StrictMono unitsOfRank :=
  strictMono_nat_of_lt_succ fun r => by
    rw [unitsOfRank_succ]
    exact Nat.lt_add_of_pos_right (Nat.two_pow_pos _)

@[simp] theorem unitsOfRank_zero : unitsOfRank 0 = 0 := by decide

/-- A magnitude of some size has at least the step of that size. -/
theorem le_exponentOfRank {e r : ℕ} (h : 2 ^ (52 + e) ≤ unitsOfRank r) : e ≤ exponentOfRank r := by
  by_contra hlt
  have hs := significand_lt r
  have hp : 2 ^ exponentOfRank r * 2 ^ 53 ≤ 2 ^ (52 + e) := by
    rw [← Nat.pow_add]
    exact Nat.pow_le_pow_right (by decide) (by omega)
  rw [unitsOfRank_eq, Nat.mul_comm] at h
  have := Nat.mul_lt_mul_of_pos_left hs (Nat.two_pow_pos (exponentOfRank r))
  omega

/-- Every number of at most 53 binary digits is a magnitude, with any power of two. -/
theorem exists_unitsOfRank {m : ℕ} (hm : m ≤ 2 ^ 53) (e : ℕ) : ∃ r, unitsOfRank r = m * 2 ^ e := by
  induction e generalizing m with
  | zero => exact ⟨0 * binade + m, unitsOfRank_grid hm (Or.inl rfl)⟩
  | succ e ih =>
    rcases Nat.lt_or_ge m (2 ^ 52) with h | h
    · -- a short number takes its missing digits from the power
      obtain ⟨r, hr⟩ := ih (m := 2 * m) (by omega)
      exact ⟨r, by rw [hr]; ring⟩
    · exact ⟨(e + 1) * binade + m, unitsOfRank_grid hm (Or.inr h)⟩

theorem unit_eq : unit = 2 ^ 1074 := by unfold unit; generalize 1074 = k; rfl

theorem two_pow_lt_unit {k : ℕ} (h : k < 1074) : 2 ^ k < unit := by
  unfold unit
  generalize 1074 = m at *
  exact Nat.pow_lt_pow_right (by decide) h

theorem two_dvd_unit : 2 ∣ unit := by
  have h : 1074 ≠ 0 := by decide
  unfold unit
  generalize 1074 = m at *
  exact dvd_pow_self 2 h

theorem unit_pos : 0 < unit := by unfold unit; generalize 1074 = k; exact Nat.two_pow_pos k

/-- A magnitude that has 53 digits before some binary place is a multiple of it. -/
theorem dvd_unitsOfRank {g r : ℕ} (hg : g ∣ unit) (h : 2 ^ 52 * g ≤ unitsOfRank r) :
    g ∣ unitsOfRank r := by
  rw [unit_eq] at hg
  obtain ⟨e, -, rfl⟩ := (Nat.dvd_prime_pow Nat.prime_two).1 hg
  rw [← Nat.pow_add] at h
  rw [unitsOfRank_eq]
  exact Dvd.dvd.mul_left (Nat.pow_dvd_pow 2 (le_exponentOfRank h)) _

/-- The magnitude that follows the finite ones. -/
theorem unitsOfRank_ranks : unitsOfRank ranks = 2 ^ 1024 * unit := by
  have h : ranks = 2046 * binade + 2 ^ 52 := rfl
  have hexp : 52 + 2046 = 1024 + 1074 := rfl
  rw [h, unitsOfRank_grid (by decide) (Or.inr le_rfl), unit_eq, ← Nat.pow_add, ← Nat.pow_add, hexp]

theorem lt_ranks_iff {r : ℕ} : r < ranks ↔ unitsOfRank r < 2 ^ 1024 * unit := by
  rw [← unitsOfRank_ranks, unitsOfRank_strictMono.lt_iff_lt]

/-- A magnitude of at most 53 digits before its fraction is finite. -/
theorem lt_ranks_of_le {r m : ℕ} (hm : m ≤ 2 ^ 53) (hr : unitsOfRank r ≤ m * unit) : r < ranks := by
  rw [lt_ranks_iff]
  have hexp : 53 < 1024 := by decide
  generalize 1024 = k at *
  exact hr.trans_lt (Nat.mul_lt_mul_of_pos_right
    (hm.trans_lt (Nat.pow_lt_pow_right (by decide) hexp)) unit_pos)

end SpokenCalculator.Binary64
