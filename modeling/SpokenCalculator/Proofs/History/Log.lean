import Mathlib.Tactic.Common
import SpokenCalculator.Proofs.History.Codec

/-!
# Entries within a capacity

* `within_of_length_le`, `length_within_le`: what is loaded;
* `length_bounded_le`, `exists_bounded_eq_cons`: what is kept after an addition;
* `Separable.of_isPrefix`, `Separable.cons`: both leave the entries separable.
-/

namespace SpokenCalculator.History

variable {capacity : ℤ} {e : Codes} {es fs : List Codes}

/-! ### Their number -/

theorem within_of_nonneg (h : 0 ≤ capacity) (es : List Codes) :
    within capacity es = es.take capacity.toNat := by
  rw [within, if_pos h]

theorem within_of_length_le (h : es.length ≤ capacity) : within capacity es = es := by
  rw [within_of_nonneg (by omega), List.take_of_length_le (by omega)]

theorem length_within_le (h : 0 ≤ capacity) (es : List Codes) :
    (within capacity es).length ≤ capacity := by
  rw [within_of_nonneg h, List.length_take]
  omega

/-- One entry more than the capacity is dropped. -/
theorem length_bounded_le (h : es.length ≤ capacity) :
    (bounded capacity (e :: es)).length ≤ capacity := by
  unfold bounded
  split_ifs with hlong
  · rw [List.length_dropLast, List.length_cons]
    omega
  · exact Int.not_lt.1 hlong

/-- Where there is room for an entry, the newest is kept. -/
theorem exists_bounded_eq_cons (h : 1 ≤ capacity) (e : Codes) (es : List Codes) :
    ∃ rest, bounded capacity (e :: es) = e :: rest := by
  unfold bounded
  split_ifs with hlong
  · refine ⟨es.dropLast, List.dropLast_cons_of_ne_nil ?_⟩
    rintro rfl
    rw [List.length_singleton] at hlong
    omega
  · exact ⟨es, rfl⟩

/-! ### What is kept is part of what there was -/

theorem within_isPrefix (capacity : ℤ) (es : List Codes) : within capacity es <+: es :=
  List.take_prefix _ es

theorem bounded_isPrefix (capacity : ℤ) (es : List Codes) : bounded capacity es <+: es := by
  unfold bounded
  split_ifs
  · exact List.dropLast_prefix es
  · exact List.prefix_rfl

theorem Separable.of_isPrefix (h : Separable fs) (hbegins : es <+: fs) : Separable es := by
  obtain ⟨rest, rfl⟩ := hbegins
  intro e he
  cases rest with
  | nil =>
    rw [List.append_nil] at h
    exact h e he
  | cons a rest =>
    refine h e ?_
    rw [List.dropLast_append_of_ne_nil (List.cons_ne_nil a rest)]
    exact List.mem_append_left _ (List.mem_of_mem_dropLast he)

theorem Separable.cons (h : Separable es) (he : Closed e) : Separable (e :: es) := by
  intro a ha
  cases es with
  | nil => cases ha
  | cons b es =>
    rcases List.mem_cons.1 ha with rfl | ha
    · exact he
    · exact h a ha

end SpokenCalculator.History
