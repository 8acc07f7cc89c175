import Mathlib.Data.List.Infix
import SpokenCalculator.Proofs.History.Log

/-!
# What a log holds after any use of it

Loading cuts the entries to the capacity, and every addition drops at most one.  Together they
leave what a single cut of all entries would: those that were added since the log was last cleared,
the most recent first, and behind them the loaded ones unless it was ever cleared.

* `reference`: this list, told from the changes alone;
* `Use`, `Shared`: changes that are saved, readings, and readers who alter what they got;
* `changeAll_ofLoaded`: the entries after any changes;
* `entries_useAll`: the entries, the readings and the saves of any use, whether the saves fail or
  not.
-/

namespace SpokenCalculator.History

/-! ### The reference -/

/-- The entry of an addition. -/
def Change.entry? : Change → Option Codes
  | .add entry => some entry
  | .clear => none

/-- The entries that were added since the last clearing, the most recent first. -/
def added (cs : List Change) : List Codes :=
  (cs.reverse.takeWhile (· ≠ .clear)).filterMap Change.entry?

/-- The first entries, up to the capacity, of those added since the last clearing and, if there was
none, the loaded ones. -/
def reference (capacity : ℕ) (loaded : List Codes) (cs : List Change) : List Codes :=
  (added cs ++ if .clear ∈ cs then [] else loaded).take capacity

@[simp] theorem added_append_add (cs : List Change) (e : Codes) :
    added (cs ++ [.add e]) = e :: added cs := by
  rw [added, List.reverse_concat, List.takeWhile_cons_of_pos (by simp), List.filterMap_cons]
  rfl

@[simp] theorem added_append_clear (cs : List Change) : added (cs ++ [.clear]) = [] := by
  rw [added, List.reverse_concat, List.takeWhile_cons_of_neg (by decide)]
  rfl

/-! ### Changes -/

/-- One entry in front of as many as there is room for pushes out the one that is too many. -/
theorem bounded_cons_take (capacity : ℕ) (e : Codes) (es : List Codes) :
    bounded capacity (e :: es.take capacity) = (e :: es).take capacity := by
  rw [← List.take_succ_cons]
  unfold bounded
  split_ifs with hlong
  · have hlength : ((e :: es).take (capacity + 1)).length = capacity + 1 := by
      rw [List.length_take] at hlong ⊢
      omega
    rw [List.dropLast_eq_take, hlength, List.take_take, Nat.add_sub_cancel,
      Nat.min_eq_left (Nat.le_succ capacity)]
  · rw [List.length_take] at hlong
    rw [List.take_of_length_le (i := capacity) (by omega),
      List.take_of_length_le (i := capacity + 1) (by omega)]

/-- **After any changes a log holds what the reference says.** -/
theorem changeAll_ofLoaded (capacity : ℕ) (loaded : List Codes) (cs : List Change) :
    cs.foldl Log.change (.ofLoaded capacity loaded) =
      ⟨capacity, reference capacity loaded cs⟩ := by
  induction cs using List.reverseRecOn with
  | nil =>
    rw [List.foldl_nil, Log.ofLoaded, within_of_nonneg (Int.natCast_nonneg capacity)]
    rfl
  | append_singleton cs c ih =>
    rw [List.foldl_concat, ih]
    cases c with
    | add e =>
      have hclear : Change.clear ∈ cs ++ [.add e] ↔ .clear ∈ cs := by simp
      simp only [Log.change, reference, bounded_cons_take, added_append_add, hclear,
        List.cons_append]
    | clear =>
      have hclear : Change.clear ∈ cs ++ [.clear] := by simp
      simp only [Log.change, reference, added_append_clear, if_pos hclear, List.append_nil,
        List.take_nil]

example : ([.add [.char '1'], .clear, .add [.char '2'], .add [.char '3'], .add [.char '4']] :
    List Change).foldl Log.change (.ofLoaded 2 [[.char '0']]) =
      ⟨2, [[.char '4'], [.char '3']]⟩ := by
  decide

/-! ### Uses -/

/-- What is done with a log: a change that is saved, a reading, or an alteration of a list that some
reader holds. -/
inductive Use
  | change (c : Change)
  | read
  | alter (reader : ℕ) (es : List Codes)

/-- The change of a use. -/
def Use.change? : Use → Option Change
  | .change c => some c
  | _ => none

/-- The changes among uses. -/
def changesOf (us : List Use) : List Change := us.filterMap Use.change?

theorem changesOf_append_change (us : List Use) (c : Change) :
    changesOf (us ++ [.change c]) = changesOf us ++ [c] := by
  simp [changesOf, Use.change?]

theorem changesOf_append_read (us : List Use) : changesOf (us ++ [.read]) = changesOf us := by
  simp [changesOf, Use.change?]

theorem changesOf_append_alter (us : List Use) (reader : ℕ) (es : List Codes) :
    changesOf (us ++ [.alter reader es]) = changesOf us := by
  simp [changesOf, Use.change?]

/-- A log, the place that it is kept in, and the lists that its readers hold. -/
structure Shared (σ : Type) where
  log : Log
  place : σ
  held : List (List Codes)

namespace Shared

variable {σ : Type} (shelf : Shelf σ)

/-- A log that begins with loaded entries and has no readers yet. -/
def ofLoaded (capacity : ℤ) (loaded : List Codes) (place : σ) : Shared σ :=
  ⟨.ofLoaded capacity loaded, place, []⟩

/-- The log and all around it after a use. -/
def use (s : Shared σ) : Use → Shared σ
  | .change c =>
    let (log, attempt) := keep shelf c s.log s.place
    { s with log := log, place := attempt.state }
  | .read => { s with held := s.held ++ [s.log.entries] }
  | .alter reader es => { s with held := s.held.set reader es }

/-- The log and all around it after uses in order. -/
def useAll (s : Shared σ) (us : List Use) : Shared σ := us.foldl (use shelf) s

/-- A place after entries were saved in it, one list after another, whether this failed or not. -/
def saveAll (place : σ) (saves : List (List Codes)) : σ :=
  saves.foldl (fun place entries => (shelf entries place).state) place

/-- Only changes reach the log. -/
theorem log_useAll (s : Shared σ) (us : List Use) :
    (s.useAll shelf us).log = (changesOf us).foldl Log.change s.log := by
  induction us generalizing s with
  | nil => rfl
  | cons u us ih =>
    cases u with
    | change c => exact ih _
    | read => exact ih _
    | alter reader es => exact ih _

/-- The lists up to each element, and one more for another element. -/
theorem tail_inits_concat {α : Type} (l : List α) (a : α) :
    (l ++ [a]).inits.tail = l.inits.tail ++ [l ++ [a]] := by
  cases l <;> simp

/-- Every change, and nothing else, saves the entries that there are after it. -/
theorem place_useAll (capacity : ℕ) (loaded : List Codes) (place : σ) (us : List Use) :
    ((ofLoaded capacity loaded place).useAll shelf us).place =
      saveAll shelf place ((changesOf us).inits.tail.map (reference capacity loaded)) := by
  induction us using List.reverseRecOn with
  | nil => rfl
  | append_singleton us u ih =>
    have hlast : (ofLoaded capacity loaded place).useAll shelf (us ++ [u]) =
        ((ofLoaded capacity loaded place).useAll shelf us).use shelf u := List.foldl_concat ..
    rw [hlast]
    cases u with
    | change c =>
      have hlog : (((ofLoaded capacity loaded place).useAll shelf us).log.change c).entries =
          reference capacity loaded (changesOf us ++ [c]) := by
        have hafter := changeAll_ofLoaded capacity loaded (changesOf us ++ [c])
        rw [List.foldl_concat] at hafter
        rw [log_useAll]
        exact congrArg Log.entries hafter
      rw [changesOf_append_change, tail_inits_concat, List.map_append, saveAll, List.foldl_append,
        List.map_singleton, ← hlog]
      exact congrArg (fun place => (shelf _ place).state) ih
    | read =>
      rw [changesOf_append_read]
      exact ih
    | alter reader es =>
      rw [changesOf_append_alter]
      exact ih

/-- **However a log is used, it holds what the reference says**, and no more entries than its
capacity; this is what a reader gets, whatever became of the lists that were read before, and what
every change saves, whether the saves before it failed or not. -/
theorem entries_useAll (capacity : ℕ) (loaded : List Codes) (place : σ) (us : List Use) :
    ((ofLoaded capacity loaded place).useAll shelf us).log.entries =
        reference capacity loaded (changesOf us) ∧
      ((ofLoaded capacity loaded place).useAll shelf us).log.entries.length ≤ capacity ∧
      ((ofLoaded capacity loaded place).useAll shelf (us ++ [.read])).held.getLast? =
        some (reference capacity loaded (changesOf us)) ∧
      ((ofLoaded capacity loaded place).useAll shelf us).place =
        saveAll shelf place ((changesOf us).inits.tail.map (reference capacity loaded)) := by
  have hentries : ((ofLoaded capacity loaded place).useAll shelf us).log.entries =
      reference capacity loaded (changesOf us) := by
    rw [log_useAll]
    exact congrArg Log.entries (changeAll_ofLoaded capacity loaded (changesOf us))
  refine ⟨hentries, ?_, ?_, place_useAll shelf capacity loaded place us⟩
  · rw [hentries]
    exact List.length_take_le ..
  · rw [useAll, List.foldl_concat, use, List.getLast?_concat]
    exact congrArg some hentries

end Shared

end SpokenCalculator.History
