import SpokenCalculator.Proofs.Expression.Result
import SpokenCalculator.Proofs.Expression.Tokens

/-!
# The stack machine does not break down

Infinite numerals and their opposites go to the stack unchecked, so its numbers need not be finite.
But none of them is not-a-number: the result of an operation is pushed only if it is finite.  This
is all that the machine needs, as rounding at the end refuses what is infinite.

* `Halt.Sound`: a computation that ends in a value of a kind or in a fault;
* `sound_step`, `sound_foldlM_step`: one token, and a run, on a stack of numbers;
* `compute_ne_breakdown_and_evaluate_finite`: expressions have finite values or faults.
-/

namespace SpokenCalculator
open Binary64

/-- A computation ends in a value of a kind or in a fault, and in no breakdown. -/
def Halt.Sound {α : Type} (P : α → Prop) : Except Halt α → Prop
  | .ok a => P a
  | .error (.fault _) => True
  | .error (.breakdown _) => False

open Halt (Sound)

theorem Halt.Sound.bind {α β : Type} {P : α → Prop} {Q : β → Prop} {x : Except Halt α}
    {f : α → Except Halt β} (hx : Sound P x) (hf : ∀ a, P a → Sound Q (f a)) :
    Sound Q (x >>= f) := by
  rcases x with (_ | _) | a
  · trivial
  · exact hx.elim
  · exact hf a hx

theorem Halt.Sound.map {α β : Type} {P : α → Prop} {Q : β → Prop} {x : Except Halt α} {f : α → β}
    (hx : Sound P x) (hf : ∀ a, P a → Q (f a)) : Sound Q (x.map f) := by
  rcases x with (_ | _) | a
  · trivial
  · exact hx.elim
  · exact hf a hx

theorem Halt.Sound.ne_breakdown {α : Type} {P : α → Prop} {x : Except Halt α} (hx : Sound P x)
    (b : Breakdown) : x ≠ .error (.breakdown b) := by
  rintro rfl
  exact hx

/-! ### Numbers on the stack -/

theorem ofDecimal_ne_nan (negative : Bool) (x : Decimal) : ofDecimal negative x ≠ .nan := by
  unfold ofDecimal
  split
  · exact Binary64.noConfusion
  · split
    · exact Binary64.noConfusion
    · exact ofUnits_ne_nan _ _ _

theorem ofPlain_ne_nan (t : Text) : ofPlain t ≠ .nan := ofDecimal_ne_nan false _

theorem sound_combine (o : Operator) (a b : Binary64) :
    Sound (· ≠ .nan) (combine (.operator o) a b) := by
  unfold combine
  split
  · trivial
  · split
    · rename_i h
      exact ne_nan_of_isFinite h
    · trivial

theorem sound_applyTo (o : Operator) {stack : List Binary64} (h : ∀ x ∈ stack, x ≠ .nan) :
    Sound (∀ x ∈ ·, x ≠ .nan) (applyTo (.operator o) stack) := by
  match stack with
  | [] => trivial
  | [b] =>
    rw [applyTo]
    split
    · exact List.forall_mem_singleton.2 (neg_ne_nan (h b (List.mem_singleton_self b)))
    · trivial
  | b :: a :: stack =>
    refine (sound_combine o a b).map fun v hv => List.forall_mem_cons.2 ⟨hv, fun x hx => ?_⟩
    exact h x (List.mem_cons_of_mem _ (List.mem_cons_of_mem _ hx))

/-- One token of an expression leaves numbers on the stack. -/
theorem sound_step {t : Token} (ht : t.IsProper) {stack : List Binary64}
    (h : ∀ x ∈ stack, x ≠ .nan) : Sound (∀ x ∈ ·, x ≠ .nan) (step stack t) := by
  cases ht with
  | numeral n =>
    rw [step]
    split
    · exact List.forall_mem_cons.2 ⟨ofPlain_ne_nan n, h⟩
    · trivial
  | operator o => exact sound_applyTo o h

/-- A run leaves numbers on the stack. -/
theorem sound_foldlM_step {ts : List Token} (hts : ∀ t ∈ ts, t.IsProper) {stack : List Binary64}
    (h : ∀ x ∈ stack, x ≠ .nan) : Sound (∀ x ∈ ·, x ≠ .nan) (ts.foldlM step stack) := by
  induction ts generalizing stack with
  | nil => exact h
  | cons t ts ih =>
    rw [List.foldlM_cons]
    exact (sound_step (hts t (List.mem_cons_self ..)) h).bind fun stack' h' =>
      ih (fun t ht => hts t (List.mem_cons_of_mem _ ht)) h'

/-! ### Expressions -/

/-- A result: finite, and not a negative zero. -/
def IsResult (v : Binary64) : Prop := v.isFinite = true ∧ v ≠ signedZero true

theorem isResult_zero : IsResult .zero := ⟨rfl, by decide⟩

theorem sound_roundPlaces {x : Binary64} (hx : x ≠ .nan) : Sound IsResult (roundPlaces x) := by
  rcases h : roundPlaces x with (f | b) | v
  · trivial
  · exact roundPlaces_ne_breakdown hx b h
  · exact ⟨isFinite_of_roundPlaces h, ne_negative_zero_of_roundPlaces h⟩

theorem sound_finish {stack : List Binary64} (h : ∀ x ∈ stack, x ≠ .nan) :
    Sound IsResult (finish stack) := by
  cases stack with
  | nil => exact isResult_zero
  | cons v stack => exact sound_roundPlaces (h v (List.mem_cons_self ..))

theorem stackOrder?_tokens (e : Text) : stackOrder? (tokens e) = some (stackOrder (tokens e)) := by
  refine if_neg ?_
  rw [List.any_eq_true]
  rintro ⟨t, ht, hempty⟩
  exact Bool.false_ne_true ((mem_tokens ht).isEmpty_eq_false.symm.trans hempty)

theorem compute_eq (e : Text) : compute e = run (stackOrder (tokens e)) := by
  rw [compute, stackOrder?_tokens]

theorem sound_compute (e : Text) : Sound IsResult (compute e) := by
  rw [compute_eq]
  refine Halt.Sound.bind (sound_foldlM_step (fun t ht => ?_) ?_) fun stack h => sound_finish h
  · exact mem_tokens ((stackOrderFrom_perm [] (tokens e)).mem_iff.1 ht)
  · intro x hx
    exact absurd hx List.not_mem_nil

/-- **No expression makes the machine break down, and a value is finite and not a negative
zero.** -/
theorem compute_ne_breakdown_and_evaluate_finite (e : Text) :
    (∀ b, compute e ≠ .error (.breakdown b)) ∧
      ∀ v, evaluate e = .ok v → v.isFinite = true ∧ v ≠ signedZero true := by
  refine ⟨(sound_compute e).ne_breakdown, ?_⟩
  intro v hv
  rw [evaluate_eq] at hv
  split at hv
  · cases hv
    exact isResult_zero
  · have hsound := sound_compute e
    rcases hc : compute e with h | w
    · rw [hc] at hv
      cases hv
    · rw [hc] at hv hsound
      cases hv
      exact hsound

theorem evaluate_negative_zero :
    evaluate "-0".toList = .ok .zero ∧ Binary64.zero.isFinite = true ∧
      Binary64.zero ≠ signedZero true := by
  have h : evaluate "-0".toList = .ok .zero := by decide +kernel
  exact ⟨h, (compute_ne_breakdown_and_evaluate_finite "-0".toList).2 .zero h⟩

end SpokenCalculator
