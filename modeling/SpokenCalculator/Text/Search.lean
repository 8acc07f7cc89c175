import SpokenCalculator.Text.Basic

/-!
# Parts of a text

* `after?`: what follows a given beginning;
* `replaceLast?`: a text with the last occurrence of a part replaced.
-/

namespace SpokenCalculator.Text

/-- What follows a given beginning, if the text begins with it. -/
def after? : Text → Text → Option Text
  | [], t => some t
  | _ :: _, [] => none
  | p :: ps, c :: cs => if p = c then after? ps cs else none

theorem after?_eq_some_iff {p t r : Text} : after? p t = some r ↔ t = p ++ r := by
  induction p generalizing t with
  | nil => simp [after?]
  | cons p ps ih =>
    cases t with
    | nil => simp [after?]
    | cons c cs =>
      by_cases h : p = c
      · simp [after?, h, ih]
      · simp [after?, h, Ne.symm h]

@[simp] theorem after?_append (p t : Text) : after? p (p ++ t) = some t :=
  after?_eq_some_iff.2 rfl

/-- A text with the last occurrence of a part replaced, if there is one. -/
def replaceLast? (old new : Text) : Text → Option Text
  | [] => if old = [] then some new else none
  | c :: t =>
    match replaceLast? old new t with
    | some r => some (c :: r)
    | none => (after? old (c :: t)).map (new ++ ·)

theorem after?_eq_none_of_length_lt {p t : Text} (h : t.length < p.length) :
    after? p t = none := by
  cases ha : after? p t with
  | none => rfl
  | some r =>
    have := congrArg List.length (after?_eq_some_iff.1 ha)
    rw [List.length_append] at this
    omega

theorem replaceLast?_eq_none_of_length_lt {old t : Text} (new : Text)
    (h : t.length < old.length) : replaceLast? old new t = none := by
  induction t with
  | nil => exact if_neg (List.length_pos_iff.1 h)
  | cons c t ih =>
    have ht : t.length < old.length := Nat.lt_of_succ_lt h
    rw [replaceLast?, ih ht, after?_eq_none_of_length_lt h]
    rfl

/-- Where the text ends with the part, this is its last occurrence. -/
theorem replaceLast?_append {old : Text} (new t : Text) (h : old ≠ []) :
    replaceLast? old new (t ++ old) = some (t ++ new) := by
  induction t with
  | nil =>
    cases old with
    | nil => exact absurd rfl h
    | cons c r =>
      have hr : replaceLast? (c :: r) new r = none :=
        replaceLast?_eq_none_of_length_lt new (Nat.lt_succ_self r.length)
      have ha : after? (c :: r) (c :: r) = some [] := after?_eq_some_iff.2 (List.append_nil _).symm
      rw [List.nil_append, replaceLast?, hr, ha]
      simp
  | cons c t ih => rw [List.cons_append, replaceLast?, ih]; rfl

end SpokenCalculator.Text
