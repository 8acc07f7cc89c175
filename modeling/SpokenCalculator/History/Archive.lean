import SpokenCalculator.Json.Basic
import SpokenCalculator.Json.Printer

/-!
# The stored form of a history

Entries are joined to one text with a delimiter between each two.

* `join`, `split`: the stored text of entries, and the entries of a stored text;
* `ofStored`: the entries of a stored value, which need not be a text;
* `join_split`: a stored text is the stored form of its entries.
-/

namespace SpokenCalculator.History

/-- What stands between two entries. -/
def delimiter : Codes := Text.codes ['|', '|', '|']

/-- The stored text of entries. -/
def join (entries : List Codes) : Codes := Text.join delimiter entries

/-- The parts of a text between the delimiters, of which there is at least one. -/
def parts : Codes → List Codes
  | [] => [[]]
  | .char '|' :: .char '|' :: .char '|' :: t => [] :: parts t
  | c :: t => (parts t).modifyHead (c :: ·)

/-- The entries of a stored text; an empty one has none. -/
def split (stored : Codes) : List Codes := if stored = [] then [] else parts stored

/-- A stored value that is no text, by the name of its kind. -/
inductive StoredError
  | notText (kind : Text)
  deriving DecidableEq

/-- What happened, in words. -/
def StoredError.message : StoredError → Text
  | notText kind => '\'' :: kind ++ "' object has no attribute 'split'".toList

/-- The entries of a stored value.  A value that counts as false has none. -/
def ofStored : Json → Except StoredError (List Codes)
  | .string t => .ok (split t)
  | v => if v.isTrue then .error (.notText v.kind) else .ok []

/-! ### Laws -/

theorem parts_ne_nil (t : Codes) : parts t ≠ [] := by
  induction t using parts.induct with
  | case1 => simp [parts]
  | case2 t ih => simp [parts]
  | case3 c t h ih =>
    rw [parts]
    · cases hp : parts t with
      | nil => exact absurd hp ih
      | cons p ps => simp
    · exact h

theorem join_cons_cons (a b : Codes) (rest : List Codes) :
    join (a :: b :: rest) = a ++ delimiter ++ join (b :: rest) := rfl

theorem join_modifyHead (c : Code) {ps : List Codes} (h : ps ≠ []) :
    join (ps.modifyHead (c :: ·)) = c :: join ps := by
  rcases ps with _ | ⟨a, _ | ⟨b, rest⟩⟩
  · exact absurd rfl h
  · rfl
  · rfl

theorem join_parts (t : Codes) : join (parts t) = t := by
  induction t using parts.induct with
  | case1 => rfl
  | case2 t ih =>
    rw [parts]
    cases hp : parts t with
    | nil => exact absurd hp (parts_ne_nil t)
    | cons p ps => rw [join_cons_cons, ← hp, ih]; rfl
  | case3 c t h ih =>
    rw [parts]
    · rw [join_modifyHead c (parts_ne_nil t), ih]
    · exact h

/-- A stored text is the stored form of its entries. -/
@[simp] theorem join_split (stored : Codes) : join (split stored) = stored := by
  unfold split
  split
  · rename_i h; rw [h]; rfl
  · exact join_parts stored

end SpokenCalculator.History
