import SpokenCalculator.Text.Alphanumeric

/-!
# Words and what stands between them

* `pieces`: a text cut into its words, each as long as possible, and single other characters;
* `flatten_pieces`: nothing is lost by the cuts.
-/

namespace SpokenCalculator.Phrase

/-- A piece that a word character in front of it joins. -/
def beginsWord (piece : Text) : Bool := (piece.head?.map Text.isWord).getD false

/-- Pieces with a character in front. -/
def extend (c : Char) : List Text → List Text
  | [] => [[c]]
  | p :: ps => if Text.isWord c && beginsWord p then (c :: p) :: ps else [c] :: p :: ps

/-- A text cut into words and single other characters. -/
def pieces : Text → List Text
  | [] => []
  | c :: t => extend c (pieces t)

theorem flatten_extend (c : Char) (ps : List Text) : (extend c ps).flatten = c :: ps.flatten := by
  cases ps with
  | nil => rfl
  | cons p ps => simp only [extend]; split <;> rfl

/-- Nothing is lost by the cuts. -/
@[simp] theorem flatten_pieces (t : Text) : (pieces t).flatten = t := by
  induction t with
  | nil => rfl
  | cons c t ih => rw [pieces, flatten_extend, ih]

end SpokenCalculator.Phrase
