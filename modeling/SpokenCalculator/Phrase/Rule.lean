import SpokenCalculator.Phrase.Pieces

/-!
# Rules for spoken words

* `Rule`: spellings and the text that takes their place;
* `Rule.apply`: a text in which every spelling that stands as whole words is replaced.
-/

namespace SpokenCalculator.Phrase

/-- Spellings, each as pieces of a text, and what takes their place. -/
structure Rule where
  spellings : List (List Text)
  replacement : Text

namespace Rule

/-- How many further pieces a spelling takes up that begins with a given one. -/
def reach? (piece : Text) (rest : List Text) : List Text → Option Nat
  | [] => none
  | first :: more => if first = piece ∧ more.isPrefixOf rest then some more.length else none

/-- How many further pieces the first fitting spelling takes up. -/
def match? (rule : Rule) (piece : Text) (rest : List Text) : Option Nat :=
  rule.spellings.findSome? (reach? piece rest)

/-- The pieces after a number of them that a spelling has taken up, with every spelling in them
replaced. -/
def applyAfter (rule : Rule) : Nat → List Text → List Text
  | _, [] => []
  | n + 1, _ :: rest => applyAfter rule n rest
  | 0, piece :: rest =>
    match rule.match? piece rest with
    | some n => rule.replacement :: applyAfter rule n rest
    | none => piece :: applyAfter rule 0 rest

/-- A text with every spelling that stands as whole words replaced. -/
def apply (rule : Rule) (t : Text) : Text := (rule.applyAfter 0 (pieces t)).flatten

end Rule
end SpokenCalculator.Phrase
