import SpokenCalculator.Phrase.Rule
import SpokenCalculator.Text.LowerCase
import SpokenCalculator.Text.Numeral

/-!
# Expressions in spoken words

* `rules`: the words for numbers, operations and the decimal point;
* `expression`: the expression that a spoken phrase stands for;
* `failureMessage`: what is said when nothing was understood.
-/

namespace SpokenCalculator.Phrase

/-- The words for the numbers from zero to twenty. -/
def numberWords : List Text :=
  ["zero".toList, "one".toList, "two".toList, "three".toList, "four".toList, "five".toList,
   "six".toList, "seven".toList, "eight".toList, "nine".toList, "ten".toList, "eleven".toList,
   "twelve".toList, "thirteen".toList, "fourteen".toList, "fifteen".toList, "sixteen".toList,
   "seventeen".toList, "eighteen".toList, "nineteen".toList, "twenty".toList]

/-- A number word stands for the digits of its number. -/
def numberRules : List Rule :=
  numberWords.zipIdx.map fun (word, n) => ⟨[[word]], Text.ofNat n⟩

/-- The words for the operations and for the decimal point. -/
def operatorRules : List Rule :=
  [⟨[["plus".toList], ["add".toList]], " + ".toList⟩,
   ⟨[["minus".toList], ["subtract".toList]], " - ".toList⟩,
   ⟨[["times".toList], ["multiply".toList], ["into".toList]], " * ".toList⟩,
   ⟨[["divide".toList], ["divided".toList, [' '], "by".toList], ["over".toList]], " / ".toList⟩,
   ⟨[["point".toList], ["dot".toList]], ['.']⟩]

/-- All rules, in the order of their use. -/
def rules : List Rule := numberRules ++ operatorRules

/-- A text in which every run of blanks is one space. -/
def singleSpaced : Text → Text
  | [] => []
  | c :: t =>
    if Text.isBlank c then
      if (t.head?.map Text.isBlank).getD false then singleSpaced t else ' ' :: singleSpaced t
    else c :: singleSpaced t

/-- A text on which rules have been used one after another. -/
def applyAll (rs : List Rule) (t : Text) : Text := rs.foldl (fun t r => r.apply t) t

/-- The expression that a spoken phrase stands for; empty if nothing was said. -/
def expression (phrase : Text) : Text :=
  Text.trim (singleSpaced (applyAll rules (Text.trim (Text.lower phrase))))

/-- What is said when nothing was understood, by the code of the reason. -/
def failureMessage (code : Option Text) : Text :=
  if code = some "no_match".toList then "No speech detected".toList
  else if code = some "speech_timeout".toList then "Speech timeout".toList
  else "Speech recognition error".toList

end SpokenCalculator.Phrase
