import SpokenCalculator.Binary64.Printing

/-!
# Results as text

* `resultText`: a whole number in digits, any other with at most ten decimal places and no zeros at
  the end.
-/

namespace SpokenCalculator

/-- The names of results that are not finite. -/
def resultNames : Binary64.Names where
  notANumber := "nan".toList
  infinity := "inf".toList

/-- A result as it is shown and spoken. -/
def resultText (x : Binary64) : Text :=
  if x.isWhole then Text.ofInt x.truncate
  else if x.isFinite then
    Text.dropTail (· == '.') (Text.dropTail (· == '0') (x.fixedText 10))
  else resultNames.of x

end SpokenCalculator
