import SpokenCalculator.Json.Writer

/-!
# Attempts to write

* `WriteError`: why a document is not written to its end;
* `Attempt`: what an attempt to write leaves.
-/

namespace SpokenCalculator

/-- Why a document is not written to its end: it cannot be opened, for a reason in words, or it
breaks off. -/
inductive WriteError
  | refused (reason : Text)
  | broken (e : Json.BreakOff)
  deriving DecidableEq

/-- What an attempt to write leaves, and why it failed if it did. -/
structure Attempt (α : Type) where
  state : α
  failure : Option WriteError

end SpokenCalculator
