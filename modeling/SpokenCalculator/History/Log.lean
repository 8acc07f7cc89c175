import SpokenCalculator.Attempt

/-!
# The log of evaluations

* `Log`: entries, the most recent first, up to a capacity;
* `Change`, `Log.change`: an entry is added or all are removed;
* `keep`: a change followed by an attempt to save.
-/

namespace SpokenCalculator.History

/-- Entries in order, the most recent first. -/
structure Log where
  capacity : Int
  entries : List Codes
  deriving DecidableEq

/-- The entries within a capacity.  A negative one counts those that are left out at the end. -/
def within (capacity : Int) (entries : List Codes) : List Codes :=
  entries.take (if 0 ≤ capacity then capacity.toNat else (entries.length + capacity).toNat)

/-- The log that begins with loaded entries. -/
def Log.ofLoaded (capacity : Int) (loaded : List Codes) : Log := ⟨capacity, within capacity loaded⟩

/-- An entry is added, or all are removed. -/
inductive Change
  | add (entry : Codes)
  | clear
  deriving DecidableEq

/-- The entries without the oldest one, if they are more than the capacity. -/
def bounded (capacity : Int) (entries : List Codes) : List Codes :=
  if capacity < entries.length then entries.dropLast else entries

/-- The log after a change. -/
def Log.change (log : Log) : Change → Log
  | .add entry => { log with entries := bounded log.capacity (entry :: log.entries) }
  | .clear => { log with entries := [] }

/-- A place to keep a history in, as the effect of saving entries on its state. -/
abbrev Shelf (σ : Type) := List Codes → σ → Attempt σ

/-- A change of the log, saved at once.  A failure to save leaves the change in force. -/
def keep {σ : Type} (shelf : Shelf σ) (c : Change) (log : Log) (state : σ) : Log × Attempt σ :=
  (log.change c, shelf (log.change c).entries state)

/-- The warning that the history was not saved. -/
def saveWarning (reason : Text) : Text := "⚠ No se pudo guardar el historial: ".toList ++ reason

end SpokenCalculator.History
