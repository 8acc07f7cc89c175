import SpokenCalculator.Preferences.Store

/-!
# Access to preferences

Any value may be put in place under a name, by a session or by others.

* `Access`, `Store.access`: what may be done with the preferences, and what comes of it.
-/

namespace SpokenCalculator.Preferences

/-- What may be done with the preferences. -/
inductive Access
  | get (key : Codes)
  | set (key : Codes) (value : Json)
  | remove (key : Codes)

namespace Store

/-- The preferences after an attempt to write them, and why it failed if it did. -/
def settle (attempt : Attempt Store) : Store × Except WriteError (Option Json) :=
  (attempt.state, match attempt.failure with
    | none => .ok none
    | some e => .error e)

/-- The preferences after an access, and the value that it asked for, if it did, or why a write
failed. -/
def access (room : Nat) (store : Store) : Access → Store × Except WriteError (Option Json)
  | .get key => (store, .ok (store.get? key))
  | .set key value => settle (store.put room key value)
  | .remove key => settle (store.remove room key)

end Store
end SpokenCalculator.Preferences
