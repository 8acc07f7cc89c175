import SpokenCalculator.Text.Basic

/-!
# Documents in a file system

* `Document`: what stands at the path of a file;
* `Document.ofBytes`: the document with given bytes, which is text if they encode one;
* `expand`: a path with the home directory written out.
-/

namespace SpokenCalculator.Preferences

/-- What stands at the path of a file: nothing, a folder, a text, or bytes that encode none. -/
inductive Document
  | absent
  | folder
  | text (t : Text)
  | binary (bytes : List UInt8)
  deriving DecidableEq

/-- The document with given bytes. -/
def Document.ofBytes (bytes : List UInt8) : Document :=
  match String.fromUTF8? ⟨bytes.toArray⟩ with
  | some s => .text s.toList
  | none => .binary bytes

/-- A path with the home directory in place of a tilde in front. -/
def expand (home path : Text) : Text :=
  match path with
  | ['~'] => home
  | '~' :: '/' :: rest => home ++ '/' :: rest
  | _ => path

end SpokenCalculator.Preferences
