import SpokenCalculator.History.Archive
import SpokenCalculator.History.Log
import SpokenCalculator.Json.Reader
import SpokenCalculator.Json.Writer
import SpokenCalculator.Preferences.Document

/-!
# Preferences

Named values that are kept in one document, which is written anew at every change.

* `Store`: the values, and the document they are kept in;
* `Rooms`, `Rooms.shell`: how deep values may be nested where documents are read and written;
* `Store.load`: the values of a document; one that cannot be read has none, with a warning;
* `Store.write`: the values are written to the document, as far as they can be;
* `Store.get?`, `Store.put`, `Store.remove`: access to the values;
* `Store.loadHistory`, `Store.saveHistory`: the history among them.
-/

namespace SpokenCalculator.Preferences

/-- The values in memory and the document at the path. -/
structure Store where
  path : Text
  values : Fields
  document : Document

/-- For how many lists and objects within one another there is room on the stack: where a document
is read, and where it is written for the history or for the settings.  Each depends on all that is
being done at the time; in one place there is room for fewer to be read than to be written.  There
is room for an object of values to be read at least. -/
structure Rooms where
  load : Nat
  history : Nat
  settings : Nat
  load_pos : 0 < load
  deriving DecidableEq

/-- The room in a program that is started from a shell, with a stack for a thousand calls. -/
def Rooms.shell : Rooms := ⟨990, 986, 989, by decide⟩

/-- Values nested too deeply to be read, in lists or in objects. -/
inductive DepthError
  | arrays
  | objects
  deriving DecidableEq

/-- What happened, in words. -/
def DepthError.message : DepthError → Text
  | arrays =>
    "maximum recursion depth exceeded while decoding a JSON array from a unicode string".toList
  | objects =>
    "maximum recursion depth exceeded while decoding a JSON object from a unicode string".toList

/-- The reason why a folder is neither read nor written as a file. -/
def folderReason (path : Text) : Text :=
  "[Errno 21] Is a directory: ".toList ++ Text.Quoted.message path.codes

/-- The warning about a document that cannot be read. -/
def unreadableWarning (path detail : Text) : Text :=
  "⚠ Preferencias ilegibles en ".toList ++ path ++ ": ".toList ++ detail

/-- The warning about a document that holds no named values. -/
def formatWarning (path : Text) : Text :=
  "⚠ Formato de preferencias inesperado en ".toList ++ path

/-- The values of a document and the warnings on the way. -/
def valuesOf (room : Nat) (path : Text) : Document → Except DepthError (Fields × List Text)
  | .absent => .ok ([], [])
  | .folder => .ok ([], [unreadableWarning path (folderReason path)])
  | .binary _ => .ok ([], [unreadableWarning path "not a text".toList])
  | .text t =>
    match Json.read room t with
    | .ok (.object fields) => .ok (fields, [])
    | .ok _ => .ok ([], [formatWarning path])
    | .error .malformed => .ok ([], [unreadableWarning path "not a document".toList])
    | .error .longInteger => .ok ([], [unreadableWarning path "an integer is too long".toList])
    | .error .deepArray => .error .arrays
    | .error .deepObject => .error .objects

namespace Store

/-- The preferences kept in a document, and the warnings on the way. -/
def load (room : Nat) (path : Text) (document : Document) :
    Except DepthError (Store × List Text) :=
  (valuesOf room path document).map fun (values, warnings) => (⟨path, values, document⟩, warnings)

/-- The preferences with the values written to the document.  A folder stays as it is, and anything
else holds what was written before it broke off.  The values stay in memory. -/
def write (room : Nat) (store : Store) : Attempt Store :=
  match store.document with
  | .folder => ⟨store, some (.refused (folderReason store.path))⟩
  | _ =>
    let (text, failure) := (Json.object store.values).write room
    ⟨{ store with document := .text text }, failure.map .broken⟩

/-- The value of a name. -/
def get? (store : Store) (key : Codes) : Option Json := Fields.get? key store.values

/-- A value is put in place under a name, and written. -/
def put (room : Nat) (store : Store) (key : Codes) (value : Json) : Attempt Store :=
  write room { store with values := Fields.put key value store.values }

/-- A name is removed, and this is written if it was there. -/
def remove (room : Nat) (store : Store) (key : Codes) : Attempt Store :=
  if key ∈ Fields.keys store.values then
    write room { store with values := Fields.remove key store.values }
  else ⟨store, none⟩

/-! ### The history among the preferences -/

/-- The name of the history. -/
def historyKey : Codes := "calc_history".toList

/-- The entries of the history. -/
def loadHistory (store : Store) : Except History.StoredError (List Codes) :=
  History.ofStored ((store.get? historyKey).getD (.string []))

/-- The history is put in place, or removed if it is empty. -/
def saveHistory (room : Nat) (entries : List Codes) (store : Store) : Attempt Store :=
  if entries.isEmpty then store.remove room historyKey
  else store.put room historyKey (.string (History.join entries))

end Store
end SpokenCalculator.Preferences
