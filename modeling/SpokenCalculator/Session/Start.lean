import SpokenCalculator.Session.Basic

/-!
# The start of a session

* `Session.begin`: a session without preferences;
* `Session.openOn`: a session with the settings and the history among the preferences;
* `Session.restart`: a new session on the document of an old one.
-/

namespace SpokenCalculator
open Console Speech

/-- Why a session cannot begin: values nested too deeply, a speed that is too large, or a history
that is no text. -/
inductive StartError
  | depth (e : Preferences.DepthError)
  | speed (e : SpeedError)
  | history (e : History.StoredError)
  deriving DecidableEq

/-- What happened, in words. -/
def StartError.message : StartError → Text
  | depth e => e.message
  | speed e => e.message
  | history e => e.message

namespace Session

/-- The session with given settings, preferences and entries, after some events. -/
def assemble (engine : Engine) (rooms : Preferences.Rooms) (settings : Settings)
    (preferences : Option Preferences.Store) (entries : List Codes) (before : List Event) :
    Session :=
  let (speaker, settings', events) := Speaker.start engine settings
  { engine := engine
    rooms := rooms
    settings := settings'
    speaker := speaker
    preferences := preferences
    history := .ofLoaded settings.historyLimit entries
    editor := .empty
    screen := .initial
    events := before ++ events }

/-- A session without preferences. -/
def begin (engine : Engine) (rooms : Preferences.Rooms) (settings : Settings) : Session :=
  assemble engine rooms settings none [] []

/-- A session with the settings and the history among the preferences in a document.  What was
printed is told also where none can begin. -/
def openOn (engine : Engine) (rooms : Preferences.Rooms) (settings : Settings) (path : Text)
    (document : Preferences.Document) : List Event × Except StartError Session :=
  match Preferences.Store.load rooms.load path document with
  | .error e => ([], .error (.depth e))
  | .ok (store, warnings) =>
    match settings.load store.values with
    | (_, .error e) => (warnings.map Event.line, .error (.speed e))
    | (settings, .ok more) =>
      let events := (warnings ++ more).map Event.line
      match store.loadHistory with
      | .error e => (events, .error (.history e))
      | .ok entries =>
        let s := assemble engine rooms settings (some store) entries events
        (s.events, .ok s)

/-- A new session with given settings on the document of an old one. -/
def restart (s : Session) (settings : Settings) : Except StartError Session :=
  match s.preferences with
  | none => .ok (begin s.engine s.rooms settings)
  | some store => (openOn s.engine s.rooms settings store.path store.document).2

end Session
end SpokenCalculator
