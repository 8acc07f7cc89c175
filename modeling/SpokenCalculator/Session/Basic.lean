import SpokenCalculator.Editor.Button
import SpokenCalculator.Editor.Transition
import SpokenCalculator.Speech.Speaker

/-!
# Sessions

A session holds the line under edit with everything around it, and a record of what it does to the
world.

* `Failure`: why something is not done to its end;
* `Session`: the parts of a session;
* `Session.execute`, `Session.handle`: an effect, and a command of the line with its effects in
  order;
* `Session.key`, `Session.phrase`: a key of the console and a spoken phrase.
-/

namespace SpokenCalculator
open Console Speech

/-- Why something is not done to its end: a command cannot be carried out, or a document breaks off
where it is written. -/
inductive Failure
  | edit (e : Editor.EditError)
  | write (e : Json.BreakOff)
  deriving DecidableEq

/-- What happened, in words. -/
def Failure.message : Failure → Text
  | edit e => e.message
  | write e => e.message

/-- The parts of a session, and what it did to the world so far. -/
structure Session where
  engine : Engine
  rooms : Preferences.Rooms
  settings : Settings
  speaker : Speaker
  preferences : Option Preferences.Store
  history : History.Log
  editor : Editor.State
  screen : Screen
  events : List Event

namespace Session

/-- What is left of a session by something that may fail on the way, and what came of it. -/
abbrev Result (α : Type) := Session × Except Failure α

/-- The same with another answer. -/
def Result.as {α β : Type} (r : Result α) (answer : β) : Result β := (r.1, r.2.map fun _ => answer)

/-! ### Output -/

/-- Something is done to the world. -/
def emit (s : Session) (events : List Event) : Session := { s with events := s.events ++ events }

/-- A line is printed. -/
def print (s : Session) (t : Text) : Session := s.emit [.line t]

/-- A message is spoken, if speech is on. -/
def speak (s : Session) (t : Text) : Session :=
  { s with speaker := s.speaker.speak s.settings.voiceEnabled t }

/-- The bell rings, if touch is on. -/
def vibrate (s : Session) : Session :=
  if s.settings.touchEnabled then s.emit [.print .bell] else s

/-- A text is shown on the screen. -/
def display (s : Session) (t : Text) : Session :=
  { s with screen := { s.screen with display := t } }.print (displayLine t)

/-- A notice is shown. -/
def notify (s : Session) (t : Text) : Session :=
  { s with screen := { s.screen with notice := t } }.print (noticeLine t)

/-! ### History -/

/-- The place of the history: the preferences, where there are any. -/
def shelf (room : Nat) : History.Shelf (Option Preferences.Store)
  | _, none => ⟨none, none⟩
  | entries, some store =>
    let attempt := store.saveHistory room entries
    ⟨some attempt.state, attempt.failure⟩

/-- After an attempt to write, a line is printed if there was a refusal.  Where the document broke
off nothing more is done. -/
def settle (s : Session) (warning : Text → Text) : Option WriteError → Result Unit
  | none => (s, .ok ())
  | some (.refused reason) => (s.print (warning reason), .ok ())
  | some (.broken e) => (s, .error (.write e))

/-- The history is changed and saved. -/
def changeHistory (s : Session) (c : History.Change) : Result Unit :=
  let (log, attempt) := History.keep (shelf s.rooms.history) c s.history s.preferences
  { s with history := log, preferences := attempt.state }.settle History.saveWarning
    attempt.failure

/-! ### Commands -/

/-- An effect of a command is carried out. -/
def execute (s : Session) : Editor.Effect → Result Unit
  | .speak t => (s.speak t, .ok ())
  | .vibrate => (s.vibrate, .ok ())
  | .display t => (s.display t, .ok ())
  | .record entry => s.changeHistory (.add entry)
  | .notify t => (s.notify t, .ok ())

/-- Effects are carried out in order, up to the first that fails. -/
def executeAll (s : Session) : List Editor.Effect → Result Unit
  | [] => (s, .ok ())
  | effect :: rest =>
    match s.execute effect with
    | (s, .ok ()) => s.executeAll rest
    | (s, .error e) => (s, .error e)

/-- A command of the line is carried out with its effects in order.  One that cannot be leaves the
session as it is. -/
def handle (s : Session) (c : Editor.Command) : Result (List Editor.Effect) :=
  match Editor.press s.settings.learning s.editor c with
  | .ok (editor, effects) => ({ s with editor := editor }.executeAll effects).as effects
  | .error e => (s, .error (.edit e))

theorem handle_of_press {s : Session} {c : Editor.Command} {o : Editor.Outcome}
    (h : Editor.press s.settings.learning s.editor c = .ok o) :
    s.handle c = ({ s with editor := o.1 }.executeAll o.2).as o.2 := by
  rw [handle, h]

theorem handle_of_error {s : Session} {c : Editor.Command} {e : Editor.EditError}
    (h : Editor.press s.settings.learning s.editor c = .error e) :
    s.handle c = (s, .error (.edit e)) := by
  rw [handle, h]

/-- The symbol of the button that a key of the console stands for. -/
def keySymbol (key : Text) : Text :=
  if key = ['x'] then ['*']
  else if key = ['n'] then "SIGN".toList
  else if key = ['b'] then "BACKSPACE".toList
  else if key = ['c'] then ['C']
  else key

/-- A key of the console is pressed; nothing happens if it is no button. -/
def key (s : Session) (k : Text) : Result (Option (List Editor.Effect)) :=
  match Editor.buttonCommand? (keySymbol k) with
  | none => (s, .ok none)
  | some c => ((s.handle c).1, (s.handle c).2.map some)

/-- The command for what was heard; nothing but blanks is a silence. -/
def phraseCommand : Option Text → Editor.Command
  | none => .silence (some "no_match".toList)
  | some t =>
    if Text.trim t = [] then .silence (some "no_match".toList) else .phrase (some t)

/-- A phrase was heard, or nothing. -/
def phrase (s : Session) (heard : Option Text) : Result (List Editor.Effect) :=
  s.handle (phraseCommand heard)

/-! ### Speech -/

/-- The messages that wait are dropped and the engine is stopped. -/
def stopSpeech (s : Session) : Session :=
  { s with speaker := s.speaker.silence }.emit (s.speaker.haltEvents s.engine)

/-- The workers of the speaker do their work, while further texts are spoken. -/
def pump (s : Session) (texts : List Text) : Session :=
  let (speaker, events) := s.speaker.pump s.engine s.settings.voiceEnabled texts
  { s with speaker := speaker }.emit events

/-- The speed of speech is set and passed on to the engine. -/
def setSpeed (s : Session) (value : Json) : Except SpeedError Session :=
  (s.settings.setSpeed value).map fun settings =>
    { s with settings := settings }.emit (s.speaker.configureEvents s.engine settings)

end Session
end SpokenCalculator
