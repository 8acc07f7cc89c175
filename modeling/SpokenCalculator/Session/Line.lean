import SpokenCalculator.Session.Basic

/-!
# Lines of the console

* `Request`: what a line asks for;
* `Request.ofLine`: the request of a line, in either case of its letters;
* `Session.line`: a line is carried out; the answer tells whether the session goes on.
-/

namespace SpokenCalculator
open Console Speech

/-- What a line of the console asks for. -/
inductive Request
  | quit
  | showHistory
  | clearHistory
  | toggleVoice
  | toggleTouch
  | toggleLearning
  | phrase (heard : Text)
  | keys (ks : Text)
  deriving DecidableEq

namespace Request

/-- The word in front of a phrase. -/
def phraseWord : Text := "say".toList

/-- The request of a line. -/
def ofLine (line : Text) : Request :=
  let text := Text.trim line
  let lowered := Text.lower text
  if lowered = ['q'] then quit
  else if lowered = ['h'] then showHistory
  else if lowered = ['h', 'c'] then clearHistory
  else if lowered = ['v'] then toggleVoice
  else if lowered = ['t'] then toggleTouch
  else if lowered = ['l'] then toggleLearning
  else if lowered = phraseWord ∨ (phraseWord ++ [' ']).isPrefixOf lowered then
    phrase (Text.trim (text.drop phraseWord.length))
  else keys (Text.without ' ' lowered)

end Request

namespace Session

/-! ### Settings -/

/-- The warning that the settings were not saved. -/
def settingsWarning (reason : Text) : Text :=
  "⚠ No se pudieron guardar las preferencias: ".toList ++ reason

/-- The settings are saved among the preferences, where there are any. -/
def saveSettings (s : Session) : Result Unit :=
  match s.preferences with
  | none => (s, .ok ())
  | some store =>
    let attempt := s.settings.save s.rooms.settings store
    { s with preferences := some attempt.state }.settle settingsWarning attempt.failure

/-- The state of a switch in words, by the gender of its name. -/
def switchWord (feminine on : Bool) : Text :=
  (if on then "ACTIVAD" else "DESACTIVAD").toList ++ [if feminine then 'A' else 'O']

/-- Speech is switched; that it is switched off is still spoken. -/
def switchVoice (s : Session) : Session :=
  if s.settings.voiceEnabled then
    let s := s.speak "voice off".toList
    { s with settings := { s.settings with voiceEnabled := false } }
  else
    { s with settings := { s.settings with voiceEnabled := true } }.speak "voice on".toList

/-- Speech is switched and the choice is saved. -/
def toggleVoice (s : Session) : Result Unit :=
  let s := s.switchVoice
  (s.print ("🔊 Voz: ".toList ++ switchWord true s.settings.voiceEnabled)).saveSettings

/-- Touch is switched and the choice is saved. -/
def toggleTouch (s : Session) : Result Unit :=
  let on := !s.settings.touchEnabled
  ({ s with settings := { s.settings with touchEnabled := on } }.print
    ("📳 Vibración: ".toList ++ switchWord true on)).saveSettings

/-- Lessons are switched and the choice is saved. -/
def toggleLearning (s : Session) : Result Unit :=
  let on := !s.settings.learning
  (({ s with settings := { s.settings with learning := on } }.print
    ("🎓 Modo aprendizaje: ".toList ++ switchWord false on)).speak
    ("learning mode ".toList ++ (if on then "on" else "off").toList)).saveSettings

/-! ### Requests -/

/-- Lines are printed. -/
def printAll (s : Session) (ts : List Text) : Session := s.emit (ts.map Event.line)

/-- The history is printed. -/
def printHistory (s : Session) : Session :=
  s.emit ((historyLines s.history.entries).map fun t => .print (.line t))

/-- The history is cleared. -/
def clearHistory (s : Session) : Result Unit :=
  match s.changeHistory .clear with
  | (s, .ok ()) => ((s.notify "Historial borrado".toList).speak "history cleared".toList, .ok ())
  | (s, .error e) => (s, .error e)

/-- The notice of a key that is no button. -/
def unknownKey (k : Char) : Text := "Tecla desconocida: ".toList ++ [k]

/-- Keys are pressed in order, up to the first that cannot be carried out. -/
def keys (s : Session) : Text → Result Unit
  | [] => (s, .ok ())
  | k :: ks =>
    match s.key [k] with
    | (s, .error e) => (s, .error e)
    | (s, .ok none) => (s.notify (unknownKey k)).keys ks
    | (s, .ok (some _)) => s.keys ks

/-- A request is carried out. -/
def fulfil (s : Session) : Request → Result Bool
  | .quit => (s, .ok false)
  | .showHistory => (s.printHistory, .ok true)
  | .clearHistory => s.clearHistory.as true
  | .toggleVoice => s.toggleVoice.as true
  | .toggleTouch => s.toggleTouch.as true
  | .toggleLearning => s.toggleLearning.as true
  | .phrase heard => (s.phrase (some heard)).as true
  | .keys ks => (s.keys ks).as true

/-- A line of the console is carried out; the answer tells whether the session goes on. -/
def line (s : Session) (t : Text) : Result Bool := s.fulfil (.ofLine t)

end Session
end SpokenCalculator
