import SpokenCalculator.Session.Line
import SpokenCalculator.Session.Start

/-!
# The course of a session

* `Session.welcome`, `Session.run`: the greeting, lines up to the end, and the farewell;
* `Program.run`: the whole program on a document and the lines of a console.
-/

namespace SpokenCalculator
open Console Speech

namespace Session

/-- The line between the parts of the greeting. -/
def rule : Text := List.replicate 70 '='

/-- The lines of the greeting. -/
def greeting (settings : Settings) : List Text :=
  [[], rule, "CALCULADORA PARLANTE".toList, rule, [],
   "Números: 0-9   Decimal: .   Operaciones: + - * /".toList,
   "Igual: =   Porcentaje: %   Signo: n   Borrar: b   Borrar todo: c".toList,
   "Voz: say <frase>   (ej: say five plus three)".toList] ++
  (if settings.voiceEnabled then [[], "🔊 FEEDBACK POR VOZ: Activado".toList] else []) ++
  (if settings.touchEnabled then ["📳 VIBRACIÓN: Activada".toList] else []) ++
  (if settings.learning then ["🎓 MODO APRENDIZAJE: Activado".toList] else []) ++
  [[], "h: historial | hc: borrar historial | v: voz | t: vibración | l: aprendizaje".toList,
   "q: salir".toList, rule, []]

/-- The greeting is printed and spoken. -/
def welcome (s : Session) : Session :=
  ((s.printAll (greeting s.settings)).speak "Talking calculator ready".toList).display
    s.editor.display

/-- The farewell is printed. -/
def farewell (s : Session) : Session :=
  s.printAll [[], "OK Aplicacion cerrada correctamente".toList]

/-- The prompt is printed where lines are asked for. -/
def ask (s : Session) (prompted : Bool) : Session :=
  if prompted then s.emit [.print .prompt] else s

/-- Lines are carried out up to the end of the session or of the lines; the answer tells whether
the session was ended by one of them. -/
def lines (s : Session) (prompted : Bool) : List Text → Result Bool
  | [] => (s.ask prompted, .ok false)
  | t :: rest =>
    match (s.ask prompted).line t with
    | (s, .error e) => (s, .error e)
    | (s, .ok true) => s.lines prompted rest
    | (s, .ok false) => (s, .ok true)

/-- The greeting, lines up to the end, and the farewell. -/
def run (s : Session) (ts : List Text) : Result Unit :=
  match s.welcome.lines false ts with
  | (s, .error e) => (s, .error e)
  | (s, .ok _) => (s.farewell, .ok ())

end Session

/-! ### The program -/

namespace Program

/-- The document of the preferences in the home directory. -/
def preferencesPath (home : Text) : Text :=
  Preferences.expand home "~/.talking_calculator.json".toList

/-- How a program ended: its exit code, the document it leaves, and what it did. -/
structure Ending where
  code : Nat
  document : Preferences.Document
  events : List Event

/-- The line for an error that ends the program. -/
def errorLine (message : Text) : Text := '\n' :: "Error: ".toList ++ message

/-- The line for an interruption. -/
def interruptLine : Text := '\n' :: "Interrumpido por el usuario".toList

/-- The document that a session leaves. -/
def documentOf (s : Session) (document : Preferences.Document) : Preferences.Document :=
  (s.preferences.map (·.document)).getD document

/-- The ending of a program in a state of its session. -/
def ending (s : Session) (document : Preferences.Document) (code : Nat) : Ending :=
  ⟨code, documentOf s document, s.events⟩

/-- The program on a document and the lines of a console, which end or are interrupted. -/
def run (engine : Engine) (rooms : Preferences.Rooms) (home : Text)
    (document : Preferences.Document) (ts : List Text) (interrupted : Bool) : Ending :=
  match Session.openOn engine rooms .initial (preferencesPath home) document with
  | (events, .error e) => ⟨1, document, events ++ [.line (errorLine e.message)]⟩
  | (_, .ok s) =>
    match s.welcome.lines true ts with
    | (s, .error e) => ending (s.print (errorLine e.message)) document 1
    | (s, .ok true) => ending s.farewell document 0
    | (s, .ok false) =>
      if interrupted then ending (s.print interruptLine) document 0
      else ending s.farewell document 0

end Program
end SpokenCalculator
