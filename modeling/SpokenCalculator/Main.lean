import SpokenCalculator.Session.Run

/-!
# The program

The calculator on a console, with its preferences in the home directory.  A console alone has no
speech engine, so that speech is switched off at the start.
-/

namespace SpokenCalculator.Main
open Speech

/-- A console has no speech engine. -/
def engine : Engine := { Engine.sound with start := some "no speech engine".toList }

/-- A text as a console prints it, which shows a lone half of a character as unknown. -/
def printable (t : Codes) : String := String.ofList (t.map fun x => x.char?.getD '\uFFFD')

/-- The document at a path. -/
def readDocument (path : String) : IO Preferences.Document := do
  try
    return .ofBytes (← IO.FS.readBinFile path).toList
  catch
    | .noFileOrDirectory .. => return .absent
    | _ => return .folder

/-- A document is written where it is a text. -/
def writeDocument (path : String) : Preferences.Document → IO Unit
  | .text t => IO.FS.writeFile path (String.ofList t)
  | _ => return ()

/-- What a session did to the console and to its document is carried out. -/
def carryOut (path : String) (s : Session) : IO Session := do
  let out ← IO.getStdout
  for event in s.events do
    if let .print o := event then out.putStr (printable o.text)
  out.flush
  if let some store := s.preferences then writeDocument path store.document
  return { s with events := [] }

/-- A line without its end. -/
def withoutEnd (t : String) : Text := Text.dropTail (fun c => c == '\n' || c == '\r') t.toList

/-- Lines are read and carried out up to the end of the session or of the input. -/
partial def converse (path : String) (s : Session) : IO UInt32 := do
  let s ← carryOut path (s.ask true)
  let t ← (← IO.getStdin).getLine
  if t.isEmpty then
    let _ ← carryOut path s.farewell
    return 0
  match s.line (withoutEnd t) with
  | (s, .ok true) => converse path s
  | (s, .ok false) =>
    let _ ← carryOut path s.farewell
    return 0
  | (s, .error e) =>
    let _ ← carryOut path (s.print (Program.errorLine e.message))
    return 1

/-- The program from the start. -/
def start (home : String) : IO UInt32 := do
  let path := Program.preferencesPath home.toList
  let file := String.ofList path
  match Session.openOn engine .shell .initial path (← readDocument file) with
  | (events, .error e) =>
    for event in events do
      if let .print o := event then IO.print (printable o.text)
    IO.println (String.ofList (Program.errorLine e.message))
    return 1
  | (_, .ok s) => converse file s.welcome

end SpokenCalculator.Main

def main : IO UInt32 := do
  SpokenCalculator.Main.start ((← IO.getEnv "HOME").getD ".")
