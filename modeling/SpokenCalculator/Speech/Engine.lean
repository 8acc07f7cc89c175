import SpokenCalculator.Console
import SpokenCalculator.Json.Basic

/-!
# The speech engine

* `Engine`: which calls of the engine fail, and why;
* `Request`: the calls that it carries out;
* `Event`: what a session does to the world, in order.
-/

namespace SpokenCalculator.Speech

/-- For each call of the engine the reason why it fails, if it does. -/
structure Engine where
  start : Option Text
  configure : Option Text
  say : Option Text
  wait : Option Text
  halt : Option Text
  deriving DecidableEq

/-- An engine whose calls all succeed. -/
def Engine.sound : Engine := ⟨none, none, none, none, none⟩

/-- A call that the engine carries out. -/
inductive Request
  | setVolume (volume : Number)
  | setRate (rate : Int)
  | say (message : Text)
  | wait
  | halt
  deriving DecidableEq

/-- What a session does to the world. -/
inductive Event
  | print (o : Console.Output)
  | request (r : Request)
  deriving DecidableEq

/-- A line is printed. -/
def Event.line (t : Text) : Event := .print (.line t.codes)

end SpokenCalculator.Speech
