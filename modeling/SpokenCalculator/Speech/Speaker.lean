import SpokenCalculator.Settings
import SpokenCalculator.Speech.Engine

/-!
# The speaker

Messages wait in a queue for a worker, which is started when the first one arrives and ends when
it finds none.

* `Speaker`: the messages that wait and the workers that were started and have not ended;
* `Speaker.accept`, `Speaker.finish`: the single steps on what is shared;
* `Speaker.speak`, `Speaker.silence`: what a session asks for;
* `utter`, `Speaker.drain`, `Speaker.pump`: the work of the workers.
-/

namespace SpokenCalculator.Speech

/-- The messages that wait, whether a worker was promised for them, and how many workers were
started and have not ended. -/
structure Speaker where
  available : Bool
  queue : List Text
  speaking : Bool
  workers : Nat
  deriving DecidableEq

/-- The most messages that wait. -/
def maxWaiting : Nat := 5

/-- The queue with a message at its end; the oldest is dropped if they are too many. -/
def enqueue (queue : List Text) (message : Text) : List Text :=
  (queue ++ [message]).drop (queue.length + 1 - maxWaiting)

namespace Speaker

/-- A speaker with or without an engine. -/
def idle (available : Bool) : Speaker := ⟨available, [], false, 0⟩

/-! ### Single steps -/

/-- A message joins the queue; a worker is started unless one is at work. -/
def accept (s : Speaker) (message : Text) : Speaker :=
  { s with
    queue := enqueue s.queue message
    speaking := true
    workers := if s.speaking then s.workers else s.workers + 1 }

/-- A worker that found no message ends. -/
def finish (s : Speaker) : Speaker := { s with speaking := false, workers := s.workers - 1 }

/-! ### Requests of a session -/

/-- A message is spoken if speech is on and the message is not empty. -/
def speak (s : Speaker) (enabled : Bool) (message : Text) : Speaker :=
  if enabled && s.available && !message.isEmpty then s.accept message else s

/-- The messages that wait are dropped. -/
def silence (s : Speaker) : Speaker := { s with queue := [] }

/-- The engine is told to stop, if there is one. -/
def haltEvents (s : Speaker) (engine : Engine) : List Event :=
  if s.available then
    match engine.halt with
    | none => [.request .halt]
    | some reason => [.line ("⚠ Error al detener voz: ".toList ++ reason)]
  else []

end Speaker

/-! ### The work of a worker -/

/-- The engine says a message and waits for its end: what it did, and whether it came to the
end. -/
def utter (engine : Engine) (message : Text) : List Event × Bool :=
  match engine.say, engine.wait with
  | some reason, _ => ([.line ("⚠ Error al reproducir voz: ".toList ++ reason)], false)
  | none, some reason =>
    ([.request (.say message), .line ("⚠ Error al reproducir voz: ".toList ++ reason)], false)
  | none, none => ([.request (.say message), .request .wait], true)

theorem length_enqueue_le (queue : List Text) (message : Text) :
    (enqueue queue message).length ≤ queue.length + 1 := by
  simp [enqueue]

theorem Speaker.length_queue_speak_le (s : Speaker) (enabled : Bool) (message : Text) :
    (s.speak enabled message).queue.length ≤ s.queue.length + 1 := by
  unfold Speaker.speak
  split
  · exact length_enqueue_le s.queue message
  · omega

namespace Speaker

/-- A worker goes on with the messages of a queue until it finds none.  Each time that the engine
comes to the end of one, the next of some further texts is spoken. -/
def drain (engine : Engine) (enabled : Bool) (s : Speaker) :
    List Text → List Text → Speaker × List Event
  | [], _ => ({ s with queue := [] }.finish, [])
  | message :: queue, texts =>
    match (utter engine message).2, texts with
    | true, text :: texts =>
      let (s', events) := drain engine enabled s
        (speak { s with queue := queue } enabled text).queue texts
      (s', (utter engine message).1 ++ events)
    | _, texts =>
      let (s', events) := drain engine enabled s queue texts
      (s', (utter engine message).1 ++ events)
termination_by queue texts => queue.length + texts.length
decreasing_by
  · have := length_queue_speak_le { s with queue := queue } enabled text
    simp only [List.length_cons] at this ⊢
    omega
  · simp only [List.length_cons]
    omega

/-- All workers that were started do their work. -/
def pump (engine : Engine) (enabled : Bool) (s : Speaker) (texts : List Text) :
    Speaker × List Event :=
  if s.workers = 0 then (s, []) else drain engine enabled s s.queue texts

/-! ### The start -/

/-- Volume and rate are set, up to the first failure. -/
def configure (engine : Engine) (settings : Settings) : List Event :=
  let warning (reason : Text) := Event.line ("⚠ Error al configurar voz: ".toList ++ reason)
  match engine.configure, settings.speechRate with
  | some reason, _ => [warning reason]
  | none, .error e => [.request (.setVolume settings.volume), warning e.message]
  | none, .ok rate => [.request (.setVolume settings.volume), .request (.setRate rate)]

/-- Volume and rate are set if there is an engine. -/
def configureEvents (s : Speaker) (engine : Engine) (settings : Settings) : List Event :=
  if s.available then configure engine settings else []

/-- The speaker at the start of a session, the settings it leaves, and what is printed.  Without
an engine speech is switched off. -/
def start (engine : Engine) (settings : Settings) : Speaker × Settings × List Event :=
  match engine.start with
  | none =>
    (idle true, settings,
      configure engine settings ++
        [.line "✓ Sistema de voz inicializado correctamente".toList])
  | some reason =>
    (idle false, { settings with voiceEnabled := false },
      [.line ("⚠ Advertencia: No se pudo inicializar el sistema de voz: ".toList ++ reason)])

end Speaker
end SpokenCalculator.Speech
