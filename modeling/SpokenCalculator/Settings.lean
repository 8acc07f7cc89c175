import SpokenCalculator.Binary64.Reading
import SpokenCalculator.Preferences.Store

/-!
# Settings

* `Settings`: what a user can choose about voice, touch, lessons and history;
* `Settings.setSpeed`: the speed of speech within its bounds;
* `Settings.speechRate`: the words per minute that follow from it;
* `Settings.load`, `Settings.save`: the settings among the preferences.
-/

namespace SpokenCalculator

/-- What a user can choose. -/
structure Settings where
  voiceEnabled : Bool
  volume : Number
  baseRate : Number
  speed : Number
  touchEnabled : Bool
  learning : Bool
  historyLimit : Int
  deriving DecidableEq

/-- Why a speed cannot be set or a rate cannot be told. -/
inductive SpeedError
  | notNumber (kind : Text)
  | notNumeral (t : Codes)
  | tooLarge
  | rateUndefined
  | rateInfinite
  deriving DecidableEq

/-- What happened, in words. -/
def SpeedError.message : SpeedError → Text
  | notNumber kind =>
    "float() argument must be a string or a real number, not '".toList ++ kind ++ ['\'']
  | notNumeral t => "could not convert string to float: ".toList ++ Text.Quoted.message t
  | tooLarge => "int too large to convert to float".toList
  | rateUndefined => "cannot convert float NaN to integer".toList
  | rateInfinite => "cannot convert float infinity to integer".toList

/-- The double precision number nearest to a number. -/
def Number.toFloat : Number → Except SpeedError Binary64
  | int i => ((Binary64.ofInt? i).map .ok).getD (.error .tooLarge)
  | float x => .ok x

/-- A value as a speed: a number, a truth value as zero or one, or a text that denotes a number. -/
def Json.toSpeed : Json → Except SpeedError Binary64
  | .bool b => .ok (.ofInt b.toInt)
  | .number n => n.toFloat
  | .string t => ((t.text?.bind Binary64.ofText?).map .ok).getD (.error (.notNumeral t))
  | v => .error (.notNumber v.kind)

namespace Settings

/-- The settings before any choice. -/
def initial : Settings where
  voiceEnabled := true
  volume := .float (.ofDecimal false ⟨8, -1⟩)
  baseRate := .int 150
  speed := .float (.ofInt 1)
  touchEnabled := true
  learning := true
  historyLimit := 50

/-- The least speed of speech. -/
def minSpeed : Binary64 := .ofDecimal false ⟨5, -1⟩

/-- The greatest speed of speech. -/
def maxSpeed : Binary64 := .ofInt 2

/-- A speed moved to the nearest bound if it is outside; not-a-number is on no side of a
bound. -/
def clamp (x : Binary64) : Binary64 :=
  let raised := if x.lt minSpeed then minSpeed else x
  if maxSpeed.lt raised then maxSpeed else raised

/-- The settings with a speed of speech within its bounds. -/
def setSpeed (s : Settings) (value : Json) : Except SpeedError Settings :=
  value.toSpeed.map fun x => { s with speed := .float (clamp x) }

/-- A whole number of words per minute. -/
def wholeRate : Binary64 → Except SpeedError Int
  | .nan => .error .rateUndefined
  | .infinite _ => .error .rateInfinite
  | x => .ok x.truncate

/-- The words per minute: the base rate times the speed. -/
def speechRate (s : Settings) : Except SpeedError Int :=
  match s.baseRate, s.speed with
  | .int rate, .int speed => .ok (rate * speed)
  | rate, speed => do wholeRate ((← rate.toFloat) * (← speed.toFloat))

/-! ### Among the preferences -/

/-- The name of the switch for speech. -/
def voiceKey : Codes := "voice_enabled".toList

/-- The name of the switch for touch. -/
def touchKey : Codes := "haptic_enabled".toList

/-- The name of the switch for lessons. -/
def learningKey : Codes := "learning_mode".toList

/-- The name of the speed of speech. -/
def speedKey : Codes := "speech_speed".toList

/-- A switch among stored values, with what it is if none is stored. -/
def switch (values : Fields) (key : Codes) (default : Bool) : Bool :=
  ((values.get? key).map Json.isTrue).getD default

/-- The settings with the stored switches. -/
def withSwitches (s : Settings) (values : Fields) : Settings :=
  { s with
    voiceEnabled := switch values voiceKey s.voiceEnabled
    touchEnabled := switch values touchKey s.touchEnabled
    learning := switch values learningKey s.learning }

/-- The warning about a stored speed that is none. -/
def speedWarning : Text :=
  "⚠ Velocidad de voz guardada no válida, se usa la predeterminada".toList

/-- The settings with what is stored among the preferences, and the warnings on the way.  The
switches are in force also where the speed is too large. -/
def load (s : Settings) (values : Fields) : Settings × Except SpeedError (List Text) :=
  let s := s.withSwitches values
  match s.setSpeed ((values.get? speedKey).getD (.number s.speed)) with
  | .ok s => (s, .ok [])
  | .error .tooLarge => (s, .error .tooLarge)
  | .error _ => (s, .ok [speedWarning])

/-- The settings that are stored, by name and in order. -/
def stored (s : Settings) : Fields :=
  [(voiceKey, .bool s.voiceEnabled), (touchKey, .bool s.touchEnabled),
   (learningKey, .bool s.learning), (speedKey, .number s.speed)]

/-- Values are put in place one after another, up to the first that fails. -/
def putAll (room : Nat) (store : Preferences.Store) : Fields → Attempt Preferences.Store
  | [] => ⟨store, none⟩
  | (key, value) :: rest =>
    match store.put room key value with
    | ⟨store, none⟩ => putAll room store rest
    | failed => failed

/-- The settings are put in place among the preferences. -/
def save (room : Nat) (s : Settings) (store : Preferences.Store) : Attempt Preferences.Store :=
  putAll room store s.stored

end Settings
end SpokenCalculator
