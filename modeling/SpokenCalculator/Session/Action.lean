import SpokenCalculator.Session.Run

/-!
# What is done to a session

* `Action`: a line, a key, a phrase or a command, and the work around them;
* `Session.perform`: an action carried out, with the reply to it;
* `Session.performAll`: actions one after another.
-/

namespace SpokenCalculator

/-- What is done to a session from outside: what a user enters, whole runs of lines, messages to
speak, the end of speech, another speed, and the work of the speaker while further texts are
spoken. -/
inductive Action
  | line (t : Text)
  | key (k : Text)
  | phrase (heard : Option Text)
  | command (c : Editor.Command)
  | run (ts : List Text)
  | speak (t : Text)
  | stop
  | speed (value : Json)
  | pump (texts : List Text)

/-- The reply to an action: nothing, whether the session goes on, the effects of a command, that a
key is no button, or why the action was not carried out to its end. -/
inductive Reply
  | done
  | goesOn (b : Bool)
  | effects (es : List Editor.Effect)
  | noButton
  | failed (e : Failure)
  | speedError (e : SpeedError)
  deriving DecidableEq

/-- The action ended where a document broke off. -/
def Reply.IsBroken (r : Reply) : Prop := ∃ e, r = .failed (.write e)

namespace Session

/-- The reply to what came of an action. -/
def Result.reply {α : Type} (answer : α → Reply) (r : Result α) : Session × Reply :=
  (r.1, match r.2 with
    | .ok a => answer a
    | .error e => .failed e)

/-- The reply to a key. -/
def keyReply : Option (List Editor.Effect) → Reply
  | some es => .effects es
  | none => .noButton

/-- An action carried out.  One that cannot be leaves the session as far as it came. -/
def perform (s : Session) : Action → Session × Reply
  | .line t => (s.line t).reply .goesOn
  | .key k => (s.key k).reply keyReply
  | .phrase heard => (s.phrase heard).reply .effects
  | .command c => (s.handle c).reply .effects
  | .run ts => (s.run ts).reply fun _ => .done
  | .speak t => (s.speak t, .done)
  | .stop => (s.stopSpeech, .done)
  | .speed value =>
    match s.setSpeed value with
    | .ok s => (s, .done)
    | .error e => (s, .speedError e)
  | .pump texts => (s.pump texts, .done)

/-- Actions one after another, whatever their replies. -/
def performAll (s : Session) (as : List Action) : Session :=
  as.foldl (fun s a => (s.perform a).1) s

@[simp] theorem performAll_nil (s : Session) : s.performAll [] = s := rfl

theorem performAll_cons (s : Session) (a : Action) (as : List Action) :
    s.performAll (a :: as) = (s.perform a).1.performAll as := rfl

end Session
end SpokenCalculator
