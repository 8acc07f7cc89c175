import SpokenCalculator.Session.Action

/-!
# Actions as moves

All that is done to a session comes down to a few kinds of moves, one after another up to the first
that fails.  Which moves an action calls for can be told from the action alone.  What holds of every
move is therefore carried over to all actions here, once.

* `Move`, `Session.move`, `Session.moveAll`: the moves, and moves one after another;
* `Request.moves`, `linesMoves`, `Action.moves`: the moves that requests, lines and actions call
  for;
* `moveAll_append`: moves in two parts;
* `keys_eq_moveAll` to `run_eq_moveAll`: keys, requests, lines and whole runs;
* `perform_eq_moveAll`: an action is carried out as its moves.
-/

namespace SpokenCalculator

/-- A move of a session: a command of the line, a notice, a cleared history, a switch, the greeting,
the history printed, the farewell, or something done to the output. -/
inductive Move
  | command (c : Editor.Command)
  | notify (t : Text)
  | clear
  | toggleVoice
  | toggleTouch
  | toggleLearning
  | greet
  | showHistory
  | farewell
  | speak (t : Text)
  | stop
  | speed (value : Json)
  | pump (texts : List Text)

/-! ### Moves that are called for -/

/-- The moves of a key of the console, which are none if it is no button. -/
def keyMoves (k : Text) : List Move :=
  match Editor.buttonCommand? (Session.keySymbol k) with
  | some c => [.command c]
  | none => []

/-- The move of a key on a line, which is reported if it is no button. -/
def Move.ofKey (k : Char) : Move :=
  match Editor.buttonCommand? (Session.keySymbol [k]) with
  | some c => .command c
  | none => .notify (Session.unknownKey k)

/-- The moves of a request. -/
def Request.moves : Request → List Move
  | .quit => []
  | .showHistory => [.showHistory]
  | .clearHistory => [.clear, .notify "Historial borrado".toList, .speak "history cleared".toList]
  | .toggleVoice => [.toggleVoice]
  | .toggleTouch => [.toggleTouch]
  | .toggleLearning => [.toggleLearning]
  | .phrase heard => [.command (Session.phraseCommand (some heard))]
  | .keys ks => ks.map Move.ofKey

/-- The moves of lines up to the end of the session or of the lines. -/
def linesMoves : List Text → List Move
  | [] => []
  | t :: rest =>
    if Request.ofLine t = .quit then [] else (Request.ofLine t).moves ++ linesMoves rest

/-- The moves of an action. -/
def Action.moves : Action → List Move
  | .line t => (Request.ofLine t).moves
  | .key k => keyMoves k
  | .phrase heard => [.command (Session.phraseCommand heard)]
  | .command c => [.command c]
  | .run ts => .greet :: (linesMoves ts ++ [.farewell])
  | .speak t => [.speak t]
  | .stop => [.stop]
  | .speed value => [.speed value]
  | .pump texts => [.pump texts]

namespace Session

/-! ### Moves that are made -/

/-- A move of a session.  A speed that is none leaves it as it is. -/
def move (s : Session) : Move → Result Unit
  | .command c => (s.handle c).as ()
  | .notify t => (s.notify t, .ok ())
  | .clear => s.changeHistory .clear
  | .toggleVoice => s.toggleVoice
  | .toggleTouch => s.toggleTouch
  | .toggleLearning => s.toggleLearning
  | .greet => (s.welcome, .ok ())
  | .showHistory => (s.printHistory, .ok ())
  | .farewell => (s.farewell, .ok ())
  | .speak t => (s.speak t, .ok ())
  | .stop => (s.stopSpeech, .ok ())
  | .speed value =>
    match s.setSpeed value with
    | .ok s => (s, .ok ())
    | .error _ => (s, .ok ())
  | .pump texts => (s.pump texts, .ok ())

/-- Moves are made in order, up to the first that fails. -/
def moveAll (s : Session) : List Move → Result Unit
  | [] => (s, .ok ())
  | m :: ms =>
    match s.move m with
    | (s, .ok ()) => s.moveAll ms
    | (s, .error e) => (s, .error e)

theorem Result.as_as {α β γ : Type} (r : Result α) (b : β) (c : γ) : (r.as b).as c = r.as c := by
  rcases r with ⟨s, e | a⟩ <;> rfl

theorem Result.as_unit (r : Result Unit) : r.as () = r := by
  rcases r with ⟨s, e | a⟩ <;> rfl

variable (s : Session)

theorem moveAll_cons_of_ok {s s' : Session} {m : Move} (h : s.move m = (s', .ok ()))
    (ms : List Move) : s.moveAll (m :: ms) = s'.moveAll ms := by
  rw [moveAll, h]

theorem moveAll_cons_of_error {s s' : Session} {m : Move} {e : Failure}
    (h : s.move m = (s', .error e)) (ms : List Move) :
    s.moveAll (m :: ms) = (s', .error e) := by
  rw [moveAll, h]

@[simp] theorem moveAll_singleton (m : Move) : s.moveAll [m] = s.move m := by
  rcases h : s.move m with ⟨s', e | _⟩
  · exact moveAll_cons_of_error h []
  · exact moveAll_cons_of_ok h []

/-- Moves in two parts: the second is reached if the first does not fail. -/
theorem moveAll_append (ms ms' : List Move) :
    s.moveAll (ms ++ ms') =
      match s.moveAll ms with
      | (s, .ok ()) => s.moveAll ms'
      | (s, .error e) => (s, .error e) := by
  induction ms generalizing s with
  | nil => rfl
  | cons m ms ih =>
    rw [List.cons_append, moveAll, moveAll]
    rcases s.move m with ⟨s', e | _⟩
    · rfl
    · exact ih s'

/-! ### Keys and lines -/

theorem handle_as_eq_moveAll (c : Editor.Command) :
    (s.handle c).as () = s.moveAll [.command c] := (s.moveAll_singleton (.command c)).symm

theorem key_of_buttonCommand? {k : Text} {c : Editor.Command}
    (h : Editor.buttonCommand? (keySymbol k) = some c) :
    s.key k = ((s.handle c).1, (s.handle c).2.map some) := by
  rw [key, h]

theorem key_of_none {k : Text} (h : Editor.buttonCommand? (keySymbol k) = none) :
    s.key k = (s, .ok none) := by
  rw [key, h]

theorem key_as_eq_moveAll (k : Text) : (s.key k).as () = s.moveAll (keyMoves k) := by
  rw [keyMoves]
  rcases hc : Editor.buttonCommand? (keySymbol k) with - | c
  · rw [key_of_none s hc]
    rfl
  · rw [key_of_buttonCommand? s hc, ← handle_as_eq_moveAll]
    rcases s.handle c with ⟨s', e | effects⟩ <;> rfl

/-- Keys are carried out as their moves. -/
theorem keys_eq_moveAll (ks : Text) : s.keys ks = s.moveAll (ks.map Move.ofKey) := by
  induction ks generalizing s with
  | nil => rfl
  | cons k ks ih =>
    rw [keys, List.map_cons, moveAll, Move.ofKey]
    rcases hc : Editor.buttonCommand? (keySymbol [k]) with - | c
    · rw [key_of_none s hc]
      exact ih _
    · rw [key_of_buttonCommand? s hc]
      simp only [move, Result.as]
      rcases s.handle c with ⟨s', e | effects⟩
      · rfl
      · exact ih s'

/-- **A request is carried out as its moves**, and all but one go on. -/
theorem fulfil_eq_moveAll (request : Request) :
    s.fulfil request = (s.moveAll request.moves).as (request != .quit) := by
  cases request with
  | clearHistory =>
    rw [fulfil, clearHistory, Request.moves, moveAll, move]
    rcases s.changeHistory .clear with ⟨s', e | _⟩ <;> rfl
  | toggleVoice => rw [Request.moves, moveAll_singleton]; rfl
  | toggleTouch => rw [Request.moves, moveAll_singleton]; rfl
  | toggleLearning => rw [Request.moves, moveAll_singleton]; rfl
  | phrase heard =>
    rw [Request.moves, ← handle_as_eq_moveAll, fulfil, phrase]
    rcases s.handle (phraseCommand (some heard)) with ⟨s', e | effects⟩ <;> rfl
  | keys ks => rw [Request.moves, ← keys_eq_moveAll]; rfl
  | _ => rfl

/-- Lines are carried out as their moves. -/
theorem lines_as_eq_moveAll (ts : List Text) :
    (s.lines false ts).as () = s.moveAll (linesMoves ts) := by
  induction ts generalizing s with
  | nil => rfl
  | cons t rest ih =>
    have hask : s.ask false = s := rfl
    rw [lines, linesMoves, hask, line, fulfil_eq_moveAll]
    by_cases hquit : Request.ofLine t = .quit
    · rw [if_pos hquit, hquit]
      rfl
    · rw [if_neg hquit, moveAll_append]
      rcases s.moveAll (Request.ofLine t).moves with ⟨s', e | _⟩
      · rfl
      · rw [bne_iff_ne.2 hquit]
        exact ih s'

/-- A whole run is carried out as its moves. -/
theorem run_eq_moveAll (ts : List Text) :
    s.run ts = s.moveAll (.greet :: (linesMoves ts ++ [.farewell])) := by
  rw [moveAll_cons_of_ok (rfl : s.move .greet = (s.welcome, .ok ())), moveAll_append,
    ← lines_as_eq_moveAll, run]
  rcases s.welcome.lines false ts with ⟨s', e | b⟩ <;> rfl

/-! ### Actions -/

/-- The reply to what was carried out as moves. -/
theorem reply_of_as_eq {α : Type} {s : Session} {r : Result α} {ms : List Move}
    (h : r.as () = s.moveAll ms) {answer : α → Reply} (hanswer : ∀ a e, answer a ≠ .failed e) :
    (r.reply answer).1 = (s.moveAll ms).1 ∧
      ∀ e, (r.reply answer).2 = .failed e ↔ (s.moveAll ms).2 = .error e := by
  rw [← h]
  rcases r with ⟨s', e | a⟩
  · simp [Result.reply, Result.as, Except.map]
  · simp [Result.reply, Result.as, Except.map, hanswer]

/-- **An action is carried out as its moves**, and fails where these do. -/
theorem perform_eq_moveAll (a : Action) :
    (s.perform a).1 = (s.moveAll a.moves).1 ∧
      ∀ e, (s.perform a).2 = .failed e ↔ (s.moveAll a.moves).2 = .error e := by
  have hok (e : Failure) : (.ok () : Except Failure Unit) ≠ .error e := by
    rintro ⟨⟩
  cases a with
  | line t =>
    refine reply_of_as_eq ?_ fun _ _ => Reply.noConfusion
    rw [line, fulfil_eq_moveAll, Result.as_as, Result.as_unit, Action.moves]
  | key k =>
    refine reply_of_as_eq (s.key_as_eq_moveAll k) fun o e => ?_
    cases o <;> exact Reply.noConfusion
  | phrase heard =>
    exact reply_of_as_eq (s.handle_as_eq_moveAll _) fun _ _ => Reply.noConfusion
  | command c => exact reply_of_as_eq (s.handle_as_eq_moveAll c) fun _ _ => Reply.noConfusion
  | run ts =>
    refine reply_of_as_eq ?_ fun _ _ => Reply.noConfusion
    rw [run_eq_moveAll, Result.as_unit, Action.moves]
  | speed value =>
    rw [Action.moves, moveAll_singleton, perform, move]
    rcases s.setSpeed value with e | s' <;>
      exact ⟨rfl, fun e => iff_of_false Reply.noConfusion (hok e)⟩
  | _ => exact ⟨rfl, fun e => iff_of_false Reply.noConfusion (hok e)⟩

theorem isBroken_perform_iff (a : Action) :
    (s.perform a).2.IsBroken ↔ ∃ e, (s.moveAll a.moves).2 = .error (.write e) :=
  exists_congr fun _ => (s.perform_eq_moveAll a).2 _

end Session
end SpokenCalculator
