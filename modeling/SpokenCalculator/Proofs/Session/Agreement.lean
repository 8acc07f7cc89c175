import SpokenCalculator.Proofs.Session.Calculation

/-!
# What a calculation does not depend on

Two sessions with the same calculation have the same one after whatever is done to both, as long as
no document breaks off where it is written: this alone keeps a session from carrying out all that
was entered.  A refusal to write does not.

* `Calculation.perform`: what an action does to a calculation;
* `Session.Course`: what a user enters and the replies to it, while anything happens around the
  calculation;
* `Course.calculation_eq`: only what is entered enters the calculation;
* `IsNew`, `isNew_of_openOn`: the sessions that begin or are opened;
* `eq_of_course`: new sessions with the same history agree all along.
-/

namespace SpokenCalculator

/-- The action belongs to the output and is nothing that a user enters. -/
def Action.isOutput : Action → Bool
  | .speak _ | .stop | .speed _ | .pump _ => true
  | _ => false

/-- What an action does to a calculation. -/
def Calculation.perform (k : Calculation) (a : Action) : Calculation := (k.moveAll a.moves).1

namespace Session
open Speech

/-! ### One action -/

/-- **An action does the same to the calculation whatever the settings, the engine and the
preferences are**, unless a document breaks off. -/
theorem calculation_perform (s : Session) (a : Action) (h : ¬ (s.perform a).2.IsBroken) :
    (s.perform a).1.calculation = s.calculation.perform a := by
  rw [isBroken_perform_iff] at h
  rw [(s.perform_eq_moveAll a).1]
  exact calculation_moveAll h

/-- What belongs to the output does not enter the calculation. -/
theorem calculation_perform_of_isOutput {a : Action} (ha : a.isOutput = true) (s : Session) :
    (s.perform a).1.calculation = s.calculation := by
  cases a with
  | speak t => rfl
  | stop => rfl
  | speed value =>
    rw [perform, setSpeed]
    rcases s.settings.setSpeed value with e | settings <;> rfl
  | pump texts => rfl
  | _ => cases ha

/-! ### The course of a session -/

/-- The session with another engine, other room on the stack, other settings, another speaker and
other preferences. -/
def around (s : Session) (engine : Engine) (rooms : Preferences.Rooms) (settings : Settings)
    (speaker : Speaker) (preferences : Option Preferences.Store) : Session :=
  { s with
    engine := engine
    rooms := rooms
    settings := settings
    speaker := speaker
    preferences := preferences }

/-- What a user enters in a session, one after another, with the replies, and the session after it.
In between there is output, and at any time calls of the engine begin to fail or succeed, switches
and the speed are set, messages join or leave the queue, and preferences can or cannot be written
any more. -/
inductive Course (s : Session) : List Action → List Reply → Session → Prop
  | start : Course s [] [] s
  | enter {as : List Action} {rs : List Reply} {s' : Session} (h : Course s as rs s')
      (a : Action) : Course s (as ++ [a]) (rs ++ [(s'.perform a).2]) (s'.perform a).1
  | output {as : List Action} {rs : List Reply} {s' : Session} {a : Action}
      (h : Course s as rs s') (ha : a.isOutput = true) : Course s as rs (s'.perform a).1
  | around {as : List Action} {rs : List Reply} {s' : Session} (h : Course s as rs s')
      (engine : Engine) (rooms : Preferences.Rooms) (settings : Settings) (speaker : Speaker)
      (preferences : Option Preferences.Store) :
      Course s as rs (s'.around engine rooms settings speaker preferences)

/-- **Only what is entered enters the calculation.** -/
theorem Course.calculation_eq {s s' : Session} {as : List Action} {rs : List Reply}
    (h : Course s as rs s') (hrs : ∀ r ∈ rs, ¬ r.IsBroken) :
    s'.calculation = as.foldl Calculation.perform s.calculation := by
  induction h with
  | start => rfl
  | enter _ a ih =>
    rw [List.forall_mem_append, List.forall_mem_singleton] at hrs
    rw [calculation_perform _ a hrs.2, ih hrs.1, List.foldl_append, List.foldl_cons,
      List.foldl_nil]
  | output _ ha ih => rw [calculation_perform_of_isOutput ha, ih hrs]
  | around _ _ _ _ _ _ ih => exact ih hrs

/-! ### New sessions -/

/-- The session was just assembled, from any parts. -/
def IsNew (s : Session) : Prop :=
  ∃ engine rooms settings preferences entries before,
    s = assemble engine rooms settings preferences entries before

theorem isNew_begin (engine : Engine) (rooms : Preferences.Rooms) (settings : Settings) :
    (begin engine rooms settings).IsNew :=
  ⟨engine, rooms, settings, none, [], [], rfl⟩

theorem isNew_of_openOn {engine : Engine} {rooms : Preferences.Rooms} {settings : Settings}
    {path : Text} {document : Preferences.Document} {events : List Event} {s : Session}
    (h : openOn engine rooms settings path document = (events, .ok s)) : s.IsNew := by
  unfold openOn at h
  split at h
  · cases h
  · rename_i store warnings _
    split at h
    · cases h
    · rename_i settings' more _
      split at h
      · cases h
      · rename_i entries _
        cases h
        exact ⟨engine, rooms, settings', some store, entries, _, rfl⟩

/-- A new session shows nothing yet, and its history is what was loaded. -/
theorem IsNew.calculation_eq {s : Session} (hs : s.IsNew) :
    s.calculation = ⟨.empty, s.history, .initial⟩ := by
  obtain ⟨engine, rooms, settings, preferences, entries, before, rfl⟩ := hs
  rfl

/-- **Settings, speech and refusals do not influence a calculation.**  Two new sessions with the
same history, in which the same is entered, agree in the line, in the history and in what the screen
shows, whatever else happens in them, at all times before a document breaks off where it is
written. -/
theorem eq_of_course {s t s' t' : Session} {as : List Action} {rs rs' : List Reply}
    (hs : s.IsNew) (ht : t.IsNew) (hhistory : s.history = t.history) (hs' : Course s as rs s')
    (ht' : Course t as rs' t') (hrs : ∀ r ∈ rs, ¬ r.IsBroken) (hrs' : ∀ r ∈ rs', ¬ r.IsBroken) :
    s'.editor = t'.editor ∧ s'.history = t'.history ∧ s'.screen = t'.screen := by
  have hnew : s.calculation = t.calculation := by
    rw [hs.calculation_eq, ht.calculation_eq, hhistory]
  have hafter : s'.calculation = t'.calculation := by
    rw [hs'.calculation_eq hrs, ht'.calculation_eq hrs', hnew]
  exact ⟨congrArg Calculation.editor hafter, congrArg Calculation.history hafter,
    congrArg Calculation.screen hafter⟩

/-- A new session in which nothing is spoken and nothing can be saved, without lessons. -/
def muteSession : Session :=
  assemble ⟨some "no".toList, none, none, none, none⟩ .shell
    { Settings.initial with learning := false } (some ⟨"p".toList, [], .folder⟩) [] []

/-- A sum is entered in a session with speech and lessons, which is told to stop before and is
worked off after it, and in one without. -/
theorem eq_of_course_five_plus_three :
    ∃ s' t' : Session,
      Course (begin .sound .shell .initial) [.line "5+3=".toList] [.goesOn true] s' ∧
      Course muteSession [.line "5+3=".toList] [.goesOn true] t' ∧
      s'.events ≠ t'.events ∧ s'.settings.learning ≠ t'.settings.learning ∧
      t'.history.entries = ["5 + 3 = 8".toList] ∧
      s'.editor = t'.editor ∧ s'.history = t'.history ∧ s'.screen = t'.screen := by
  have hstop : Course (begin .sound .shell .initial) [] []
      ((begin .sound .shell .initial).perform .stop).1 := .output .start rfl
  have hs := (hstop.enter (.line "5+3=".toList)).output (a := .pump []) rfl
  have ht := (Course.start (s := muteSession)).enter (.line "5+3=".toList)
  have hreply : (((begin .sound .shell .initial).perform .stop).1.perform
      (.line "5+3=".toList)).2 = .goesOn true := by decide +kernel
  have hreply' : (muteSession.perform (.line "5+3=".toList)).2 = .goesOn true := by
    decide +kernel
  rw [hreply] at hs
  rw [hreply'] at ht
  have hnew : muteSession.IsNew := ⟨_, _, _, _, _, _, rfl⟩
  have hwhole : ∀ r ∈ [Reply.goesOn true], ¬ r.IsBroken :=
    List.forall_mem_singleton.2 fun ⟨_, h⟩ => Reply.noConfusion h
  refine ⟨_, _, hs, ht, ?_, ?_, ?_, ?_⟩
  · decide +kernel
  · decide +kernel
  · decide +kernel
  · exact eq_of_course (isNew_begin .sound .shell .initial) hnew rfl hs ht hwhole hwhole

/-! ### A document that breaks off -/

/-- A document with half of a character, which can be read but not written. -/
def loneHalf : Preferences.Document := .text "\x7b\"x\": \"\\ud800\"\x7d".toList

/-- The session on this document. -/
def halfSession : Session :=
  assemble .sound .shell .initial
    (some ⟨"p".toList, [("x".toList, .string [.ofNat 0xd800])], loneHalf⟩) [] []

theorem openOn_loneHalf :
    openOn .sound .shell .initial "p".toList loneHalf = (halfSession.events, .ok halfSession) := by
  have hread : Json.read 990 "\x7b\"x\": \"\\ud800\"\x7d".toList =
      .ok (.object [("x".toList, .string [.ofNat 0xd800])]) := by
    decide +kernel
  have hload : Preferences.Store.load Preferences.Rooms.shell.load "p".toList loneHalf =
      .ok (⟨"p".toList, [("x".toList, .string [.ofNat 0xd800])], loneHalf⟩, []) := by
    rw [Preferences.Store.load, loneHalf, Preferences.valuesOf, Preferences.Rooms.shell, hread]
    rfl
  have hsettings : Settings.initial.load [("x".toList, .string [.ofNat 0xd800])] =
      (.initial, .ok []) := by
    decide +kernel
  simp only [openOn, hload, hsettings]
  rfl

/-- What is left of a line on this document after the sum in it, whose entry cannot be written. -/
theorem perform_halfSession :
    (halfSession.perform (.line "1+1=5".toList)).2 =
        .failed (.write (.half [.char '"', .half 0, .char '"'])) ∧
      (halfSession.perform (.line "1+1=5".toList)).1.editor.line = ['2'] := by
  decide +kernel

/-- The rest of a line after a sum is lost where the document breaks off, and not without
preferences. -/
theorem not_eq_of_course_loneHalf :
    ∃ s s' t' r r', openOn .sound .shell .initial "p".toList loneHalf = (s.events, .ok s) ∧
      s.IsNew ∧ s.history = (begin .sound .shell .initial).history ∧
      Course s [.line "1+1=5".toList] [r] s' ∧
      Course (begin .sound .shell .initial) [.line "1+1=5".toList] [r'] t' ∧ r.IsBroken ∧
      s'.editor.line = ['2'] ∧ t'.editor.line = ['2', '5'] := by
  obtain ⟨hreply, hline⟩ := perform_halfSession
  refine ⟨halfSession, _, _, _, _, openOn_loneHalf, isNew_of_openOn openOn_loneHalf, rfl,
    .enter .start _, .enter .start _, ⟨_, hreply⟩, hline, ?_⟩
  decide +kernel

end Session
end SpokenCalculator
