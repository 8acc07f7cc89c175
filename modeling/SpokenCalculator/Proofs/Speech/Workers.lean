import Mathlib.Logic.Relation
import Mathlib.Tactic.SplitIfs
import SpokenCalculator.Speech.Speaker

/-!
# Workers that share one queue

A worker takes the messages of the queue one after another and ends when it finds none, while
others go on to speak, to stop and to switch speech on and off.  The queue and the promise of a
worker are only touched under one lock, so that every access to them is one step, and the steps may
follow each other in any order; an engine that says a message may speak itself, and may fail at any
time.

* `Stage`: the speaker, the calls that have not come to the queue yet, and what each worker does;
* `Step`, `Reached`: one step, and the stages that any number of them lead to;
* `Sound`, `Step.sound`: there is one worker as long as it is promised, and none otherwise, and no
  message waits for none;
* `length_workers_of_reached`: this holds at every stage that is reached;
* `reaches_drain`, `Reached.pump`: the work of a worker, as it is carried out, is a number of steps;
* `Reached.exists_reaches_end`: the workers can always come to their end.
-/

namespace SpokenCalculator.Speech

open Relation

/-! ### Stages -/

/-- What a worker does: it is about to look for a message, has the engine say one, or waits for the
end of it. -/
inductive Phase
  | ready
  | saying (message : Text)
  | waiting (message : Text)
  deriving DecidableEq

/-- What a call of the engine leads to, whether it succeeds or fails. -/
inductive Phase.Next : Phase → Phase → Prop
  | say (message : Text) (succeeds : Bool) :
      Next (.saying message) (if succeeds then .waiting message else .ready)
  | wait (message : Text) (succeeds : Bool) : Next (.waiting message) .ready

/-- The speaker, whether speech is on, the messages whose calls have found it on but have not come
to the queue yet, and the workers that were started and have not ended. -/
structure Stage where
  speaker : Speaker
  enabled : Bool
  calls : List Text
  workers : List Phase
  deriving DecidableEq

namespace Stage

/-- A message joins the queue; a worker is promised unless one is already.  It counts from then on,
whenever it begins. -/
def accept (g : Stage) (message : Text) : Stage :=
  { g with
    speaker := g.speaker.accept message
    workers := if g.speaker.speaking then g.workers else g.workers ++ [.ready] }

/-- A message is spoken if speech is on and the message is not empty. -/
def speak (g : Stage) (message : Text) : Stage :=
  if g.enabled && g.speaker.available && !message.isEmpty then g.accept message else g

/-- Nobody calls, and the workers that were started have not begun. -/
def resting (speaker : Speaker) (enabled : Bool) : Stage :=
  ⟨speaker, enabled, [], List.replicate speaker.workers .ready⟩

/-! ### Steps -/

/-- One step: a call finds speech on, or comes to the queue; the queue is emptied; speech is
switched on or off; a worker takes a message, ends without one, or has made a call of the engine. -/
inductive Step : Stage → Stage → Prop
  | call {g : Stage} {message : Text} (henabled : g.enabled = true)
      (havailable : g.speaker.available = true) (hne : message ≠ []) :
      Step g { g with calls := g.calls ++ [message] }
  | accept {g : Stage} {before after : List Text} {message : Text}
      (h : g.calls = before ++ message :: after) :
      Step g ({ g with calls := before ++ after }.accept message)
  | stop (g : Stage) : Step g { g with speaker := g.speaker.silence }
  | switch (g : Stage) (enabled : Bool) : Step g { g with enabled := enabled }
  | take {g : Stage} {before after : List Phase} {message : Text} {rest : List Text}
      (hworker : g.workers = before ++ .ready :: after)
      (hqueue : g.speaker.queue = message :: rest) :
      Step g { g with
        speaker := { g.speaker with queue := rest }
        workers := before ++ .saying message :: after }
  | finish {g : Stage} {before after : List Phase} (hworker : g.workers = before ++ .ready :: after)
      (hqueue : g.speaker.queue = []) :
      Step g { g with speaker := g.speaker.finish, workers := before ++ after }
  | engine {g : Stage} {before after : List Phase} {phase phase' : Phase}
      (hworker : g.workers = before ++ phase :: after) (h : phase.Next phase') :
      Step g { g with workers := before ++ phase' :: after }

/-- The stages that are reached from the start, with or without an engine, and with speech on or
off. -/
def Reached (g : Stage) : Prop :=
  ∃ available enabled, ReflTransGen Step (resting (.idle available) enabled) g

variable {g g' : Stage}

theorem speaker_speak (g : Stage) (message : Text) :
    (g.speak message).speaker = g.speaker.speak g.enabled message := by
  unfold speak Speaker.speak
  split_ifs <;> rfl

/-- A request to speak is a call that comes to the queue at once. -/
theorem reaches_speak (g : Stage) (message : Text) : ReflTransGen Step g (g.speak message) := by
  unfold speak
  split_ifs with h
  · simp only [Bool.and_eq_true, Bool.not_eq_true', List.isEmpty_eq_false_iff] at h
    have hcall := ReflTransGen.single (Step.call h.1.1 h.1.2 h.2)
    have haccept := hcall.tail (@Step.accept _ g.calls [] message rfl)
    rw [List.append_nil] at haccept
    exact haccept
  · exact .refl

theorem Reached.trans (h : g.Reached) (hsteps : ReflTransGen Step g g') : g'.Reached := by
  obtain ⟨available, enabled, hstart⟩ := h
  exact ⟨available, enabled, ReflTransGen.trans hstart hsteps⟩

/-! ### The invariant -/

/-- There is one worker if it is promised and none if not, as many as were counted, and every
message that waits has one. -/
structure Sound (g : Stage) : Prop where
  length : g.workers.length = if g.speaker.speaking then 1 else 0
  counted : g.speaker.workers = g.workers.length
  promised : g.speaker.queue ≠ [] → g.speaker.speaking = true

theorem sound_resting_idle (available enabled : Bool) :
    (resting (.idle available) enabled).Sound where
  length := rfl
  counted := rfl
  promised := fun h => absurd rfl h

/-- A worker is the one that was promised. -/
theorem Sound.only (h : g.Sound) {before after : List Phase} {phase : Phase}
    (hworker : g.workers = before ++ phase :: after) :
    g.speaker.speaking = true ∧ g.speaker.workers = 1 ∧ before = [] ∧ after = [] := by
  have hlength := h.length
  have hcounted := h.counted
  rw [hworker, List.length_append, List.length_cons] at hlength hcounted
  rcases hspeaking : g.speaker.speaking with - | -
  · rw [hspeaking, if_neg Bool.false_ne_true] at hlength
    omega
  · rw [hspeaking, if_pos rfl] at hlength
    exact ⟨rfl, by omega, List.length_eq_zero_iff.1 (by omega),
      List.length_eq_zero_iff.1 (by omega)⟩

/-- A message that joins the queue has a worker. -/
theorem Sound.accept (h : g.Sound) (message : Text) : (g.accept message).Sound := by
  have hlength := h.length
  have hcounted := h.counted
  rcases hspeaking : g.speaker.speaking with - | -
  · rw [hspeaking, if_neg Bool.false_ne_true] at hlength
    refine ⟨?_, ?_, fun _ => rfl⟩
    · simp [Stage.accept, Speaker.accept, hspeaking, hlength]
    · simp [Stage.accept, Speaker.accept, hspeaking, hcounted]
  · rw [hspeaking, if_pos rfl] at hlength
    refine ⟨?_, ?_, fun _ => rfl⟩
    · simp [Stage.accept, Speaker.accept, hspeaking, hlength]
    · simp [Stage.accept, Speaker.accept, hspeaking, hcounted]

/-- **Every step keeps one worker for the messages that wait.** -/
theorem Step.sound (hstep : Step g g') (h : g.Sound) : g'.Sound := by
  cases hstep with
  | call => exact ⟨h.length, h.counted, h.promised⟩
  | @accept before after message hcalls =>
    have hcall : Sound { g with calls := before ++ after } := ⟨h.length, h.counted, h.promised⟩
    exact hcall.accept message
  | stop => exact ⟨h.length, h.counted, fun hne => absurd rfl hne⟩
  | switch enabled => exact ⟨h.length, h.counted, h.promised⟩
  | take hworker hqueue =>
    obtain ⟨hspeaking, hcount, rfl, rfl⟩ := h.only hworker
    exact ⟨(if_pos hspeaking).symm, hcount, fun _ => hspeaking⟩
  | finish hworker hqueue =>
    obtain ⟨hspeaking, hcount, rfl, rfl⟩ := h.only hworker
    refine ⟨rfl, ?_, fun hne => absurd hqueue hne⟩
    rw [Speaker.finish, hcount]
    rfl
  | engine hworker hnext =>
    obtain ⟨hspeaking, hcount, rfl, rfl⟩ := h.only hworker
    exact ⟨(if_pos hspeaking).symm, hcount, h.promised⟩

theorem Reached.sound (h : g.Reached) : g.Sound := by
  obtain ⟨available, enabled, hsteps⟩ := h
  induction hsteps with
  | refl => exact sound_resting_idle available enabled
  | tail _ hstep ih => exact hstep.sound ih

/-- A message that joins the queue where there is no worker is the only one, and has a new one. -/
theorem Sound.accept_of_eq_nil (h : g.Sound) (hworkers : g.workers = []) (message : Text) :
    g.speaker.queue = [] ∧ (g.accept message).workers = [.ready] ∧
      (g.accept message).speaker.queue = [message] := by
  have hlength := h.length
  rw [hworkers] at hlength
  have hspeaking : g.speaker.speaking = false := by
    cases hspeaking : g.speaker.speaking
    · rfl
    · rw [hspeaking] at hlength
      cases hlength
  have hqueue : g.speaker.queue = [] := by
    cases hqueue : g.speaker.queue with
    | nil => rfl
    | cons m rest =>
      have hpromised := h.promised (by rw [hqueue]; exact List.cons_ne_nil m rest)
      rw [hspeaking] at hpromised
      cases hpromised
  refine ⟨hqueue, ?_, ?_⟩
  · rw [Stage.accept, hspeaking, hworkers]
    rfl
  · rw [Stage.accept, Speaker.accept, hqueue]
    rfl

/-- **No message is stranded and no two workers speak.**  At every stage that is reached there is
one worker if it is promised and none if not, and every message that waits has one; where there is
none, no message waits, and the next one that joins the queue starts one. -/
theorem length_workers_of_reached (h : g.Reached) :
    g.workers.length = (if g.speaker.speaking then 1 else 0) ∧
      g.speaker.workers = g.workers.length ∧
      (g.speaker.queue ≠ [] → g.speaker.speaking = true) ∧
      (g.workers = [] → g.speaker.queue = [] ∧ ∀ message,
        (g.accept message).workers = [.ready] ∧ (g.accept message).speaker.queue = [message]) := by
  have hsound := h.sound
  refine ⟨hsound.length, hsound.counted, hsound.promised, fun hworkers => ?_⟩
  exact ⟨(hsound.accept_of_eq_nil hworkers []).1,
    fun message => (hsound.accept_of_eq_nil hworkers message).2⟩

/-- The first message is said, the second waits, and the third is about to come.  Then the engine
fails, the queue is emptied and the worker ends, and the third message starts another. -/
theorem exists_reached_while_saying :
    ∃ g g' : Stage, g.Reached ∧ g.calls = [['3']] ∧ g.workers = [.saying ['1']] ∧
      g.speaker.queue = [['2']] ∧ g.speaker.speaking = true ∧ g.speaker.workers = 1 ∧
      ReflTransGen Step g g' ∧ g'.workers = [] ∧ g'.calls = [['3']] ∧
      (g'.accept ['3']).workers = [.ready] := by
  have htwo := (reaches_speak (resting (.idle true) true) ['1']).trans (reaches_speak _ ['2'])
  have htake := htwo.tail (@Step.take
    ((resting (.idle true) true).speak ['1'] |>.speak ['2']) [] [] ['1'] [['2']] rfl rfl)
  have hcall := htake.tail (@Step.call _ ['3'] rfl rfl (List.cons_ne_nil _ _))
  have hreached : Reached ⟨⟨true, [['2']], true, 1⟩, true, [['3']], [.saying ['1']]⟩ :=
    ⟨true, true, hcall⟩
  have hfail := ReflTransGen.single (@Step.engine
    ⟨⟨true, [['2']], true, 1⟩, true, [['3']], [.saying ['1']]⟩ [] [] _ _ rfl (.say ['1'] false))
  have hend := (hfail.tail (.stop _)).tail (@Step.finish _ [] [] rfl rfl)
  obtain ⟨-, hcounted, hpromised, -⟩ := length_workers_of_reached hreached
  obtain ⟨-, -, -, hnext⟩ := length_workers_of_reached (hreached.trans hend)
  exact ⟨_, _, hreached, rfl, rfl, rfl, hpromised (List.cons_ne_nil _ _), hcounted, hend, rfl, rfl,
    ((hnext rfl).2 ['3']).1⟩

/-! ### Requests as they are carried out -/

theorem accept_resting (s : Speaker) (enabled : Bool) (message : Text) :
    (resting s enabled).accept message = resting (s.accept message) enabled := by
  rcases hspeaking : s.speaking with - | -
  · simp [Stage.accept, resting, Speaker.accept, hspeaking, List.replicate_succ']
  · simp [Stage.accept, resting, Speaker.accept, hspeaking]

theorem speak_resting (s : Speaker) (enabled : Bool) (message : Text) :
    (resting s enabled).speak message = resting (s.speak enabled message) enabled := by
  have hcond : (resting s enabled).speak message =
      if enabled && s.available && !message.isEmpty then (resting s enabled).accept message
      else resting s enabled := rfl
  rw [hcond, Speaker.speak]
  split_ifs
  · exact accept_resting s enabled message
  · rfl

theorem Reached.speak {s : Speaker} {enabled : Bool} (h : (resting s enabled).Reached)
    (message : Text) : (resting (s.speak enabled message) enabled).Reached := by
  rw [← speak_resting]
  exact h.trans (reaches_speak _ message)

theorem Reached.silence {s : Speaker} {enabled : Bool} (h : (resting s enabled).Reached) :
    (resting s.silence enabled).Reached := h.trans (.single (.stop _))

theorem Reached.switch {s : Speaker} {enabled : Bool} (h : (resting s enabled).Reached)
    (enabled' : Bool) : (resting s enabled').Reached := h.trans (.single (.switch _ enabled'))

/-! ### The work of a worker as steps -/

theorem step_engine (s : Speaker) (enabled : Bool) (calls : List Text) {phase phase' : Phase}
    (h : phase.Next phase') : Step ⟨s, enabled, calls, [phase]⟩ ⟨s, enabled, calls, [phase']⟩ :=
  @Step.engine _ [] [] _ _ rfl h

/-- The engine says a message as far as it can. -/
theorem reaches_ready (engine : Engine) (s : Speaker) (enabled : Bool) (calls : List Text)
    (message : Text) :
    ReflTransGen Step ⟨s, enabled, calls, [.saying message]⟩ ⟨s, enabled, calls, [.ready]⟩ := by
  rcases engine.say with - | reason
  · exact (ReflTransGen.single (step_engine s enabled calls (.say message true))).tail
      (step_engine s enabled calls (.wait message engine.wait.isNone))
  · exact .single (step_engine s enabled calls (.say message false))

/-- While there is a worker a message only joins the queue. -/
theorem speak_of_speaking (h : g.speaker.speaking = true) (message : Text) :
    g.speak message = { g with
      speaker := { g.speaker with queue := (g.speaker.speak g.enabled message).queue } } := by
  unfold speak Speaker.speak
  split_ifs
  · simp only [Stage.accept, Speaker.accept, h, if_true]
  · rfl

/-- In the end no message waits, and there is one worker less. -/
theorem fst_drain (engine : Engine) (enabled : Bool) (s : Speaker) (queue texts : List Text) :
    (Speaker.drain engine enabled s queue texts).1 = { s with queue := [] }.finish := by
  fun_induction Speaker.drain engine enabled s queue texts with
  | case1 => rfl
  | case2 _ _ _ _ _ s' events heq ih => rwa [heq] at ih
  | case3 _ _ _ s' events heq _ ih => rwa [heq] at ih

/-- **The work of a worker, as it is carried out, is a number of steps.** -/
theorem reaches_drain (engine : Engine) (enabled : Bool) (calls : List Text) {s : Speaker}
    (hspeaking : s.speaking = true) (queue texts : List Text) :
    ReflTransGen Step ⟨{ s with queue := queue }, enabled, calls, [.ready]⟩
      ⟨(Speaker.drain engine enabled s queue texts).1, enabled, calls, []⟩ := by
  fun_induction Speaker.drain engine enabled s queue texts with
  | case1 => exact .single (@Step.finish _ [] [] rfl rfl)
  | case2 message queue text texts _ s' events heq ih =>
    rw [heq] at ih
    have htake := ReflTransGen.single (@Step.take
      ⟨{ s with queue := message :: queue }, enabled, calls, [.ready]⟩ [] [] message queue rfl rfl)
    have hsay := htake.tail (step_engine _ enabled calls (.say message true))
    have hspeak := hsay.trans (reaches_speak _ text)
    rw [speak_of_speaking hspeaking] at hspeak
    exact (hspeak.tail (step_engine _ enabled calls (.wait message true))).trans ih
  | case3 message queue texts s' events heq _ ih =>
    rw [heq] at ih
    have htake := ReflTransGen.single (@Step.take
      ⟨{ s with queue := message :: queue }, enabled, calls, [.ready]⟩ [] [] message queue rfl rfl)
    exact (htake.trans (reaches_ready engine _ enabled calls message)).trans ih

/-- From every stage that is reached the workers can come to their end, and then nothing waits. -/
theorem Reached.exists_reaches_end (h : g.Reached) :
    ∃ s : Speaker, ReflTransGen Step g ⟨s, g.enabled, g.calls, []⟩ ∧ s.queue = [] := by
  obtain ⟨s, enabled, calls, workers⟩ := g
  cases workers with
  | nil => exact ⟨s, .refl, (h.sound.accept_of_eq_nil rfl []).1⟩
  | cons phase after =>
    obtain ⟨hspeaking, -, -, rfl⟩ := h.sound.only (List.nil_append _).symm
    have hready : ReflTransGen Step ⟨s, enabled, calls, [phase]⟩ ⟨s, enabled, calls, [.ready]⟩ := by
      cases phase with
      | ready => exact .refl
      | saying message => exact reaches_ready .sound s enabled calls message
      | waiting message => exact .single (step_engine s enabled calls (.wait message true))
    refine ⟨_, hready.trans (reaches_drain .sound enabled calls hspeaking s.queue []), ?_⟩
    rw [fst_drain, Speaker.finish]

/-- A worker that was started is the only one, and is promised. -/
theorem Reached.only_worker {s : Speaker} {enabled : Bool} (h : (resting s enabled).Reached)
    (hworkers : s.workers ≠ 0) : s.speaking = true ∧ s.workers = 1 := by
  obtain ⟨n, hn⟩ := Nat.exists_eq_succ_of_ne_zero hworkers
  have hready : (resting s enabled).workers = [] ++ .ready :: List.replicate n .ready := by
    rw [resting, hn]
    rfl
  obtain ⟨hspeaking, hone, -, -⟩ := h.sound.only hready
  exact ⟨hspeaking, hone⟩

theorem resting_of_workers_eq_one {s : Speaker} (h : s.workers = 1) (enabled : Bool) :
    resting s enabled = ⟨{ s with queue := s.queue }, enabled, [], [.ready]⟩ := by
  rw [resting, h]
  rfl

/-- The only worker has ended when its work is done. -/
theorem resting_drain {s : Speaker} (h : s.workers = 1) (engine : Engine) (enabled : Bool)
    (queue texts : List Text) :
    resting (Speaker.drain engine enabled s queue texts).1 enabled =
      ⟨(Speaker.drain engine enabled s queue texts).1, enabled, [], []⟩ := by
  rw [resting, fst_drain, Speaker.finish, h]
  rfl

/-- All workers that were started do their work in a number of steps. -/
theorem Reached.pump {s : Speaker} {enabled : Bool} (h : (resting s enabled).Reached)
    (engine : Engine) (texts : List Text) :
    (resting (s.pump engine enabled texts).1 enabled).Reached := by
  unfold Speaker.pump
  split_ifs with hworkers
  · exact h
  · obtain ⟨hspeaking, hone⟩ := h.only_worker hworkers
    rw [resting_drain hone]
    rw [resting_of_workers_eq_one hone] at h
    exact h.trans (reaches_drain engine enabled [] hspeaking s.queue texts)

end Stage

end SpokenCalculator.Speech
