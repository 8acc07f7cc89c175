import Mathlib.Data.List.Infix
import SpokenCalculator.Proofs.Speech.Workers

/-!
# What becomes of a message

A message that is accepted joins the queue at its end, and leaves it at its front: it is taken by a
worker, or dropped because the queue was emptied or because five newer ones are waiting.  All that
happens to messages is told by the steps that touch the queue, in their order.

* `Happening`, `accepted`, `taken`: what happens to messages, and the messages of it;
* `Marked`, `Course`: steps with what happens in them;
* `Waits`, `Discarded`: an accepted message waits, or was dropped and why;
* `InOrder`, `Course.inOrder`: what is known of all messages that were accepted;
* `events_drain`: what is taken is uttered;
* `Demand`, `Speaker.complyAll`, `course_complyAll`: requests as they are carried out;
* `Heard`, `heard_eventsAll`: what is heard of them;
* `messages_in_order`: all of them together.
-/

namespace SpokenCalculator.Speech

open Relation

/-! ### Happenings -/

/-- What happens to messages: one joins the queue, the first of the queue is taken, or the queue is
emptied. -/
inductive Happening
  | accept (message : Text)
  | take (message : Text)
  | stop
  deriving DecidableEq

/-- The message that joins the queue. -/
def Happening.accepted? : Happening → Option Text
  | .accept message => some message
  | _ => none

/-- The message that is taken. -/
def Happening.taken? : Happening → Option Text
  | .take message => some message
  | _ => none

/-- The messages that joined the queue, in their order. -/
def accepted (hs : List Happening) : List Text := hs.filterMap Happening.accepted?

/-- The messages that were taken, in their order. -/
def taken (hs : List Happening) : List Text := hs.filterMap Happening.taken?

theorem accepted_append (hs hs' : List Happening) :
    accepted (hs ++ hs') = accepted hs ++ accepted hs' := List.filterMap_append

theorem taken_append (hs hs' : List Happening) : taken (hs ++ hs') = taken hs ++ taken hs' :=
  List.filterMap_append

theorem length_enqueue (queue : List Text) (message : Text) :
    (enqueue queue message).length = min (queue.length + 1) maxWaiting := by
  rw [enqueue, List.length_drop, List.length_append, List.length_singleton]
  omega

theorem enqueue_isSuffix (queue : List Text) (message : Text) :
    enqueue queue message <:+ queue ++ [message] := List.drop_suffix _ _

namespace Stage

/-! ### Steps with what happens in them -/

/-- One step with what happens to messages in it, which is nothing where the queue stays as it is
and no call comes to it. -/
inductive Marked : Stage → List Happening → Stage → Prop
  | accept {g : Stage} {before after : List Text} {message : Text}
      (h : g.calls = before ++ message :: after) :
      Marked g [.accept message] ({ g with calls := before ++ after }.accept message)
  | stop (g : Stage) : Marked g [.stop] { g with speaker := g.speaker.silence }
  | take {g : Stage} {before after : List Phase} {message : Text} {rest : List Text}
      (hworker : g.workers = before ++ .ready :: after)
      (hqueue : g.speaker.queue = message :: rest) :
      Marked g [.take message] { g with
        speaker := { g.speaker with queue := rest }
        workers := before ++ .saying message :: after }
  | quiet {g g' : Stage} (h : Step g g') (hqueue : g'.speaker.queue = g.speaker.queue)
      (hcalls : g.calls <+: g'.calls) : Marked g [] g'

/-- Any number of steps with what happens to messages in them. -/
inductive Course (g : Stage) : List Happening → Stage → Prop
  | refl : Course g [] g
  | tail {hs hs' : List Happening} {g' g'' : Stage}
      (h : Course g hs g') (hstep : Marked g' hs' g'') :
      Course g (hs ++ hs') g''

variable {g g' g'' : Stage} {hs hs' : List Happening}

theorem Marked.step (h : Marked g hs g') : Step g g' := by
  cases h with
  | accept h => exact .accept h
  | stop => exact .stop g
  | take hworker hqueue => exact .take hworker hqueue
  | quiet h => exact h

/-- Every step has its place in a course. -/
theorem Step.exists_marked (h : Step g g') : ∃ hs, Marked g hs g' := by
  cases h with
  | call henabled havailable hne =>
    exact ⟨[], .quiet (.call henabled havailable hne) rfl (List.prefix_append ..)⟩
  | accept h => exact ⟨_, .accept h⟩
  | stop => exact ⟨_, .stop g⟩
  | switch enabled => exact ⟨[], .quiet (.switch g enabled) rfl List.prefix_rfl⟩
  | take hworker hqueue => exact ⟨_, .take hworker hqueue⟩
  | finish hworker hqueue => exact ⟨[], .quiet (.finish hworker hqueue) rfl List.prefix_rfl⟩
  | engine hworker hnext => exact ⟨[], .quiet (.engine hworker hnext) rfl List.prefix_rfl⟩

theorem Course.reaches (h : Course g hs g') : ReflTransGen Step g g' := by
  induction h with
  | refl => exact .refl
  | tail _ hstep ih => exact ih.tail hstep.step

theorem exists_course_of_reaches (h : ReflTransGen Step g g') : ∃ hs, Course g hs g' := by
  induction h with
  | refl => exact ⟨[], .refl⟩
  | tail _ hstep ih =>
    obtain ⟨hs, h⟩ := ih
    obtain ⟨hs', hmarked⟩ := hstep.exists_marked
    exact ⟨_, h.tail hmarked⟩

theorem Course.trans (h : Course g hs g') (h' : Course g' hs' g'') : Course g (hs ++ hs') g'' := by
  induction h' with
  | refl =>
    rw [List.append_nil]
    exact h
  | tail _ hstep ih =>
    rw [← List.append_assoc]
    exact ih.tail hstep

theorem Marked.course (h : Marked g hs g') : Course g hs g' := Course.refl.tail h

/-! ### What becomes of a message -/

/-- The message that was accepted after `i` others waits. -/
def Waits (hs : List Happening) (g : Stage) (i : ℕ) : Prop :=
  i < (accepted hs).length ∧ (accepted hs).length ≤ i + g.speaker.queue.length

/-- The message that was accepted after `i` others was dropped on the way while it waited: the queue
was emptied, or one more message was accepted and so many newer ones had come by then that there was
no room for it. -/
def Discarded (start : Stage) (hs : List Happening) (g : Stage) (i : ℕ) : Prop :=
  ∃ before h after g', hs = before ++ h :: after ∧ Course start before g' ∧
    Course g' (h :: after) g ∧ Waits before g' i ∧
    (h = .stop ∨ (∃ message, h = .accept message) ∧ i + maxWaiting ≤ (accepted before).length)

/-- What is known of all messages that were accepted, where those at given places were taken: they
were taken in order, the last ones wait, and the others were dropped. -/
structure InOrder (start : Stage) (hs : List Happening) (g : Stage) (ps : List ℕ) : Prop where
  increasing : ps.Pairwise (· < ·)
  taken_eq : (taken hs).map some = ps.map fun p => (accepted hs)[p]?
  left : ∀ p ∈ ps, p + g.speaker.queue.length < (accepted hs).length
  waiting : g.speaker.queue <:+ accepted hs
  bounded : g.speaker.queue.length ≤ maxWaiting
  fate : ∀ i < (accepted hs).length, i ∈ ps ∨ Waits hs g i ∨ Discarded start hs g i

variable {start : Stage} {ps : List ℕ} {i : ℕ}

theorem Discarded.tail (h : Discarded start hs g i) (hstep : Marked g hs' g') :
    Discarded start (hs ++ hs') g' i := by
  obtain ⟨before, a, after, g₁, rfl, hbefore, hafter, hwaits, hcause⟩ := h
  exact ⟨before, a, after ++ hs', g₁, by simp, hbefore, hafter.tail hstep, hwaits, hcause⟩

theorem inOrder_refl (h : start.speaker.queue = []) : InOrder start [] start [] where
  increasing := .nil
  taken_eq := rfl
  left := fun p hp => absurd hp List.not_mem_nil
  waiting := by rw [h]; exact List.nil_suffix
  bounded := by rw [h]; exact Nat.zero_le _
  fate := fun i hi => absurd hi (Nat.not_lt_zero i)

/-- The fate of a message is final once it was taken or dropped: what happens next decides only
about those that wait. -/
theorem InOrder.fate_tail (h : InOrder start hs g ps) (hstep : Marked g hs' g') {ps' : List ℕ}
    (hps : ps ⊆ ps') (hi : i < (accepted hs).length)
    (hwaits : Waits hs g i → i ∈ ps' ∨ Waits (hs ++ hs') g' i ∨ Discarded start (hs ++ hs') g' i) :
    i ∈ ps' ∨ Waits (hs ++ hs') g' i ∨ Discarded start (hs ++ hs') g' i := by
  rcases h.fate i hi with hmem | hold | hdropped
  · exact Or.inl (hps hmem)
  · exact hwaits hold
  · exact Or.inr (Or.inr (hdropped.tail hstep))

/-- The first of the queue comes after all messages that were taken. -/
theorem InOrder.exists_gone (h : InOrder start hs g ps) {message : Text} {rest : List Text}
    (hfirst : g.speaker.queue = message :: rest) :
    ∃ gone, accepted hs = gone ++ message :: rest ∧ ∀ p ∈ ps, p < gone.length := by
  obtain ⟨gone, hgone⟩ := h.waiting
  rw [hfirst] at hgone
  refine ⟨gone, hgone.symm, fun p hp => ?_⟩
  have hleft := h.left p hp
  rw [hfirst, ← hgone, List.length_append] at hleft
  exact Nat.lt_of_add_lt_add_right hleft

/-- A message that joins the queue is the last, and the first goes if there are too many. -/
theorem InOrder.accept (hcourse : Course start hs g) (h : InOrder start hs g ps) {message : Text}
    (hstep : Marked g [.accept message] g')
    (hqueue : g'.speaker.queue = enqueue g.speaker.queue message) :
    InOrder start (hs ++ [.accept message]) g' ps := by
  have haccepted : accepted (hs ++ [.accept message]) = accepted hs ++ [message] :=
    accepted_append ..
  have hlength := length_enqueue g.speaker.queue message
  have hbounded := h.bounded
  rw [← hqueue] at hlength
  refine ⟨h.increasing, ?_, ?_, ?_, by omega, ?_⟩
  · rw [taken_append, show taken [.accept message] = [] from rfl, List.append_nil, h.taken_eq,
      haccepted]
    refine List.map_congr_left fun p hp => (List.getElem?_append_left ?_).symm
    exact Nat.lt_of_le_of_lt (Nat.le_add_right p _) (h.left p hp)
  · intro p hp
    have hleft := h.left p hp
    rw [haccepted, List.length_append, List.length_singleton]
    omega
  · obtain ⟨gone, hgone⟩ := h.waiting
    rw [hqueue, haccepted, ← hgone, List.append_assoc]
    exact (enqueue_isSuffix ..).trans (List.suffix_append ..)
  · intro i hi
    have hwaits : Waits (hs ++ [.accept message]) g' i ↔
        i < (accepted hs).length + 1 ∧ (accepted hs).length + 1 ≤ i + g'.speaker.queue.length := by
      rw [Waits, haccepted, List.length_append, List.length_singleton]
    rw [haccepted, List.length_append, List.length_singleton] at hi
    by_cases hnew : (accepted hs).length + 1 ≤ i + g'.speaker.queue.length
    · exact Or.inr (Or.inl (hwaits.2 ⟨hi, hnew⟩))
    have hmax : 0 < maxWaiting := by decide
    refine h.fate_tail hstep (List.Subset.refl ps) (by omega) fun hold => ?_
    -- it was the first of a full queue
    refine Or.inr (Or.inr ⟨hs, _, [], g, rfl, hcourse, hstep.course, hold, Or.inr ⟨⟨_, rfl⟩, ?_⟩⟩)
    have := hold.2
    omega

/-- The message that is taken is the one that waited longest. -/
theorem InOrder.take (h : InOrder start hs g ps) {message : Text} {rest : List Text}
    (hstep : Marked g [.take message] g') (hfirst : g.speaker.queue = message :: rest)
    (hqueue : g'.speaker.queue = rest) :
    ∃ ps', InOrder start (hs ++ [.take message]) g' ps' := by
  have haccepted : accepted (hs ++ [.take message]) = accepted hs :=
    (accepted_append ..).trans (List.append_nil _)
  obtain ⟨gone, hgone, hbefore⟩ := h.exists_gone hfirst
  have hlength : (accepted hs).length = gone.length + (rest.length + 1) := by
    rw [hgone, List.length_append, List.length_cons]
  refine ⟨ps ++ [gone.length], ?_, ?_, ?_, ?_, ?_, ?_⟩
  · refine List.pairwise_append.2 ⟨h.increasing, List.pairwise_singleton .., fun p hp q hq => ?_⟩
    rw [List.mem_singleton.1 hq]
    exact hbefore p hp
  · have hthis : (accepted hs)[gone.length]? = some message := by
      rw [hgone, List.getElem?_append_right (Nat.le_refl _), Nat.sub_self]
      rfl
    rw [taken_append, List.map_append, List.map_append, haccepted, h.taken_eq, List.map_singleton,
      hthis]
    rfl
  · intro p hp
    rw [haccepted, hqueue, hlength]
    rcases List.mem_append.1 hp with hp | hp
    · have := hbefore p hp
      omega
    · rw [List.mem_singleton.1 hp]
      omega
  · rw [haccepted, hqueue, hgone]
    exact (List.suffix_cons message rest).trans (List.suffix_append ..)
  · have := h.bounded
    rw [hfirst, List.length_cons] at this
    rw [hqueue]
    omega
  · intro i hi
    rw [haccepted] at hi
    refine h.fate_tail hstep (List.subset_append_left ps _) hi fun hold => ?_
    by_cases hthis : i = gone.length
    · exact Or.inl (List.mem_append_right _ (List.mem_singleton.2 hthis))
    · have := hold.2
      rw [hfirst, List.length_cons] at this
      refine Or.inr (Or.inl ⟨by rwa [haccepted], ?_⟩)
      rw [haccepted, hqueue]
      omega

/-- Nothing waits any more where the queue is emptied. -/
theorem InOrder.stop (hcourse : Course start hs g) (h : InOrder start hs g ps)
    (hstep : Marked g [.stop] g') (hqueue : g'.speaker.queue = []) :
    InOrder start (hs ++ [.stop]) g' ps := by
  have haccepted : accepted (hs ++ [.stop]) = accepted hs :=
    (accepted_append ..).trans (List.append_nil _)
  refine ⟨h.increasing, ?_, ?_, ?_, ?_, ?_⟩
  · rw [taken_append, haccepted, ← h.taken_eq]
    exact congrArg _ (List.append_nil _)
  · intro p hp
    rw [haccepted, hqueue]
    exact Nat.lt_of_le_of_lt (Nat.le_add_right p _) (h.left p hp)
  · rw [hqueue]
    exact List.nil_suffix
  · rw [hqueue]
    exact Nat.zero_le _
  · intro i hi
    rw [haccepted] at hi
    exact h.fate_tail hstep (List.Subset.refl ps) hi fun hold =>
      Or.inr (Or.inr ⟨hs, _, [], g, rfl, hcourse, hstep.course, hold, Or.inl rfl⟩)

/-- Nothing happens to messages where the queue stays as it is. -/
theorem InOrder.quiet (h : InOrder start hs g ps) (hstep : Marked g [] g')
    (hqueue : g'.speaker.queue = g.speaker.queue) : InOrder start hs g' ps where
  increasing := h.increasing
  taken_eq := h.taken_eq
  left := hqueue ▸ h.left
  waiting := hqueue ▸ h.waiting
  bounded := hqueue ▸ h.bounded
  fate := by
    intro i hi
    rcases h.fate i hi with hmem | hold | hdropped
    · exact Or.inl hmem
    · exact Or.inr (Or.inl ⟨hold.1, hqueue ▸ hold.2⟩)
    · have := hdropped.tail hstep
      rw [List.append_nil] at this
      exact Or.inr (Or.inr this)

/-- **Along every course the messages are taken in order, and none is lost without a cause.** -/
theorem Course.inOrder (hstart : start.speaker.queue = []) (h : Course start hs g) :
    ∃ ps, InOrder start hs g ps := by
  induction h with
  | refl => exact ⟨[], inOrder_refl hstart⟩
  | tail h hstep ih =>
    obtain ⟨ps, ih⟩ := ih
    cases hstep with
    | accept hcalls => exact ⟨ps, ih.accept h (.accept hcalls) rfl⟩
    | stop => exact ⟨ps, ih.stop h (.stop _) rfl⟩
    | take hworker hqueue => exact ih.take (.take hworker hqueue) hqueue rfl
    | quiet hquiet hqueue hcalls =>
      rw [List.append_nil]
      exact ⟨ps, ih.quiet (.quiet hquiet hqueue hcalls) hqueue⟩

/-- Where nothing waits, the last message was taken unless the queue was emptied after it came. -/
theorem InOrder.mem_of_last (h : InOrder start hs g ps) (hqueue : g.speaker.queue = [])
    {before after : List Happening} {message : Text} (hhs : hs = before ++ .accept message :: after)
    (hlast : accepted after = []) (hstop : .stop ∉ after) : (accepted before).length ∈ ps := by
  have haccepted : accepted hs = accepted before ++ [message] := by
    rw [hhs, accepted_append]
    exact congrArg (fun rest => accepted before ++ message :: rest) hlast
  have hlength : (accepted hs).length = (accepted before).length + 1 := by
    rw [haccepted, List.length_append, List.length_singleton]
  rcases h.fate _ (Nat.lt_of_lt_of_eq (Nat.lt_succ_self _) hlength.symm) with hmem | hold | hdropped
  · exact hmem
  · have := hold.2
    rw [hlength, hqueue, List.length_nil] at this
    omega
  -- what it waited for came after it, and that was no message
  obtain ⟨before', a, after', _, hsplit, -, -, hwaits, hcause⟩ := hdropped
  have hcame := hwaits.1
  rw [hhs] at hsplit
  rcases List.append_eq_append_iff.1 hsplit with ⟨rest, hbefore, hrest⟩ | ⟨rest, hbefore, -⟩
  · cases rest with
    | nil =>
      rw [hbefore, List.append_nil] at hcame
      exact absurd hcame (Nat.lt_irrefl _)
    | cons b rest =>
      have hafter : after = rest ++ a :: after' := (List.cons_eq_cons.1 hrest).2
      rcases hcause with rfl | ⟨⟨message', rfl⟩, -⟩
      · exact absurd (hafter ▸ List.mem_append_right _ (List.mem_cons_self ..)) hstop
      · rw [hafter, accepted_append] at hlast
        exact absurd (List.append_eq_nil_iff.1 hlast).2 (List.cons_ne_nil _ _)
  · rw [hbefore, accepted_append, List.length_append] at hcame
    omega

/-- All messages are in order, and when no worker is left none waits and the last was taken unless
the queue was emptied after it came. -/
def Faithful (start : Stage) (hs : List Happening) (g : Stage) : Prop :=
  ∃ ps, InOrder start hs g ps ∧
    (g.workers = [] → g.speaker.queue = [] ∧ g.speaker.speaking = false ∧
      ∀ before message after, hs = before ++ .accept message :: after → accepted after = [] →
        .stop ∉ after → (accepted before).length ∈ ps)

theorem Course.faithful {available enabled : Bool}
    (h : Course (resting (.idle available) enabled) hs g) :
    Faithful (resting (.idle available) enabled) hs g := by
  have hsound : g.Sound := Reached.sound ⟨available, enabled, h.reaches⟩
  obtain ⟨ps, horder⟩ := h.inOrder rfl
  refine ⟨ps, horder, fun hworkers => ?_⟩
  have hqueue := (hsound.accept_of_eq_nil hworkers []).1
  refine ⟨hqueue, ?_, fun before message after hhs => horder.mem_of_last hqueue hhs⟩
  have hlength := hsound.length
  rw [hworkers] at hlength
  cases hspeaking : g.speaker.speaking
  · rfl
  · rw [hspeaking] at hlength
    cases hlength

/-! ### Requests as they are carried out -/

end Stage

/-- A message joins the queue if it is spoken. -/
def Speaker.acceptance (s : Speaker) (enabled : Bool) (message : Text) : List Happening :=
  if enabled && s.available && !message.isEmpty then [.accept message] else []

theorem Speaker.taken_acceptance (s : Speaker) (enabled : Bool) (message : Text) :
    taken (s.acceptance enabled message) = [] := by
  unfold Speaker.acceptance
  split_ifs <;> rfl

/-- What happens to messages while a worker goes on with a queue. -/
def Speaker.drainHappenings (engine : Engine) (enabled : Bool) (s : Speaker) :
    List Text → List Text → List Happening
  | [], _ => []
  | message :: queue, texts =>
    match (utter engine message).2, texts with
    | true, text :: texts =>
      .take message :: s.acceptance enabled text ++
        drainHappenings engine enabled s (speak { s with queue := queue } enabled text).queue texts
    | _, texts => .take message :: drainHappenings engine enabled s queue texts
termination_by queue texts => queue.length + texts.length
decreasing_by
  · have := Speaker.length_queue_speak_le { s with queue := queue } enabled text
    simp only [List.length_cons] at this ⊢
    omega
  · simp only [List.length_cons]
    omega

/-- **What is taken is uttered**, in its order, and nothing else is done. -/
theorem events_drain (engine : Engine) (enabled : Bool) (s : Speaker) (queue texts : List Text) :
    (s.drain engine enabled queue texts).2 =
      (taken (s.drainHappenings engine enabled queue texts)).flatMap
        fun message => (utter engine message).1 := by
  fun_induction Speaker.drainHappenings engine enabled s queue texts with
  | case1 => rw [Speaker.drain]; rfl
  | case2 message queue text texts hend ih =>
    have htaken : taken (.take message :: s.acceptance enabled text) = [message] :=
      congrArg (message :: ·) (s.taken_acceptance enabled text)
    rw [Speaker.drain, taken_append, htaken]
    · exact congrArg ((utter engine message).1 ++ ·) ih
    · exact hend
  | case3 message queue texts hend ih =>
    rw [Speaker.drain]
    · exact congrArg ((utter engine message).1 ++ ·) ih
    · exact hend

/-- What the engine says. -/
def said (events : List Event) : List Text :=
  events.filterMap fun event =>
    match event with
    | .request (.say message) => some message
    | _ => none

theorem said_append (events events' : List Event) :
    said (events ++ events') = said events ++ said events' := List.filterMap_append

/-- An engine that is able to speak says what it utters, and another one says nothing. -/
theorem said_utter (engine : Engine) (message : Text) :
    said (utter engine message).1 = if engine.say = none then [message] else [] := by
  rw [utter]
  rcases engine.say with - | reason
  · cases engine.wait <;> rfl
  · rfl

theorem said_flatMap_utter (engine : Engine) (messages : List Text) :
    said (messages.flatMap fun message => (utter engine message).1) =
      if engine.say = none then messages else [] := by
  induction messages with
  | nil => split_ifs <;> rfl
  | cons message messages ih =>
    rw [List.flatMap_cons, said_append, said_utter, ih]
    split_ifs <;> rfl

/-- What is asked of a speaker: to speak a message, with speech on or off, to drop those that wait,
or to let its workers work, with an engine and further texts. -/
inductive Demand
  | speak (enabled : Bool) (message : Text)
  | stop
  | pump (engine : Engine) (enabled : Bool) (texts : List Text)

namespace Speaker

/-- The speaker after a demand. -/
def comply (s : Speaker) : Demand → Speaker
  | .speak enabled message => s.speak enabled message
  | .stop => s.silence
  | .pump engine enabled texts => (s.pump engine enabled texts).1

/-- What happens to messages in a demand. -/
def happenings (s : Speaker) : Demand → List Happening
  | .speak enabled message => s.acceptance enabled message
  | .stop => [.stop]
  | .pump engine enabled texts =>
    if s.workers = 0 then [] else drainHappenings engine enabled s s.queue texts

/-- What the workers do to the world in a demand. -/
def events (s : Speaker) : Demand → List Event
  | .pump engine enabled texts => (s.pump engine enabled texts).2
  | .speak _ _ | .stop => []

/-- The speaker after demands in order. -/
def complyAll (s : Speaker) (ds : List Demand) : Speaker := ds.foldl comply s

/-- What happens to messages in demands in order. -/
def happeningsAll (s : Speaker) : List Demand → List Happening
  | [] => []
  | d :: ds => s.happenings d ++ (s.comply d).happeningsAll ds

/-- What the workers do to the world in demands in order. -/
def eventsAll (s : Speaker) : List Demand → List Event
  | [] => []
  | d :: ds => s.events d ++ (s.comply d).eventsAll ds

end Speaker

/-! ### What is heard -/

/-- What is done to the world where messages were taken in demands: each of them is uttered in its
order by the engine of a demand, and nothing else is done.  So nothing is said but what was taken,
and all of it if every engine is able to speak. -/
structure Heard (ds : List Demand) (messages : List Text) (events : List Event) : Prop where
  uttered : ∃ us : List (Engine × Text), us.map Prod.snd = messages ∧
    (∀ u ∈ us, ∃ enabled texts, .pump u.1 enabled texts ∈ ds) ∧
    events = us.flatMap fun u => (utter u.1 u.2).1
  said_sublist : (said events).Sublist messages
  said_eq : (∀ engine enabled texts, .pump engine enabled texts ∈ ds → engine.say = none) →
    said events = messages

theorem heard_nil : Heard [] [] [] where
  uttered := ⟨[], rfl, fun _ hu => absurd hu List.not_mem_nil, rfl⟩
  said_sublist := List.Sublist.refl []
  said_eq _ := rfl

/-- What is heard of one demand. -/
theorem heard_events (s : Speaker) (d : Demand) :
    Heard [d] (taken (s.happenings d)) (s.events d) := by
  have hsilent : Heard [d] [] [] :=
    ⟨⟨[], rfl, fun _ hu => absurd hu List.not_mem_nil, rfl⟩, List.Sublist.refl [], fun _ => rfl⟩
  cases d with
  | speak enabled message =>
    rw [Speaker.happenings, Speaker.taken_acceptance]
    exact hsilent
  | stop => exact hsilent
  | pump engine enabled texts =>
    rw [Speaker.happenings, Speaker.events, Speaker.pump]
    split_ifs
    · exact hsilent
    rw [events_drain]
    generalize taken (s.drainHappenings engine enabled s.queue texts) = messages
    refine ⟨⟨messages.map (engine, ·), ?_, ?_, ?_⟩, ?_, fun h => ?_⟩
    · rw [List.map_map]
      exact List.map_id messages
    · intro u hu
      obtain ⟨message, -, rfl⟩ := List.mem_map.1 hu
      exact ⟨enabled, texts, List.mem_singleton_self _⟩
    · rw [List.flatMap_map]
    · rw [said_flatMap_utter]
      split_ifs
      · exact List.Sublist.refl messages
      · exact List.nil_sublist messages
    · rw [said_flatMap_utter, if_pos (h engine enabled texts (List.mem_singleton_self _))]

theorem Heard.append {ds ds' : List Demand} {messages messages' : List Text}
    {events events' : List Event} (h : Heard ds messages events)
    (h' : Heard ds' messages' events') :
    Heard (ds ++ ds') (messages ++ messages') (events ++ events') where
  uttered := by
    obtain ⟨us, hmessages, hpumps, hevents⟩ := h.uttered
    obtain ⟨us', hmessages', hpumps', hevents'⟩ := h'.uttered
    refine ⟨us ++ us', ?_, fun u hu => ?_, ?_⟩
    · rw [List.map_append, hmessages, hmessages']
    · rcases List.mem_append.1 hu with hu | hu
      · obtain ⟨enabled, texts, hmem⟩ := hpumps u hu
        exact ⟨enabled, texts, List.mem_append_left _ hmem⟩
      · obtain ⟨enabled, texts, hmem⟩ := hpumps' u hu
        exact ⟨enabled, texts, List.mem_append_right _ hmem⟩
    · rw [List.flatMap_append, hevents, hevents']
  said_sublist := by
    rw [said_append]
    exact h.said_sublist.append h'.said_sublist
  said_eq hsay := by
    rw [said_append, h.said_eq fun engine on texts hmem => hsay engine on texts
        (List.mem_append_left _ hmem),
      h'.said_eq fun engine on texts hmem => hsay engine on texts (List.mem_append_right _ hmem)]

/-- **What is heard of all demands is what was taken in them.** -/
theorem heard_eventsAll (s : Speaker) (ds : List Demand) :
    Heard ds (taken (s.happeningsAll ds)) (s.eventsAll ds) := by
  induction ds generalizing s with
  | nil => exact heard_nil
  | cons d ds ih =>
    rw [Speaker.happeningsAll, Speaker.eventsAll, taken_append]
    exact (heard_events s d).append (ih (s.comply d))

namespace Stage

variable {s : Speaker} {enabled enabled' : Bool} {calls : List Text}

theorem course_switch (s : Speaker) (enabled enabled' : Bool) :
    Course (resting s enabled) [] (resting s enabled') :=
  (Marked.quiet (.switch _ enabled') rfl List.prefix_rfl).course

theorem course_speak (g : Stage) (message : Text) :
    Course g (g.speaker.acceptance g.enabled message) (g.speak message) := by
  unfold speak Speaker.acceptance
  split_ifs with h
  · simp only [Bool.and_eq_true, Bool.not_eq_true', List.isEmpty_eq_false_iff] at h
    have hcall := (Marked.quiet (.call h.1.1 h.1.2 h.2) rfl (List.prefix_append ..)).course
    have haccept := hcall.tail (@Marked.accept _ g.calls [] message rfl)
    rw [List.append_nil] at haccept
    exact haccept
  · exact .refl

theorem course_engine (s : Speaker) (enabled : Bool) (calls : List Text) {phase phase' : Phase}
    (h : phase.Next phase') :
    Course ⟨s, enabled, calls, [phase]⟩ [] ⟨s, enabled, calls, [phase']⟩ :=
  (Marked.quiet (step_engine s enabled calls h) rfl List.prefix_rfl).course

theorem course_take (s : Speaker) (enabled : Bool) (calls : List Text) (message : Text)
    (queue : List Text) :
    Course ⟨{ s with queue := message :: queue }, enabled, calls, [.ready]⟩ [.take message]
      ⟨{ s with queue := queue }, enabled, calls, [.saying message]⟩ :=
  (@Marked.take ⟨{ s with queue := message :: queue }, enabled, calls, [.ready]⟩ [] [] message queue
    rfl rfl).course

/-- Nothing happens to messages while the engine says one as far as it can. -/
theorem course_ready (engine : Engine) (s : Speaker) (enabled : Bool) (calls : List Text)
    (message : Text) :
    Course ⟨s, enabled, calls, [.saying message]⟩ [] ⟨s, enabled, calls, [.ready]⟩ := by
  rcases engine.say with - | reason
  · exact (course_engine s enabled calls (.say message true)).trans
      (course_engine s enabled calls (.wait message engine.wait.isNone))
  · exact course_engine s enabled calls (.say message false)

/-- The work of a worker is a course with what happens to messages in it. -/
theorem course_drain (engine : Engine) (enabled : Bool) (calls : List Text)
    (hspeaking : s.speaking = true) (queue texts : List Text) :
    Course ⟨{ s with queue := queue }, enabled, calls, [.ready]⟩
      (s.drainHappenings engine enabled queue texts)
      ⟨(Speaker.drain engine enabled s queue texts).1, enabled, calls, []⟩ := by
  rw [fst_drain]
  fun_induction Speaker.drainHappenings engine enabled s queue texts with
  | case1 => exact (Marked.quiet (@Step.finish _ [] [] rfl rfl) rfl List.prefix_rfl).course
  | case2 message queue text texts _ ih =>
    have hsay := (course_take s enabled calls message queue).trans
      (course_engine _ enabled calls (.say message true))
    have hspeak := hsay.trans (course_speak _ text)
    rw [speak_of_speaking hspeaking] at hspeak
    have hwait := hspeak.trans (course_engine _ enabled calls (.wait message true))
    rw [List.append_nil] at hwait
    exact hwait.trans ih
  | case3 message queue texts _ ih =>
    exact ((course_take s enabled calls message queue).trans
      (course_ready engine _ enabled calls message)).trans ih

/-- What is asked of a speaker is carried out in a course with what happens to messages in it. -/
theorem course_comply (h : (resting s enabled).Reached) (d : Demand) (enabled' : Bool) :
    Course (resting s enabled) (s.happenings d) (resting (s.comply d) enabled') := by
  cases d with
  | speak on message =>
    have hspeak := (course_switch s enabled on).trans (course_speak (resting s on) message)
    rw [speak_resting] at hspeak
    have hafter := hspeak.trans (course_switch (s.speak on message) on enabled')
    rw [List.append_nil] at hafter
    exact hafter
  | stop => exact (Marked.stop (resting s enabled)).course.trans (course_switch _ enabled enabled')
  | pump engine on texts =>
    rw [Speaker.happenings, Speaker.comply, Speaker.pump]
    split_ifs with hworkers
    · exact course_switch s enabled enabled'
    · obtain ⟨hspeaking, hone⟩ := h.only_worker hworkers
      have hdrain := course_drain engine on [] hspeaking s.queue texts
      rw [← resting_of_workers_eq_one hone, ← resting_drain hone] at hdrain
      have hcourse := ((course_switch s enabled on).trans hdrain).trans
        (course_switch _ on enabled')
      rw [List.append_nil] at hcourse
      exact hcourse

/-- **All that is asked of a speaker is carried out in a course with what happens to messages in
it.** -/
theorem course_complyAll (h : (resting s enabled).Reached) (ds : List Demand) :
    Course (resting s enabled) (s.happeningsAll ds) (resting (s.complyAll ds) enabled) := by
  induction ds generalizing s with
  | nil => exact .refl
  | cons d ds ih =>
    have hcourse := course_comply h d enabled
    exact hcourse.trans (ih (h.trans hcourse.reaches))

/-- No worker is left when they were let to work. -/
theorem workers_pump (h : (resting s enabled).Reached) (engine : Engine) (on : Bool)
    (texts : List Text) : (s.pump engine on texts).1.workers = 0 := by
  unfold Speaker.pump
  split_ifs with hworkers
  · exact hworkers
  · rw [fst_drain, Speaker.finish, (h.only_worker hworkers).2]

theorem reached_idle (available enabled : Bool) : (resting (.idle available) enabled).Reached :=
  ⟨available, enabled, .refl⟩

/-- **Messages are taken in order, and none is lost without a cause.**  This holds along every
course from the start, with steps of calls and workers in any order, and so of all that is asked of
a speaker.  What is taken is what is heard, and when the workers were let to work none of them is
left. -/
theorem messages_in_order (available enabled : Bool) :
    (∀ hs g, Course (resting (.idle available) enabled) hs g →
      Faithful (resting (.idle available) enabled) hs g) ∧
    ∀ ds, Faithful (resting (.idle available) enabled) ((Speaker.idle available).happeningsAll ds)
        (resting ((Speaker.idle available).complyAll ds) enabled) ∧
      Heard ds (taken ((Speaker.idle available).happeningsAll ds))
        ((Speaker.idle available).eventsAll ds) ∧
      ∀ engine on texts, (resting ((Speaker.idle available).complyAll
        (ds ++ [.pump engine on texts])) enabled).workers = [] := by
  have hstart := reached_idle available enabled
  refine ⟨fun hs g hcourse => hcourse.faithful, fun ds => ?_⟩
  have hcourse := course_complyAll hstart ds
  refine ⟨hcourse.faithful, heard_eventsAll _ ds, fun engine on texts => ?_⟩
  have hpump := workers_pump (hstart.trans hcourse.reaches) engine on texts
  rw [Speaker.complyAll, List.foldl_concat, ← Speaker.complyAll, resting]
  exact congrArg (List.replicate · Phase.ready) hpump

/-- Six messages come, so that the first is dropped; a seventh comes from inside the engine, which
says all that wait.  Then speech is off for one message, and another is dropped on request. -/
theorem messages_in_order_nine :
    let ds := ["1", "2", "3", "4", "5", "6"].map (Demand.speak true ·.toList) ++
      [.pump .sound true [['7']], .speak false ['8'], .speak true ['9'], .stop]
    let hs := (Speaker.idle true).happeningsAll ds
    let g := resting ((Speaker.idle true).complyAll ds) true
    accepted hs = ["1", "2", "3", "4", "5", "6", "7", "9"].map String.toList ∧
      taken hs = ["2", "3", "4", "5", "6", "7"].map String.toList ∧
      said ((Speaker.idle true).eventsAll ds) = taken hs ∧
      Faithful (resting (.idle true) true) hs g ∧
      (resting ((Speaker.idle true).complyAll (ds ++ [.pump .sound true []])) true).workers =
        [] := by
  intro ds hs g
  obtain ⟨hall, hdemands⟩ := messages_in_order true true
  have hcourse : Course (resting (.idle true) true) hs g :=
    course_complyAll (reached_idle true true) ds
  obtain ⟨-, hheard, hworkers⟩ := hdemands ds
  have hsay : ∀ engine on texts, .pump engine on texts ∈ ds → engine.say = none := by
    intro engine on texts hmem
    simp only [ds, List.map_cons, List.map_nil, List.cons_append, List.nil_append, List.mem_cons,
      reduceCtorEq, false_or, or_false, List.not_mem_nil, Demand.pump.injEq] at hmem
    rw [hmem.1]
    rfl
  refine ⟨?_, ?_, hheard.said_eq hsay, hall hs g hcourse, hworkers .sound true []⟩
  · decide +kernel
  · decide +kernel

end Stage

end SpokenCalculator.Speech
