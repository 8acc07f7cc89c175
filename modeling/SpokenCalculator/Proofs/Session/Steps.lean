import SpokenCalculator.Proofs.Session.Updates

/-!
# What actions do to what a session keeps

Of all that an action does, only a few steps touch the settings, the preferences or the history: a
switch, the speed, a save of the settings, an entry recorded and the history cleared.  What each of
these preserves where no document breaks off, every action does; and the updates among them are
those that the action calls for.

* `Session.Step`: the steps;
* `Session.Trace`: any number of steps, with the updates among them;
* `respects_trace`, `trace_performAll`: any number of actions as steps;
* `performAll_induction`: what every step preserves, any number of actions do.
-/

namespace SpokenCalculator

namespace Session

/-! ### Steps -/

/-- One step of what a session keeps: other switches or none, another speed, the settings saved, an
entry recorded, or the history cleared. -/
inductive Step : Session → Session → Prop
  | switch {s s' : Session} (voice touch learning : Bool)
      (hsettings : s'.settings = { s.settings with
        voiceEnabled := voice, touchEnabled := touch, learning := learning })
      (hpreferences : s'.preferences = s.preferences) (hhistory : s'.history = s.history) :
      Step s s'
  | speed {s s' : Session} {v : Json} (h : s.setSpeed v = .ok s') : Step s s'
  | save {s s' : Session} (h : s.saveSettings = (s', .ok ())) : Step s s'
  | record {s s' : Session} {entry : Text} (hentry : Editor.IsRecord entry)
      (h : s.changeHistory (.add entry) = (s', .ok ())) : Step s s'
  | clear {s s' : Session} (h : s.changeHistory .clear = (s', .ok ())) : Step s s'

/-- Any number of steps, with the updates among them: the entries after each change of the history,
and the settings each time that they are saved. -/
inductive Trace : Session → List Update → Session → Prop
  | quiet {s s' : Session} (h : Step s s') (hpreferences : s'.preferences = s.preferences)
      (hhistory : s'.history = s.history) : Trace s [] s'
  | save {s s' : Session} (h : s.saveSettings = (s', .ok ())) :
      Trace s [.settings s.settings] s'
  | record {s s' : Session} {entry : Text} (hentry : Editor.IsRecord entry)
      (h : s.changeHistory (.add entry) = (s', .ok ())) :
      Trace s [.history (s.history.change (.add entry)).entries] s'
  | clear {s s' : Session} (h : s.changeHistory .clear = (s', .ok ())) :
      Trace s [.history []] s'
  | trans {s s' s'' : Session} {us us' : List Update} (h : Trace s us s') (h' : Trace s' us' s'') :
      Trace s (us ++ us') s''

variable {s s' s'' : Session} {us : List Update}

/-- What every step preserves, a trace does. -/
theorem Trace.preserves {P : Session → Prop} (hstep : ∀ {s s'}, Step s s' → P s → P s')
    (h : Trace s us s') (hs : P s) : P s' := by
  induction h with
  | quiet h _ _ => exact hstep h hs
  | save h => exact hstep (.save h) hs
  | record hentry h => exact hstep (.record hentry h) hs
  | clear h => exact hstep (.clear h) hs
  | trans _ _ ih ih' => exact ih' (ih hs)

/-! ### Traces without updates -/

/-- The switches are set, and nothing else that a session keeps is touched. -/
theorem trace_switch (voice touch learning : Bool)
    (hsettings : s'.settings = { s.settings with
      voiceEnabled := voice, touchEnabled := touch, learning := learning })
    (hpreferences : s'.preferences = s.preferences) (hhistory : s'.history = s.history) :
    Trace s [] s' :=
  .quiet (.switch voice touch learning hsettings hpreferences hhistory) hpreferences hhistory

/-- What leaves all three alone sets the switches as they are. -/
theorem trace_of_eq (hsettings : s'.settings = s.settings)
    (hpreferences : s'.preferences = s.preferences) (hhistory : s'.history = s.history) :
    Trace s [] s' :=
  trace_switch s.settings.voiceEnabled s.settings.touchEnabled s.settings.learning hsettings
    hpreferences hhistory

theorem trace_refl (s : Session) : Trace s [] s := trace_of_eq rfl rfl rfl

theorem trace_vibrate (s : Session) : Trace s [] s.vibrate := by
  unfold vibrate
  split_ifs <;> exact trace_of_eq rfl rfl rfl

/-! ### Attempts to write -/

/-- After an attempt to write nothing that is kept is touched. -/
theorem kept_settle (s : Session) (warning : Text → Text) (failure : Option WriteError) :
    (s.settle warning failure).1.settings = s.settings ∧
      (s.settle warning failure).1.preferences = s.preferences ∧
      (s.settle warning failure).1.history = s.history := by
  rcases failure with - | reason | e <;> exact ⟨rfl, rfl, rfl⟩

/-- The history is changed also where it cannot be saved. -/
theorem history_changeHistory (s : Session) (c : History.Change) :
    (s.changeHistory c).1.history = s.history.change c :=
  congrArg Calculation.history (s.calculation_changeHistory c)

theorem settings_changeHistory (s : Session) (c : History.Change) :
    (s.changeHistory c).1.settings = s.settings := (kept_settle _ _ _).1

theorem settings_saveSettings (s : Session) : s.saveSettings.1.settings = s.settings := by
  unfold saveSettings
  split
  · rfl
  · exact (kept_settle _ _ _).1

/-! ### Commands -/

theorem history_execute_of_not_isRecord {e : Editor.Effect} (he : e.isRecord = false)
    (s : Session) : (s.execute e).1.history = s.history := by
  refine (congrArg Calculation.history (s.calculation_execute e)).trans ?_
  cases e with
  | record entry => cases he
  | _ => rfl

theorem trace_execute_of_not_isRecord {e : Editor.Effect} (he : e.isRecord = false)
    (s : Session) : Trace s [] (s.execute e).1 := by
  cases e with
  | vibrate => exact trace_vibrate s
  | record entry => cases he
  | _ => exact trace_of_eq rfl rfl rfl

theorem updatesOf_cons_of_not_isRecord {e : Editor.Effect} (he : e.isRecord = false)
    (log : History.Log) (es : List Editor.Effect) : updatesOf log (e :: es) = updatesOf log es := by
  cases e with
  | record entry => cases he
  | _ => rfl

theorem trace_executeAll {effects : List Editor.Effect} (h : Editor.Records effects)
    (hall : s.executeAll effects = (s', .ok ())) : Trace s (updatesOf s.history effects) s' := by
  induction effects generalizing s with
  | nil =>
    cases hall
    exact trace_refl _
  | cons effect rest ih =>
    rw [executeAll] at hall
    rcases heffect : s.execute effect with ⟨s₁, e | _⟩ <;> rw [heffect] at hall
    · cases hall
    · have hrest := ih (fun entry hentry => h entry (List.mem_cons_of_mem _ hentry)) hall
      have hstate : (s.execute effect).1 = s₁ := congrArg Prod.fst heffect
      rcases hrecord : effect.isRecord
      · have hhistory : s₁.history = s.history :=
          hstate ▸ history_execute_of_not_isRecord hrecord s
        rw [updatesOf_cons_of_not_isRecord hrecord, ← hhistory]
        exact (hstate ▸ trace_execute_of_not_isRecord hrecord s).trans hrest
      · obtain ⟨entry, rfl⟩ : ∃ entry, effect = .record entry := by
          cases effect <;> first | exact ⟨_, rfl⟩ | cases hrecord
        have hhistory : s₁.history = s.history.change (.add entry) :=
          hstate ▸ history_changeHistory s (.add entry)
        rw [hhistory] at hrest
        exact (Trace.record (h entry (List.mem_cons_self ..)) heffect).trans hrest

theorem trace_command {c : Editor.Command} (h : s.move (.command c) = (s', .ok ())) :
    Trace s (s.moveUpdates (.command c)) s' := by
  rw [move] at h
  rcases hpress : Editor.press s.settings.learning s.editor c with e | o
  · rw [handle_of_error hpress] at h
    cases h
  · rw [handle_of_press hpress, Result.as_as, Result.as_unit] at h
    rw [moveUpdates, hpress]
    have heditor : Trace s [] { s with editor := o.1 } := trace_of_eq rfl rfl rfl
    exact heditor.trans (trace_executeAll (Editor.records_press hpress) h)

/-! ### Switches -/

/-- The settings that are saved are those after the save. -/
theorem Trace.saveSettings (h : Trace s [] s') (hsave : s'.saveSettings = (s'', .ok ())) :
    Trace s [.settings s''.settings] s'' := by
  have hsettings := s'.settings_saveSettings
  rw [hsave] at hsettings
  rw [hsettings]
  exact h.trans (.save hsave)

theorem trace_switchVoice (s : Session) (events : List Speech.Event) :
    Trace s [] (s.switchVoice.emit events) := by
  unfold switchVoice
  split_ifs
  · exact trace_switch false s.settings.touchEnabled s.settings.learning rfl rfl rfl
  · exact trace_switch true s.settings.touchEnabled s.settings.learning rfl rfl rfl

/-! ### Actions -/

/-- Another speed touches nothing else that is kept. -/
theorem kept_of_setSpeed {v : Json} (h : s.setSpeed v = .ok s') :
    (∃ x, s'.settings = { s.settings with speed := .float x }) ∧
      s'.preferences = s.preferences ∧ s'.history = s.history := by
  rw [Session.setSpeed, Settings.setSpeed] at h
  rcases hv : v.toSpeed with e | x <;> rw [hv] at h <;> cases h
  exact ⟨⟨_, rfl⟩, rfl, rfl⟩

theorem trace_setSpeed {v : Json} (h : s.setSpeed v = .ok s') : Trace s [] s' :=
  .quiet (.speed h) (kept_of_setSpeed h).2.1 (kept_of_setSpeed h).2.2

/-- **A move is a number of steps with the updates that it calls for.** -/
theorem trace_move {m : Move} (h : s.move m = (s', .ok ())) : Trace s (s.moveUpdates m) s' := by
  cases m with
  | command c => exact trace_command h
  | clear => exact .clear h
  | toggleVoice =>
    rw [moveUpdates, show s.toggleVoice.1 = s' from congrArg Prod.fst h]
    exact (trace_switchVoice s _).saveSettings h
  | toggleTouch =>
    rw [moveUpdates, show s.toggleTouch.1 = s' from congrArg Prod.fst h]
    refine Trace.saveSettings ?_ h
    exact trace_switch s.settings.voiceEnabled (!s.settings.touchEnabled) s.settings.learning
      rfl rfl rfl
  | toggleLearning =>
    rw [moveUpdates, show s.toggleLearning.1 = s' from congrArg Prod.fst h]
    refine Trace.saveSettings ?_ h
    exact trace_switch s.settings.voiceEnabled s.settings.touchEnabled (!s.settings.learning)
      rfl rfl rfl
  | speed value =>
    rw [move] at h
    rcases hspeed : s.setSpeed value with e | s₁ <;> rw [hspeed] at h <;> cases h
    · exact trace_refl s
    · exact trace_setSpeed hspeed
  | _ =>
    cases h
    exact trace_of_eq rfl rfl rfl

theorem respects_trace : Respects (fun _ => True) Trace where
  refl := trace_refl
  trans := .trans
  move _ := trace_move

/-- **Actions are a number of steps with the updates that they call for**, also those that are
refused, unless a document breaks off. -/
theorem trace_performAll {as : List Action} (h : s.Unbroken as) :
    Trace s (s.updatesAll as) (s.performAll as) :=
  respects_trace.performAll (fun _ _ => trivial) h

/-- **What every step preserves, any number of actions do.** -/
theorem performAll_induction {P : Session → Prop} (h : ∀ {s s'}, Step s s' → P s → P s')
    (hs : P s) {as : List Action} (has : s.Unbroken as) : P (s.performAll as) :=
  (trace_performAll has).preserves h hs

end Session

end SpokenCalculator
