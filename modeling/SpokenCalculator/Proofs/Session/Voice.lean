import SpokenCalculator.Proofs.Session.OnFile
import SpokenCalculator.Session.Run

/-!
# Whether speech is on in the next session

Without an engine a session begins with speech off, whatever the settings say, and every switch of
touch or lessons saves this with all the others.  Where speech itself is never switched, the
settings that are loaded afterwards are those of before unless this has happened.

* `Session.Steady`: speech stays on or off, also in what is saved;
* `steady_move`, `steady_performAll`: it does, if it is never switched;
* `Session.InSync`, `Step.inSync`: the values on file are those in memory;
* `Step.folder`: a folder in the place of the document stays one;
* `loadedVoice`: whether speech is on in settings that are loaded from a document;
* `loadedVoice_performAll`: whether it is after any number of actions.
-/

namespace SpokenCalculator

open Preferences

/-! ### A folder in the place of the document -/

namespace Preferences.Store

variable {store : Store}

/-- Other values are not written to a folder. -/
theorem write_values_of_folder (h : store.document = .folder) (m : ℕ) (values : Fields) :
    write m { store with values := values } =
      ⟨{ store with values := values }, some (.refused (folderReason store.path))⟩ :=
  write_of_folder (by exact h) m

theorem document_saveHistory_of_folder (h : store.document = .folder) (m : ℕ)
    (entries : List Codes) : (store.saveHistory m entries).state.document = .folder := by
  unfold saveHistory remove put
  split_ifs
  · rw [write_values_of_folder h]
    exact h
  · exact h
  · rw [write_values_of_folder h]
    exact h

end Preferences.Store

/-- The first value that is put in place is refused. -/
theorem Settings.document_save_of_folder {store : Store} (h : store.document = .folder) (m : ℕ)
    (s : Settings) : (s.save m store).state.document = .folder := by
  have hput : store.put m voiceKey (.bool s.voiceEnabled) = _ :=
    Store.write_values_of_folder h m _
  rw [save, stored, putAll_cons_of_some (by rw [hput]), hput]
  exact h

namespace Session

/-! ### Speech as it is -/

/-- Speech stays on or off, also in the settings that are to be kept. -/
structure Steady (s : Session) (us : List Update) (s' : Session) : Prop where
  voice : s'.settings.voiceEnabled = s.settings.voiceEnabled
  kept : ∀ settings, .settings settings ∈ us → settings.voiceEnabled = s.settings.voiceEnabled

variable {s s' s'' : Session} {us us' : List Update}

theorem Steady.trans (h : Steady s us s') (h' : Steady s' us' s'') : Steady s (us ++ us') s'' where
  voice := h'.voice.trans h.voice
  kept := by
    intro settings hmem
    rcases List.mem_append.1 hmem with hmem | hmem
    · exact h.kept settings hmem
    · exact (h'.kept settings hmem).trans h.voice

theorem steady_of_eq (h : s'.settings.voiceEnabled = s.settings.voiceEnabled) : Steady s [] s' :=
  ⟨h, fun _ hmem => absurd hmem List.not_mem_nil⟩

/-- The settings are saved with speech as it is. -/
theorem Steady.saveSettings (h : Steady s [] s') :
    Steady s [.settings s'.saveSettings.1.settings] s'.saveSettings.1 := by
  have hvoice : s'.saveSettings.1.settings.voiceEnabled = s.settings.voiceEnabled := by
    rw [settings_saveSettings, h.voice]
  refine ⟨hvoice, fun settings hmem => ?_⟩
  cases List.mem_singleton.1 hmem
  exact hvoice

/-- Changes of the history leave the settings alone. -/
theorem steady_of_isHistory (hsettings : s'.settings = s.settings)
    (hus : ∀ u ∈ us, u.isHistory = true) : Steady s us s' :=
  ⟨by rw [hsettings], fun _ hmem => absurd (hus _ hmem) Bool.false_ne_true⟩

/-! ### Actions -/

theorem settings_executeAll (effects : List Editor.Effect) (s : Session) :
    (s.executeAll effects).1.settings = s.settings := by
  induction effects generalizing s with
  | nil => rfl
  | cons effect rest ih =>
    have heffect : (s.execute effect).1.settings = s.settings := by
      cases effect with
      | vibrate =>
        rw [execute, vibrate]
        split_ifs <;> rfl
      | record entry => exact settings_changeHistory s (.add entry)
      | _ => rfl
    rw [executeAll, ← heffect]
    rcases s.execute effect with ⟨s', e | _⟩
    · rfl
    · exact ih s'

theorem isHistory_updatesOf (log : History.Log) (effects : List Editor.Effect) :
    ∀ u ∈ updatesOf log effects, u.isHistory = true := by
  induction effects generalizing log with
  | nil => exact fun u hu => absurd hu List.not_mem_nil
  | cons effect rest ih =>
    cases effect with
    | record entry => exact List.forall_mem_cons.2 ⟨rfl, ih _⟩
    | _ => exact ih log

theorem steady_command (s : Session) (c : Editor.Command) :
    Steady s (s.moveUpdates (.command c)) (s.move (.command c)).1 := by
  rw [moveUpdates, move]
  rcases hpress : Editor.press s.settings.learning s.editor c with e | o
  · rw [handle_of_error hpress]
    exact steady_of_eq rfl
  · rw [handle_of_press hpress, Result.as_as, Result.as_unit]
    exact steady_of_isHistory (settings_executeAll o.2 _) (isHistory_updatesOf _ _)

/-- No move but one switches speech. -/
theorem steady_move {m : Move} (hm : m ≠ .toggleVoice) (s : Session) :
    Steady s (s.moveUpdates m) (s.move m).1 := by
  cases m with
  | command c => exact steady_command s c
  | clear =>
    exact steady_of_isHistory (settings_changeHistory s .clear) (List.forall_mem_singleton.2 rfl)
  | toggleVoice => exact absurd rfl hm
  | toggleTouch => exact Steady.saveSettings (steady_of_eq rfl)
  | toggleLearning => exact Steady.saveSettings (steady_of_eq rfl)
  | speed value =>
    rw [move]
    rcases hspeed : s.setSpeed value with e | s'
    · exact steady_of_eq rfl
    · obtain ⟨⟨x, hsettings⟩, -⟩ := kept_of_setSpeed hspeed
      exact steady_of_eq (by rw [hsettings])
  | _ => exact steady_of_eq rfl

theorem respects_steady : Respects (· ≠ .toggleVoice) Steady where
  refl _ := steady_of_eq rfl
  trans := Steady.trans
  move {s _ _} hm h := by
    have hmove := steady_move hm s
    rw [h] at hmove
    exact hmove

/-- **Speech stays on or off, also in what is saved, if it is never switched.** -/
theorem steady_performAll {as : List Action} (h : .toggleVoice ∉ s.madeAll as)
    (has : s.Unbroken as) : Steady s (s.updatesAll as) (s.performAll as) :=
  respects_steady.performAll (fun _ hmem heq => h (heq ▸ hmem)) has

/-! ### What is on file -/

theorem mem_of_savedSettings {settings : Settings} (h : savedSettings us = some settings) :
    .settings settings ∈ us := by
  obtain ⟨u, hmem, hu⟩ := List.exists_of_findSome?_eq_some h
  cases u with
  | history => cases hu
  | settings settings' =>
    cases hu
    exact List.mem_reverse.1 hmem

/-- The values on file are those in memory, and the speed can be saved among them. -/
structure InSync (room : ℕ) (store : Store) (s : Session) : Prop where
  preferences : s.preferences = some store
  synced : store.Synced room
  speed : s.settings.speed.InRange

variable {store : Store} {room : ℕ}

/-- Every step keeps the values on file as they are in memory. -/
theorem Step.inSync (hstep : Step s s') (hroom : 0 < room) (h : ∃ store, s.InSync room store) :
    ∃ store, s'.InSync room store := by
  obtain ⟨store, h⟩ := h
  have hhistory {c : History.Change} (hchange : s.changeHistory c = (s', .ok ())) :
      ∃ store', s'.InSync room store' := by
    obtain ⟨hfailure, rfl⟩ := changeHistory_saved h.preferences h.synced.writable hchange
    exact ⟨_, rfl, Store.Synced.saveHistory hroom h.synced hfailure, h.speed⟩
  cases hstep with
  | switch voice touch learning hsettings hpreferences _ =>
    exact ⟨store, hpreferences.trans h.preferences, h.synced, by rw [hsettings]; exact h.speed⟩
  | speed hspeed =>
    obtain ⟨⟨x, hsettings⟩, hpreferences, -⟩ := kept_of_setSpeed hspeed
    exact ⟨store, hpreferences.trans h.preferences, h.synced, by rw [hsettings]; trivial⟩
  | save hsave =>
    obtain ⟨hfailure, rfl⟩ := saveSettings_saved h.preferences h.synced.writable hsave
    exact ⟨_, rfl, Settings.synced_save hroom h.synced h.speed hfailure, h.speed⟩
  | record _ hchange => exact hhistory hchange
  | clear hchange => exact hhistory hchange

theorem StartedOn.inSync {engine : Speech.Engine} {rooms : Rooms} {base : Settings} {path : Text}
    {d : Document} (h : StartedOn engine rooms base path d s)
    (huse : d.IsUsable rooms.load base) (hfolder : d ≠ .folder) (hspeed : base.speed.InRange) :
    s.InSync rooms.load ⟨path, d.fields rooms.load, d⟩ := by
  refine ⟨h.preferences, Store.synced_of_document path hfolder huse.shallow, ?_⟩
  rw [h.speed_eq, Settings.startSpeed]
  split
  · trivial
  · exact hspeed

/-- No step writes over a folder. -/
theorem Step.folder (hstep : Step s s')
    (h : ∃ store, s.preferences = some store ∧ store.document = .folder) :
    ∃ store, s'.preferences = some store ∧ store.document = .folder := by
  obtain ⟨store, hstore, hfolder⟩ := h
  have hhistory {c : History.Change} (hchange : s.changeHistory c = (s', .ok ())) :
      ∃ store', s'.preferences = some store' ∧ store'.document = .folder := by
    refine ⟨(store.saveHistory s.rooms.history (s.history.change c).entries).state, ?_,
      Store.document_saveHistory_of_folder hfolder _ _⟩
    rw [← show (s.changeHistory c).1 = s' from congrArg Prod.fst hchange, Session.changeHistory]
    simp only [(kept_settle _ _ _).2.1, History.keep, shelf, hstore]
  cases hstep with
  | switch voice touch learning _ hpreferences _ =>
    exact ⟨store, hpreferences.trans hstore, hfolder⟩
  | speed hspeed => exact ⟨store, (kept_of_setSpeed hspeed).2.1.trans hstore, hfolder⟩
  | save hsave =>
    refine ⟨(s.settings.save s.rooms.settings store).state, ?_,
      Settings.document_save_of_folder hfolder _ _⟩
    rw [← show s.saveSettings.1 = s' from congrArg Prod.fst hsave, Session.saveSettings]
    simp only [hstore, (kept_settle _ _ _).2.1]
  | record _ hchange => exact hhistory hchange
  | clear hchange => exact hhistory hchange

/-! ### The next session -/

/-- Whether speech is on in settings that are loaded from a document, with given room where it is
read. -/
def loadedVoice (room : ℕ) (fresh : Settings) (path : Text) (d : Document) :
    Except DepthError Bool :=
  (Store.load room path d).map fun r => (fresh.load r.1.values).1.voiceEnabled

theorem loadedVoice_of_not_isDeep (fresh : Settings) (path : Text) {d : Document}
    (h : ¬ d.IsDeep room) : loadedVoice room fresh path d =
      .ok (Settings.switch (d.fields room) Settings.voiceKey fresh.voiceEnabled) := by
  rcases valuesOf_cases room path d with ⟨hdeep, -⟩ | ⟨-, warnings, hvalues⟩
  · exact absurd hdeep h
  · rw [loadedVoice, Store.load, hvalues]
    rcases fresh.load_cases (d.fields room) with ⟨-, hload⟩ | ⟨-, more, hload⟩
    · exact congrArg (fun r => Except.ok r.1.voiceEnabled) hload
    · exact congrArg (fun r => Except.ok r.1.voiceEnabled) hload

section Started

variable {engine : Speech.Engine} {rooms : Rooms} {base : Settings} {path : Text} {d : Document}
  {as : List Action}

/-- Speech is on as it was in the settings that were saved last. -/
theorem loadedVoice_performAll (hs : (openOn engine rooms base path d).2 = .ok s)
    (hspeed : base.speed.InRange) (hmade : .toggleVoice ∉ s.madeAll as) (has : s.Unbroken as)
    (fresh : Settings) :
    loadedVoice rooms.load fresh path (Program.documentOf (s.performAll as) d) =
      .ok (if d = .folder ∨ savedSettings (s.updatesAll as) = none then
          Settings.switch (d.fields rooms.load) Settings.voiceKey fresh.voiceEnabled
        else
          engine.start.isNone &&
            Settings.switch (d.fields rooms.load) Settings.voiceKey base.voiceEnabled) := by
  obtain ⟨huse, hstarted⟩ := startedOn_of_openOn engine rooms base path d hs
  have hdocument : ∀ {store : Store}, (s.performAll as).preferences = some store →
      Program.documentOf (s.performAll as) d = store.document := by
    intro store hstore
    rw [Program.documentOf, hstore]
    rfl
  by_cases hfolder : d = .folder
  · obtain ⟨store, hstore, hafter⟩ := performAll_induction Step.folder
      ⟨_, hstarted.preferences, hfolder⟩ has
    rw [hdocument hstore, hafter, if_pos (Or.inl hfolder), ← hfolder]
    exact loadedVoice_of_not_isDeep fresh path huse.shallow
  · obtain ⟨store, hsync⟩ := performAll_induction
      (P := fun s => ∃ store, s.InSync rooms.load store) (fun hstep => hstep.inSync rooms.load_pos)
      ⟨_, hstarted.inSync huse hfolder hspeed⟩ has
    obtain ⟨store', hfile⟩ := (trace_performAll has).onFile hfolder ⟨_, hstarted.onFile⟩
    cases Option.some.inj (hfile.preferences.symm.trans hsync.preferences)
    have hget := hfile.settings Settings.voiceKey (List.mem_cons_self ..)
    rw [hdocument hsync.preferences, loadedVoice_of_not_isDeep fresh path hsync.synced.shallow,
      hsync.synced.fields, Settings.switch]
    rw [Store.get?] at hget
    rw [hget]
    rcases hsaved : savedSettings (s.updatesAll as) with - | settings
    · rw [List.nil_append, hsaved, if_pos (Or.inr rfl)]
      rfl
    · have hvoice := (steady_performAll hmade has).kept settings (mem_of_savedSettings hsaved)
      rw [hstarted.settings] at hvoice
      rw [List.nil_append, hsaved, if_neg (by simp [hfolder])]
      exact congrArg Except.ok hvoice

/-- **Whether speech is on in the next session, after any number of actions that do not switch it.**
It is as it would have been before exactly where no settings were saved, or those that a session
begins with say so; these have it off if there is no engine.  The document is read where there is as
much room as before, and did not break off where it was written. -/
theorem exists_loadedVoice_performAll (hs : (openOn engine rooms base path d).2 = .ok s)
    (hspeed : base.speed.InRange) (hmade : .toggleVoice ∉ s.madeAll as) (has : s.Unbroken as)
    (fresh : Settings) :
    ∃ before after, loadedVoice rooms.load fresh path d = .ok before ∧
      loadedVoice rooms.load fresh path (Program.documentOf (s.performAll as) d) = .ok after ∧
      (after = before ↔ d = .folder ∨ savedSettings (s.updatesAll as) = none ∨
        (engine.start.isNone &&
          Settings.switch (d.fields rooms.load) Settings.voiceKey base.voiceEnabled) = before) := by
  have huse := (startedOn_of_openOn engine rooms base path d hs).1
  refine ⟨_, _, loadedVoice_of_not_isDeep fresh path huse.shallow,
    loadedVoice_performAll hs hspeed hmade has fresh, ?_⟩
  rw [← or_assoc]
  split_ifs with hkept
  · exact iff_of_true rfl (Or.inl hkept)
  · exact (or_iff_right hkept).symm

end Started

/-! ### A stored choice -/

/-- A document in which speech is on. -/
def voiceOn : Document := .text "\x7b\"voice_enabled\": true\x7d".toList

theorem fields_voiceOn :
    voiceOn.fields Rooms.shell.load = [(Settings.voiceKey, .bool true)] ∧
      ¬ voiceOn.IsDeep Rooms.shell.load := by
  have hread : Json.read Rooms.shell.load "\x7b\"voice_enabled\": true\x7d".toList =
      .ok (.object [(Settings.voiceKey, .bool true)]) := by
    decide +kernel
  exact ⟨by rw [voiceOn, Document.fields, hread], not_isDeep_text hread⟩

theorem switch_voiceOn (default : Bool) :
    Settings.switch (voiceOn.fields Rooms.shell.load) Settings.voiceKey default = true := by
  rw [fields_voiceOn.1]
  rfl

theorem loadedVoice_voiceOn :
    loadedVoice Rooms.shell.load .initial "prefs.json".toList voiceOn = .ok true := by
  rw [loadedVoice_of_not_isDeep _ _ fields_voiceOn.2, switch_voiceOn]

theorem isUsable_voiceOn : voiceOn.IsUsable Rooms.shell.load .initial where
  shallow := fields_voiceOn.2
  speed := by
    intro n hn
    rw [fields_voiceOn.1] at hn
    cases hn
    trivial
  history := by
    intro v hv
    rw [fields_voiceOn.1] at hv
    cases hv

theorem writes_voiceOn :
    Json.Writes Rooms.shell.write (.object (voiceOn.fields Rooms.shell.load)) := by
  rw [fields_voiceOn.1]
  exact .object (List.forall_mem_singleton.2 (Codes.isText_codes _)) (n := 985)
    (List.forall_mem_singleton.2 (.bool _ true))

theorem madeAll_toggleTouch (s : Session) : s.madeAll [.line ['t']] = [.toggleTouch] := by
  have htoggle : Request.ofLine ['t'] = .toggleTouch := by decide +kernel
  simp only [madeAll, Action.moves, htoggle, Request.moves, made]
  rcases s.move .toggleTouch with ⟨s', e | _⟩ <;> rfl

theorem savedSettings_toggleTouch (s : Session) :
    savedSettings (s.updatesAll [.line ['t']]) = some s.toggleTouch.1.settings := by
  have htoggle : Request.ofLine ['t'] = .toggleTouch := by decide +kernel
  simp only [updatesAll, updates, Action.moves, htoggle, Request.moves, movesUpdates_singleton,
    List.append_nil]
  rfl

/-- With an engine it is still on after touch was switched. -/
theorem exists_loadedVoice_voiceOn :
    ∃ s, (openOn .sound .shell .initial "prefs.json".toList voiceOn).2 = .ok s ∧
      loadedVoice Rooms.shell.load .initial "prefs.json".toList voiceOn = .ok true ∧
      loadedVoice Rooms.shell.load .initial "prefs.json".toList
        (Program.documentOf (s.performAll [.line ['t']]) voiceOn) = .ok true := by
  obtain ⟨s, hs⟩ := exists_openOn_of_isUsable isUsable_voiceOn .sound "prefs.json".toList
  have hmade : .toggleVoice ∉ s.madeAll [.line ['t']] := by
    rw [madeAll_toggleTouch]
    nofun
  obtain ⟨before, after, hbefore, hafter, hsame⟩ := exists_loadedVoice_performAll hs trivial hmade
    (unbroken_of_openOn hs (Or.inr writes_voiceOn) rfl _) .initial
  rw [loadedVoice_voiceOn, Except.ok.injEq] at hbefore
  rw [switch_voiceOn, ← hbefore] at hsame
  exact ⟨s, hs, loadedVoice_voiceOn, hafter.trans (congrArg Except.ok (hsame.2 (.inr (.inr rfl))))⟩

/-- Without an engine it is off after touch was switched. -/
theorem loadedVoice_voiceOn_ne :
    ∃ s, (openOn { Speech.Engine.sound with start := some "init failed".toList } .shell .initial
        "prefs.json".toList voiceOn).2 = .ok s ∧
      .toggleVoice ∉ s.madeAll [.line ['t']] ∧
      loadedVoice Rooms.shell.load .initial "prefs.json".toList voiceOn = .ok true ∧
      loadedVoice Rooms.shell.load .initial "prefs.json".toList
        (Program.documentOf (s.performAll [.line ['t']]) voiceOn) = .ok false := by
  obtain ⟨s, hs⟩ := exists_openOn_of_isUsable isUsable_voiceOn
    { Speech.Engine.sound with start := some "init failed".toList } "prefs.json".toList
  have hmade : .toggleVoice ∉ s.madeAll [.line ['t']] := by
    rw [madeAll_toggleTouch]
    nofun
  have hunbroken : s.Unbroken [.line ['t']] :=
    unbroken_of_openOn hs (Or.inr writes_voiceOn) rfl _
  refine ⟨s, hs, hmade, ?_, ?_⟩
  · exact loadedVoice_voiceOn
  · rw [loadedVoice_performAll hs trivial hmade hunbroken, savedSettings_toggleTouch,
      if_neg (by rintro (h | h) <;> cases h)]
    exact congrArg Except.ok (Bool.false_and _)

end Session

end SpokenCalculator
