import SpokenCalculator.Proofs.Session.Steps
import SpokenCalculator.Proofs.Session.Writable

/-!
# What is on file after any number of updates

The settings and the history are kept in one document, which is written anew by each of them.  As
long as it does not break off, what it holds follows from the updates alone: the history is the one
of the session as soon as it was changed once, the settings are those that were saved last, and
every other value is the one that was found.

* `savedSettings`: the settings that were saved last;
* `Update.IsWritten`: the updates for which the document is written;
* `Session.OnFile`: what is on file after updates;
* `Trace.onFile`: more updates;
* `exists_onFile_performAll`: what is on file after any number of actions.
-/

namespace SpokenCalculator

open Preferences History

/-! ### Updates -/

namespace Update

/-- The settings, if these are what is to be kept. -/
def settings? : Update → Option Settings
  | .settings s => some s
  | .history _ => none

/-- The history is to be kept. -/
def isHistory : Update → Bool
  | .history _ => true
  | .settings _ => false

/-- The document is written for an update, on which given values were found: for settings always,
and for a history unless there is none and none was found. -/
def isWritten (found : Fields) : Update → Bool
  | .settings _ => true
  | .history entries => !entries.isEmpty || (found.get? Store.historyKey).isSome

theorem any_isWritten_append_history (found : Fields) (us : List Update) (entries : List Codes) :
    (us ++ [Update.history entries]).any (isWritten found) = true ↔
      us.any (isWritten found) = true ∨ entries ≠ [] ∨ Store.historyKey ∈ found.keys := by
  simp [isWritten, ← Fields.isSome_get?_iff]

end Update

/-- The settings that were saved last. -/
def savedSettings (us : List Update) : Option Settings := us.reverse.findSome? Update.settings?

@[simp] theorem savedSettings_append_history (us : List Update) (entries : List Codes) :
    savedSettings (us ++ [.history entries]) = savedSettings us := by
  rw [savedSettings, List.reverse_concat, List.findSome?_cons]
  rfl

@[simp] theorem savedSettings_append_settings (us : List Update) (settings : Settings) :
    savedSettings (us ++ [.settings settings]) = some settings := by
  rw [savedSettings, List.reverse_concat, List.findSome?_cons]
  rfl

/-- A history as it is stored: as a text, or not at all if it is empty. -/
def storedHistory (entries : List Codes) : Option Json :=
  if entries.isEmpty then none else some (.string (join entries))

namespace Session

/-! ### The file -/

/-- What is on file after updates on a document with given values: the history of the session once
it was changed, the settings that were saved last, and otherwise what was found. -/
structure OnFile (d : Document) (found : Fields) (us : List Update) (s : Session) (store : Store) :
    Prop where
  preferences : s.preferences = some store
  others : ∀ key, key ≠ Store.historyKey → key ∉ Settings.storedKeys →
    store.get? key = found.get? key
  history : store.get? Store.historyKey =
    if us.any Update.isHistory then storedHistory s.history.entries
    else found.get? Store.historyKey
  settings : ∀ key ∈ Settings.storedKeys, store.get? key =
    (((savedSettings us).map Settings.stored).getD found).get? key
  written : us.any (Update.isWritten found) = true → store.Written
  untouched : us.any (Update.isWritten found) = false →
    store.document = d ∧ store.values = found

variable {d : Document} {found : Fields} {us us' : List Update} {s s' : Session} {store : Store}

theorem OnFile.ne_folder (h : OnFile d found us s store) (hd : d ≠ .folder) :
    store.document ≠ .folder := by
  rcases hany : us.any (Update.isWritten found) with - | -
  · rw [(h.untouched hany).1]
    exact hd
  · exact (h.written hany).ne_folder

/-- The file is about the preferences and the history of a session. -/
theorem OnFile.of_eq (h : OnFile d found us s store) (hpreferences : s'.preferences = s.preferences)
    (hhistory : s'.history = s.history) : OnFile d found us s' store where
  preferences := hpreferences.trans h.preferences
  others := h.others
  history := hhistory ▸ h.history
  settings := h.settings
  written := h.written
  untouched := h.untouched

/-- A start leaves the document as it was found. -/
theorem StartedOn.onFile {engine : Speech.Engine} {rooms : Rooms} {base : Settings} {path : Text}
    (h : StartedOn engine rooms base path d s) :
    OnFile d (d.fields rooms.load) [] s ⟨path, d.fields rooms.load, d⟩ where
  preferences := h.preferences
  others := fun _ _ _ => rfl
  history := rfl
  settings := fun _ _ => rfl
  written := fun hany => absurd hany Bool.false_ne_true
  untouched := fun _ => ⟨rfl, rfl⟩

/-- Settings that are saved leave the history alone. -/
theorem OnFile.saveSettings (h : OnFile d found us s store) (hd : d ≠ .folder)
    (hsave : s.saveSettings = (s', .ok ())) :
    ∃ store', OnFile d found (us ++ [.settings s.settings]) s' store' := by
  obtain ⟨hfailure, rfl⟩ := saveSettings_saved h.preferences (h.ne_folder hd) hsave
  have hget := Settings.get?_save hfailure
  refine ⟨_, rfl, ?_, ?_, ?_, fun _ => Settings.written_save hfailure, ?_⟩
  · intro key hne hkey
    rw [hget, if_neg hkey]
    exact h.others key hne hkey
  · rw [Settings.get?_historyKey_save hfailure, h.history, List.any_append]
    simp only [List.any_cons, List.any_nil, Update.isHistory, Bool.or_false]
  · intro key hkey
    rw [hget, if_pos hkey, savedSettings_append_settings]
    rfl
  · intro hany
    rw [List.any_append, Bool.or_eq_false_iff] at hany
    cases hany.2

/-- A change of the history leaves all but the history alone. -/
theorem OnFile.changeHistory (h : OnFile d found us s store) (hd : d ≠ .folder) {c : Change}
    (hchange : s.changeHistory c = (s', .ok ())) :
    ∃ store', OnFile d found (us ++ [.history (s.history.change c).entries]) s' store' := by
  obtain ⟨hfailure, rfl⟩ := changeHistory_saved h.preferences (h.ne_folder hd) hchange
  have hcases := Store.saveHistory_cases hfailure
  refine ⟨_, rfl, ?_, ?_, ?_, ?_, ?_⟩
  · intro key hne hkey
    rw [Store.get?_saveHistory_of_ne hne]
    exact h.others key hne hkey
  · rw [Store.get?_historyKey_saveHistory, List.any_append]
    simp only [List.any_cons, List.any_nil, Update.isHistory, Bool.or_false, Bool.or_true, if_true]
    rfl
  · intro key hkey
    have hne : key ≠ Store.historyKey := by
      rintro rfl
      revert hkey
      decide
    rw [Store.get?_saveHistory_of_ne hne, savedSettings_append_history]
    exact h.settings key hkey
  · intro hany
    rcases hcases with ⟨-, hwritten⟩ | ⟨hnil, hkey, hsame⟩
    · exact hwritten
    · -- there was nothing to remove, so that an earlier update was written
      rw [hsame]
      refine h.written ?_
      by_contra hnot
      rw [(h.untouched (Bool.eq_false_iff.2 hnot)).2] at hkey
      rcases (Update.any_isWritten_append_history ..).1 hany with hus | hne | hfound
      · exact hnot hus
      · exact hne hnil
      · exact hkey hfound
  · intro hany
    rw [Bool.eq_false_iff, ne_eq, Update.any_isWritten_append_history, not_or] at hany
    obtain ⟨hdocument, hvalues⟩ := h.untouched (Bool.eq_false_iff.2 hany.1)
    rcases hcases with ⟨hcause, -⟩ | ⟨-, -, hsame⟩
    · rw [hvalues] at hcause
      exact absurd hcause hany.2
    · rw [hsame]
      exact ⟨hdocument, hvalues⟩

/-- **More updates change what is on file by themselves alone.** -/
theorem Trace.onFile (ht : Trace s us' s') (hd : d ≠ .folder)
    (h : ∃ store, OnFile d found us s store) : ∃ store, OnFile d found (us ++ us') s' store := by
  induction ht generalizing us with
  | quiet _ hpreferences hhistory =>
    obtain ⟨store, h⟩ := h
    rw [List.append_nil]
    exact ⟨store, h.of_eq hpreferences hhistory⟩
  | save hsave =>
    obtain ⟨store, h⟩ := h
    exact h.saveSettings hd hsave
  | record _ hchange =>
    obtain ⟨store, h⟩ := h
    exact h.changeHistory hd hchange
  | clear hchange =>
    obtain ⟨store, h⟩ := h
    exact h.changeHistory hd hchange
  | trans _ _ ih ih' =>
    rw [← List.append_assoc]
    exact ih' (ih h)

/-- **A session can be started on every document that can be used, and after any number of actions
the file holds what the updates say**, as long as it does not break off where it is written. -/
theorem exists_onFile_performAll {rooms : Rooms} {base : Settings}
    (huse : d.IsUsable rooms.load base) (hd : d ≠ .folder) (engine : Speech.Engine)
    (path : Text) :
    ∃ s, (openOn engine rooms base path d).2 = .ok s ∧
      ∀ as, s.Unbroken as →
        ∃ store, OnFile d (d.fields rooms.load) (s.updatesAll as) (s.performAll as) store := by
  obtain ⟨s, hs⟩ := exists_openOn_of_isUsable huse engine path
  have hstart := (startedOn_of_openOn engine rooms base path d hs).2.onFile
  exact ⟨s, hs, fun as has => (trace_performAll has).onFile hd ⟨_, hstart⟩⟩

/-- A document with a value that no session uses, and a history. -/
def darkTheme : Document :=
  .text "\x7b\"theme\": \"dark\", \"calc_history\": \"1 + 1 = 2\"\x7d".toList

theorem read_darkTheme :
    ∃ t, darkTheme = .text t ∧
      Json.read Rooms.shell.load t = .ok (.object [("theme".toList, .string "dark".toList),
        (Store.historyKey, .string "1 + 1 = 2".toList)]) := by
  refine ⟨_, rfl, ?_⟩
  decide +kernel

theorem fields_darkTheme :
    darkTheme.fields Rooms.shell.load = [(Text.codes "theme".toList, .string "dark".toList),
      (Store.historyKey, .string "1 + 1 = 2".toList)] := by
  obtain ⟨t, ht, hread⟩ := read_darkTheme
  rw [ht, Document.fields, hread]

theorem isUsable_darkTheme : darkTheme.IsUsable Rooms.shell.load .initial where
  shallow := by
    obtain ⟨t, ht, hread⟩ := read_darkTheme
    rw [ht]
    exact not_isDeep_text hread
  speed := by
    intro n hn
    rw [fields_darkTheme] at hn
    cases hn
    trivial
  history := by
    intro v hv
    rw [fields_darkTheme] at hv
    cases hv
    exact Or.inl ⟨_, rfl⟩

theorem writes_darkTheme :
    Json.Writes Rooms.shell.write (.object (darkTheme.fields Rooms.shell.load)) := by
  rw [fields_darkTheme]
  have hkeys : ∀ k ∈ Fields.keys [(Text.codes "theme".toList, Json.string "dark".toList),
      (Store.historyKey, .string "1 + 1 = 2".toList)], k.IsText :=
    List.forall_mem_cons.2
      ⟨Codes.isText_codes _, List.forall_mem_singleton.2 (Codes.isText_codes _)⟩
  refine .object hkeys (n := 985) (List.forall_mem_cons.2 ⟨?_, List.forall_mem_singleton.2 ?_⟩)
  · exact .string _ (Codes.isText_codes _)
  · exact .string _ (Codes.isText_codes _)

/-- Touch is switched and the history is cleared: what else was found stays on file. -/
theorem exists_onFile_darkTheme :
    ∃ s store, (openOn .sound .shell .initial "prefs.json".toList darkTheme).2 = .ok s ∧
      (s.performAll [.line ['t'], .line "hc".toList]).preferences = some store ∧
      store.get? "theme".toList = some (.string "dark".toList) ∧
      store.get? Store.historyKey = none ∧
      store.get? Settings.touchKey = some (.bool false) ∧ store.Written := by
  obtain ⟨s, hs, honFile⟩ := exists_onFile_performAll isUsable_darkTheme Document.noConfusion
    .sound "prefs.json".toList
  obtain ⟨store, h⟩ := honFile [.line ['t'], .line "hc".toList]
    (unbroken_of_openOn hs (Or.inr writes_darkTheme) rfl _)
  have htoggle : Request.ofLine ['t'] = .toggleTouch := by decide +kernel
  have hclear : Request.ofLine "hc".toList = .clearHistory := by decide +kernel
  have hupdates : s.updatesAll [.line ['t'], .line "hc".toList] =
      [.settings s.toggleTouch.1.settings, .history []] := by
    simp only [updatesAll, updates, Action.moves, htoggle, hclear, Request.moves,
      movesUpdates_singleton]
    rw [movesUpdates]
    rcases (s.perform (.line ['t'])).1.move .clear with ⟨s', e | _⟩ <;> rfl
  have hentries (s : Session) : (s.perform (.line "hc".toList)).1.history.entries = [] := by
    have hhistory := congrArg Log.entries (s.history_changeHistory .clear)
    rw [(s.perform_eq_moveAll _).1, Action.moves, hclear, Request.moves, moveAll, move]
    rcases hchange : s.changeHistory .clear with ⟨s', e | _⟩ <;> rw [hchange] at hhistory <;>
      exact hhistory
  have htouch : s.toggleTouch.1.settings.touchEnabled = false := by
    have hstart := (startedOn_of_openOn _ _ _ _ _ hs).2.touchEnabled_eq
    rw [fields_darkTheme] at hstart
    rw [toggleTouch, settings_saveSettings]
    exact congrArg (!·) hstart
  rw [hupdates] at h
  refine ⟨s, store, hs, h.preferences, ?_, ?_, ?_, h.written rfl⟩
  · rw [h.others _ (by decide) (by decide), fields_darkTheme]
    rfl
  · rw [h.history, performAll_cons, performAll_cons, performAll_nil, hentries]
    rfl
  · rw [h.settings _ (by decide), ← htouch]
    rfl

end Session

end SpokenCalculator
