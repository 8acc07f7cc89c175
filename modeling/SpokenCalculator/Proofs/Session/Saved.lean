import SpokenCalculator.Proofs.Session.Start
import SpokenCalculator.Session.Line

/-!
# What is saved among the preferences

The settings are saved value by value, and the history as one text or by its absence.  Where neither
fails the document is the text of the values.  On a document that is no folder they fail only where
it breaks off.

* `Store.Written`: the document is the text of the values;
* `Settings.putAll_preserves`: what every value put in place preserves, all of them do;
* `Settings.written_save`, `Settings.get?_save`, `Settings.synced_save`: settings that are saved;
* `Store.get?_historyKey_saveHistory`, `Store.saveHistory_cases`: entries that are saved;
* `Session.changeHistory_saved`, `Session.saveSettings_saved`: a session that goes on has saved
  them.
-/

namespace SpokenCalculator

open Preferences History

/-! ### Fields put in place -/

namespace Fields

/-- Fields put in place one after another. -/
def overlay (fields fs : Fields) : Fields := fs.foldl (fun fields f => fields.put f.1 f.2) fields

variable {fields fs : Fields} {key : Codes}

theorem get?_overlay_of_notMem (h : key ∉ fs.keys) :
    (fields.overlay fs).get? key = fields.get? key := by
  induction fs generalizing fields with
  | nil => rfl
  | cons f rest ih =>
    obtain ⟨hne, hrest⟩ := not_or.1 (mt List.mem_cons.2 h)
    exact (ih hrest).trans (get?_put_of_ne hne f.2 fields)

/-- Under different names each of them is found. -/
theorem get?_overlay_of_mem (hnodup : fs.keys.Nodup) (h : key ∈ fs.keys) :
    (fields.overlay fs).get? key = fs.get? key := by
  induction fs generalizing fields with
  | nil => cases h
  | cons f rest ih =>
    obtain ⟨hnot, hrest⟩ := List.nodup_cons.1 hnodup
    rw [get?]
    split_ifs with heq
    · subst heq
      exact (get?_overlay_of_notMem hnot).trans (get?_put_self f.1 f.2 fields)
    · exact ih hrest ((List.mem_cons.1 h).resolve_left (Ne.symm heq))

end Fields

/-! ### Documents that are written -/

namespace Preferences.Store

/-- The document is the text of the values. -/
def Written (store : Store) : Prop :=
  ∃ t : Text, store.document = .text t ∧ (Json.object store.values).indented = t.codes

variable {store : Store} {m : ℕ}

theorem Written.ne_folder (h : store.Written) : store.document ≠ .folder := by
  obtain ⟨t, ht, -⟩ := h
  rw [ht]
  exact Document.noConfusion

theorem written_write (h : (store.write m).failure = none) : (store.write m).state.Written := by
  obtain ⟨-, t, -, htext, hstate⟩ := exists_of_write h
  rw [hstate]
  exact ⟨t, rfl, htext⟩

theorem written_put {key : Codes} {v : Json} (h : (store.put m key v).failure = none) :
    (store.put m key v).state.Written :=
  written_write h

/-- Only a folder is refused. -/
theorem write_not_refused (h : store.document ≠ .folder) (reason : Text) :
    (store.write m).failure ≠ some (.refused reason) := by
  rw [write_of_ne_folder h]
  intro hrefused
  obtain ⟨e, -, he⟩ := Option.map_eq_some_iff.1 hrefused
  cases he

theorem put_not_refused (h : store.document ≠ .folder) (key : Codes) (v : Json) (reason : Text) :
    (store.put m key v).failure ≠ some (.refused reason) := by
  refine write_not_refused ?_ reason
  exact h

end Preferences.Store

/-! ### Settings that are saved -/

theorem Number.InRange.isLong_eq_false {n : Number} (h : n.InRange) : n.isLong = false := by
  cases n with
  | int i =>
    have hbound : Binary64.overflowBound ≤ 10 ^ Number.maxDigits := by decide +kernel
    exact Number.isLong_int_eq_false_iff.2 (lt_of_lt_of_le h hbound)
  | float x => rfl

namespace Settings

/-- The names of the settings that are stored. -/
def storedKeys : List Codes := [voiceKey, touchKey, learningKey, speedKey]

theorem keys_stored (s : Settings) : Fields.keys s.stored = storedKeys := rfl

variable {store : Store} {m : ℕ}

theorem putAll_cons {f : Codes × Json} (h : (store.put m f.1 f.2).failure = none) (rest : Fields) :
    putAll m store (f :: rest) = putAll m (store.put m f.1 f.2).state rest := by
  rw [putAll]
  rcases hput : store.put m f.1 f.2 with ⟨store', failure⟩
  rw [hput] at h
  cases h
  rfl

theorem putAll_cons_of_some {f : Codes × Json} {e : WriteError}
    (h : (store.put m f.1 f.2).failure = some e) (rest : Fields) :
    putAll m store (f :: rest) = store.put m f.1 f.2 := by
  rw [putAll]
  rcases hput : store.put m f.1 f.2 with ⟨store', failure⟩
  rw [hput] at h
  cases h
  rfl

/-- The first value is put in place if all are. -/
theorem put_of_putAll {f : Codes × Json} {rest : Fields}
    (h : (putAll m store (f :: rest)).failure = none) :
    (store.put m f.1 f.2).failure = none := by
  rcases hput : (store.put m f.1 f.2).failure with - | e
  · rfl
  · rw [putAll_cons_of_some hput, hput] at h
    cases h

/-- **What every value put in place preserves, all of them do**, and all are put in place. -/
theorem putAll_preserves {P : Store → Prop} {fs : Fields}
    (hput : ∀ f ∈ fs, ∀ store, P store → (store.put m f.1 f.2).failure = none →
      P (store.put m f.1 f.2).state) (h : P store) (hnone : (putAll m store fs).failure = none) :
    P (putAll m store fs).state ∧
      (putAll m store fs).state.values = Fields.overlay store.values fs := by
  induction fs generalizing store with
  | nil => exact ⟨h, rfl⟩
  | cons f rest ih =>
    rw [List.forall_mem_cons] at hput
    have hfirst := put_of_putAll hnone
    have hvalues : Fields.overlay store.values (f :: rest) =
        Fields.overlay (store.put m f.1 f.2).state.values rest := by
      rw [Store.values_put]
      rfl
    rw [putAll_cons hfirst] at hnone ⊢
    rw [hvalues]
    exact ih hput.2 (hput.1 store h hfirst) hnone

/-- Settings that are saved are on file. -/
theorem written_save {s : Settings} (h : (s.save m store).failure = none) :
    (s.save m store).state.Written := by
  have hfirst : (store.put m voiceKey (.bool s.voiceEnabled)).failure = none := put_of_putAll h
  rw [save, stored, putAll_cons hfirst] at h ⊢
  -- the first value put in place makes the document the text of the values
  exact (putAll_preserves (P := Store.Written) (fun f _ _ _ => Store.written_put)
    (Store.written_put hfirst) h).1

theorem values_save {s : Settings} (h : (s.save m store).failure = none) :
    (s.save m store).state.values = Fields.overlay store.values s.stored :=
  (putAll_preserves (P := fun _ => True) (fun _ _ _ _ _ => trivial) trivial h).2

/-- Each of the settings is found again, and nothing else is touched. -/
theorem get?_save {s : Settings} (h : (s.save m store).failure = none) (key : Codes) :
    (s.save m store).state.get? key =
      if key ∈ storedKeys then Fields.get? key s.stored else store.get? key := by
  rw [Store.get?, values_save h]
  split_ifs with hkey
  · have hnodup : (Fields.keys s.stored).Nodup := by
      rw [keys_stored]
      decide
    exact Fields.get?_overlay_of_mem hnodup hkey
  · exact Fields.get?_overlay_of_notMem hkey

theorem get?_historyKey_save {s : Settings} (h : (s.save m store).failure = none) :
    (s.save m store).state.get? Store.historyKey = store.get? Store.historyKey := by
  have hkey : Store.historyKey ∉ storedKeys := by decide
  rw [get?_save h, if_neg hkey]

/-- The speed is found again. -/
theorem get?_speedKey_save {s : Settings} (h : (s.save m store).failure = none) :
    (s.save m store).state.get? speedKey = some (.number s.speed) := by
  have hkey : speedKey ∈ storedKeys := by decide
  rw [get?_save h, if_pos hkey]
  rfl

/-- Settings whose speed can be read are found in the document. -/
theorem synced_save {room : ℕ} (hroom : 0 < room) (h : store.Synced room) {s : Settings}
    (hs : s.speed.InRange) (hnone : (s.save m store).failure = none) :
    (s.save m store).state.Synced room := by
  have hfits : ∀ f ∈ s.stored, ∀ n, Json.Fits n f.2 := by
    simp only [stored, List.forall_mem_cons]
    exact ⟨fun n => .bool n _, fun n => .bool n _, fun n => .bool n _,
      fun n => .number n hs.isLong_eq_false, fun f hf => absurd hf List.not_mem_nil⟩
  exact (putAll_preserves (P := Store.Synced room)
    (fun f hf _ h hput => h.put hroom (hfits f hf) hput) h hnone).1

theorem save_not_refused (s : Settings) (h : store.document ≠ .folder) (reason : Text) :
    (s.save m store).failure ≠ some (.refused reason) := by
  rw [save]
  generalize s.stored = fs
  induction fs generalizing store with
  | nil => nofun
  | cons f rest ih =>
    rcases hput : (store.put m f.1 f.2).failure with - | e
    · rw [putAll_cons hput]
      exact ih (Store.written_put hput).ne_folder
    · rw [putAll_cons_of_some hput]
      exact Store.put_not_refused h f.1 f.2 reason

end Settings

/-! ### Entries that are saved -/

namespace Preferences.Store

variable {store : Store} {m : ℕ} {entries : List Codes}

theorem Synced.saveHistory {room : ℕ} (hroom : 0 < room) (h : store.Synced room)
    (hnone : (store.saveHistory m entries).failure = none) :
    (store.saveHistory m entries).state.Synced room := by
  unfold Store.saveHistory at hnone ⊢
  split_ifs at hnone ⊢
  · exact h.remove hroom hnone
  · exact h.put hroom (fun n => .string n trivial) hnone

/-- Entries are written unless there are none and none were stored. -/
theorem saveHistory_cases (h : (store.saveHistory m entries).failure = none) :
    ((entries ≠ [] ∨ historyKey ∈ Fields.keys store.values) ∧
        (store.saveHistory m entries).state.Written) ∨
      entries = [] ∧ historyKey ∉ Fields.keys store.values ∧
        store.saveHistory m entries = ⟨store, none⟩ := by
  rw [Store.saveHistory, remove] at h ⊢
  split_ifs at h ⊢ with hnil hkey
  · exact Or.inl ⟨Or.inr hkey, written_write h⟩
  · exact Or.inr ⟨List.isEmpty_iff.1 hnil, hkey, rfl⟩
  · exact Or.inl ⟨Or.inl (mt List.isEmpty_iff.2 hnil), written_put h⟩

theorem saveHistory_not_refused (h : store.document ≠ .folder) (entries : List Codes)
    (reason : Text) : (store.saveHistory m entries).failure ≠ some (.refused reason) := by
  rw [Store.saveHistory, remove]
  split_ifs
  · refine write_not_refused ?_ reason
    exact h
  · nofun
  · exact put_not_refused h _ _ reason

theorem get?_saveHistory_of_ne {key : Codes} (h : key ≠ historyKey) (m : ℕ) (store : Store)
    (entries : List Codes) : (store.saveHistory m entries).state.get? key = store.get? key := by
  unfold saveHistory
  split_ifs
  · rw [get?, values_remove, Fields.get?_remove_of_ne h]
    rfl
  · rw [get?, values_put, Fields.get?_put_of_ne h]
    rfl

/-- No history is stored, or a text. -/
theorem get?_historyKey_saveHistory (m : ℕ) (store : Store) (entries : List Codes) :
    (store.saveHistory m entries).state.get? historyKey =
      if entries.isEmpty then none else some (.string (join entries)) := by
  unfold saveHistory
  split_ifs
  · rw [get?, values_remove, Fields.get?_remove_self]
  · rw [get?, values_put, Fields.get?_put_self]

end Preferences.Store

/-! ### A session that goes on -/

namespace Session

variable {s s' : Session} {store : Store}

/-- What is not refused is done if the session goes on. -/
theorem failure_eq_none_of_settle {warning : Text → Text} {failure : Option WriteError}
    (h : s.settle warning failure = (s', .ok ()))
    (hrefused : ∀ reason, failure ≠ some (.refused reason)) : failure = none ∧ s' = s := by
  rcases failure with - | reason | e
  · exact ⟨rfl, (congrArg Prod.fst h).symm⟩
  · exact absurd rfl (hrefused reason)
  · cases congrArg Prod.snd h

/-- A change of the history is saved if the session goes on. -/
theorem changeHistory_saved {c : Change} (hpreferences : s.preferences = some store)
    (hfolder : store.document ≠ .folder) (h : s.changeHistory c = (s', .ok ())) :
    let attempt := store.saveHistory s.rooms.history (s.history.change c).entries
    attempt.failure = none ∧
      s' = { s with history := s.history.change c, preferences := some attempt.state } := by
  rw [changeHistory, History.keep, hpreferences] at h
  exact failure_eq_none_of_settle h (Store.saveHistory_not_refused hfolder _)

/-- Settings are saved if the session goes on. -/
theorem saveSettings_saved (hpreferences : s.preferences = some store)
    (hfolder : store.document ≠ .folder) (h : s.saveSettings = (s', .ok ())) :
    let attempt := s.settings.save s.rooms.settings store
    attempt.failure = none ∧ s' = { s with preferences := some attempt.state } := by
  rw [saveSettings, hpreferences] at h
  exact failure_eq_none_of_settle h (s.settings.save_not_refused hfolder)

end Session

end SpokenCalculator
