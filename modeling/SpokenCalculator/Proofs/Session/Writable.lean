import SpokenCalculator.Proofs.History.Codec
import SpokenCalculator.Proofs.History.Log
import SpokenCalculator.Proofs.Session.Saved
import SpokenCalculator.Proofs.Session.Updates

/-!
# Where no document breaks off

A document breaks off at a lone half of a character, at an integer without a text, and at values
nested too deeply for the room there is where it is written.  None of these is brought in by a
session: entries that are recorded are texts, and the settings that are saved are no more than
switches and a speed.  So if the values that a session began with can be written it never comes to
this, whatever is done to it.

* `Store.IsWritable`, `Session.IsWritable`: values that can be written, and sessions with such;
* `IsWritable.move`: every move leaves such a session, and no document breaks off;
* `IsWritable.unbroken`: so does any number of actions;
* `unbroken_of_openOn`: sessions that are opened on values that can be written.
-/

namespace SpokenCalculator

open Preferences History

/-! ### Values -/

theorem Fields.mem_of_get?_eq_some {key : Codes} {fields : Fields} {v : Json}
    (h : fields.get? key = some v) : (key, v) ∈ fields := by
  induction fields with
  | nil => cases h
  | cons f rest ih =>
    rw [get?] at h
    split_ifs at h with hkey
    · cases h
      exact hkey ▸ List.mem_cons_self ..
    · exact List.mem_cons_of_mem f (ih h)

theorem Json.Writes.put {n : ℕ} {fields : Fields} (h : Writes n (.object fields)) {key : Codes}
    (hkey : key.IsText) {v : Json} (hv : ∀ m, Writes m v) :
    Writes n (.object (fields.put key v)) := by
  cases h with
  | object hkeys hfields =>
    refine .object (fun k hk => ?_) (forall_put hfields (hv _))
    rw [Fields.keys_put] at hk
    split_ifs at hk
    · exact hkeys k hk
    · rcases List.mem_append.1 hk with hk | hk
      · exact hkeys k hk
      · exact List.mem_singleton.1 hk ▸ hkey

theorem Json.Writes.remove {n : ℕ} {fields : Fields} (h : Writes n (.object fields))
    (key : Codes) : Writes n (.object (fields.remove key)) := by
  cases h with
  | object hkeys hfields =>
    refine .object (fun k hk => hkeys k ?_) fun f hf => hfields f (List.mem_of_mem_filter hf)
    exact (List.filter_sublist.map Prod.fst).subset hk

theorem Json.Writes.get? {n : ℕ} {fields : Fields} (h : Writes n (.object fields)) {key : Codes}
    {v : Json} (hv : fields.get? key = some v) : ∃ m, Writes m v := by
  cases h with
  | object _ hfields => exact ⟨_, hfields (key, v) (Fields.mem_of_get?_eq_some hv)⟩

namespace Preferences.Store

/-- The values can be written where there is some room, or are never written. -/
def IsWritable (n : ℕ) (store : Store) : Prop :=
  store.document = .folder ∨ Json.Writes n (.object store.values)

/-- An attempt to write does not break off, and leaves values that can be written. -/
def IsWhole (n : ℕ) (attempt : Attempt Store) : Prop :=
  (∀ e, attempt.failure ≠ some (.broken e)) ∧ attempt.state.IsWritable n

variable {n m : ℕ} {store : Store}

theorem IsWritable.write (h : store.IsWritable n) (hm : n ≤ m) : IsWhole n (store.write m) := by
  by_cases hfolder : store.document = .folder
  · rw [write_of_folder hfolder]
    exact ⟨nofun, h⟩
  · have hwrites := h.resolve_left hfolder
    rw [write_of_ne_folder hfolder, Json.write_eq_none_iff.2 (hwrites.mono hm)]
    exact ⟨nofun, Or.inr hwrites⟩

theorem IsWritable.put (h : store.IsWritable n) (hm : n ≤ m) {key : Codes} (hkey : key.IsText)
    {v : Json} (hv : ∀ k, Json.Writes k v) : IsWhole n (store.put m key v) := by
  refine IsWritable.write ?_ hm
  exact h.imp_right fun hwrites => hwrites.put hkey hv

theorem IsWritable.saveHistory (h : store.IsWritable n) (hm : n ≤ m) {entries : List Codes}
    (hentries : ∀ e ∈ entries, e.IsText) : IsWhole n (store.saveHistory m entries) := by
  rw [Store.saveHistory, Store.remove]
  split_ifs
  · refine IsWritable.write ?_ hm
    exact h.imp_right fun hwrites => hwrites.remove historyKey
  · exact ⟨fun _ => (Option.some_ne_none _).symm, h⟩
  · exact h.put hm (Codes.isText_codes _) fun k => .string k (isText_join_iff.2 hentries)

end Preferences.Store

/-- Settings can be saved where all else can be written. -/
theorem Settings.isWhole_save {n m : ℕ} {store : Store} (h : store.IsWritable n) (hm : n ≤ m)
    {s : Settings} (hs : s.speed.isLong = false) : Store.IsWhole n (s.save m store) := by
  have hstored : ∀ f ∈ s.stored, f.1.IsText ∧ ∀ k, Json.Writes k f.2 := by
    simp only [stored, List.forall_mem_cons]
    exact ⟨⟨Codes.isText_codes _, fun k => .bool k _⟩, ⟨Codes.isText_codes _, fun k => .bool k _⟩,
      ⟨Codes.isText_codes _, fun k => .bool k _⟩, ⟨Codes.isText_codes _, fun k => .number k hs⟩,
      fun f hf => absurd hf List.not_mem_nil⟩
  rw [save]
  generalize s.stored = fs at hstored ⊢
  induction fs generalizing store with
  | nil => exact ⟨fun _ => (Option.some_ne_none _).symm, h⟩
  | cons f rest ih =>
    rw [List.forall_mem_cons] at hstored
    have hput := h.put hm hstored.1.1 hstored.1.2
    rcases hfailure : (store.put m f.1 f.2).failure with - | e
    · rw [putAll_cons hfailure]
      exact ih hput.2 hstored.2
    · rw [putAll_cons_of_some hfailure]
      exact hput

/-! ### Sessions -/

/-- There is so much room wherever documents are written. -/
def Preferences.Rooms.write (rooms : Rooms) : ℕ := min rooms.history rooms.settings

namespace Session

/-- All that is to be written in a session can be. -/
structure IsWritable (s : Session) : Prop where
  store : ∀ store, s.preferences = some store → store.IsWritable s.rooms.write
  entries : ∀ e ∈ s.history.entries, e.IsText
  speed : s.settings.speed.isLong = false

/-- The session can go on, and what is to be written in it can be. -/
def IsWhole {α : Type} (r : Result α) : Prop := ¬ r.IsBroken ∧ r.1.IsWritable

variable {s s' : Session}

/-- Only four parts of a session count. -/
theorem IsWritable.of_eq (h : s.IsWritable) (hrooms : s'.rooms = s.rooms)
    (hpreferences : s'.preferences = s.preferences) (hhistory : s'.history = s.history)
    (hspeed : s'.settings.speed = s.settings.speed) : s'.IsWritable where
  store := by
    rw [hrooms, hpreferences]
    exact h.store
  entries := hhistory ▸ h.entries
  speed := hspeed ▸ h.speed

/-- Something that is done without fail. -/
theorem IsWritable.quiet (h : s.IsWritable) {α : Type} (a : α) (hrooms : s'.rooms = s.rooms)
    (hpreferences : s'.preferences = s.preferences) (hhistory : s'.history = s.history)
    (hspeed : s'.settings.speed = s.settings.speed) :
    IsWhole ((s', .ok a) : Result α) :=
  ⟨not_isBroken_ok s' a, h.of_eq hrooms hpreferences hhistory hspeed⟩

theorem IsWritable.settle (h : s.IsWritable) (warning : Text → Text)
    {failure : Option WriteError} (hfailure : ∀ e, failure ≠ some (.broken e)) :
    IsWhole (s.settle warning failure) := by
  rcases failure with - | reason | e
  · exact h.quiet () rfl rfl rfl rfl
  · exact h.quiet () rfl rfl rfl rfl
  · exact absurd rfl (hfailure e)

theorem IsWritable.saveSettings (h : s.IsWritable) : IsWhole s.saveSettings := by
  rw [Session.saveSettings]
  split
  · exact h.quiet () rfl rfl rfl rfl
  · rename_i store hstore
    obtain ⟨hfailure, hafter⟩ :=
      Settings.isWhole_save (h.store store hstore) (min_le_right _ s.rooms.settings) h.speed
    have hstate : ({ s with
        preferences := some (s.settings.save s.rooms.settings store).state } :
          Session).IsWritable :=
      ⟨fun store' hstore' => Option.some.inj hstore' ▸ hafter, h.entries, h.speed⟩
    exact hstate.settle settingsWarning hfailure

theorem IsWritable.changeHistory (h : s.IsWritable) {c : Change}
    (hentries : ∀ e ∈ (s.history.change c).entries, e.IsText) :
    IsWhole (s.changeHistory c) := by
  have hshelf : (∀ e, (shelf s.rooms.history (s.history.change c).entries
        s.preferences).failure ≠ some (.broken e)) ∧
      ∀ store, (shelf s.rooms.history (s.history.change c).entries s.preferences).state =
        some store → store.IsWritable s.rooms.write := by
    rcases hstore : s.preferences with - | store
    · exact ⟨nofun, nofun⟩
    · obtain ⟨hfailure, hafter⟩ :=
        (h.store store hstore).saveHistory (min_le_left s.rooms.history _) hentries
      exact ⟨hfailure, fun store' hstore' => Option.some.inj hstore' ▸ hafter⟩
  have hstate : ({ s with
      history := s.history.change c
      preferences := (shelf s.rooms.history (s.history.change c).entries s.preferences).state } :
        Session).IsWritable := ⟨hshelf.2, hentries, h.speed⟩
  exact hstate.settle saveWarning hshelf.1

/-! ### Moves -/

theorem IsWritable.execute (h : s.IsWritable) (e : Editor.Effect) : IsWhole (s.execute e) := by
  cases e with
  | vibrate =>
    refine h.quiet () ?_ ?_ ?_ ?_ <;> (unfold vibrate; split_ifs <;> rfl)
  | record entry =>
    refine h.changeHistory fun e he => ?_
    have hmem := (bounded_isPrefix s.history.capacity _).subset he
    rcases List.mem_cons.1 hmem with rfl | hmem
    · exact Codes.isText_codes entry
    · exact h.entries e hmem
  | _ => exact h.quiet () rfl rfl rfl rfl

theorem IsWritable.executeAll (h : s.IsWritable) (es : List Editor.Effect) :
    IsWhole (s.executeAll es) := by
  induction es generalizing s with
  | nil => exact h.quiet () rfl rfl rfl rfl
  | cons e es ih =>
    have he := h.execute e
    rw [Session.executeAll]
    rcases heq : s.execute e with ⟨s', e' | _⟩ <;> rw [heq] at he
    · exact he
    · exact ih he.2

/-- **Every move leaves a session in which all can be written**, and no document breaks off. -/
theorem IsWritable.move (h : s.IsWritable) (m : Move) : IsWhole (s.move m) := by
  cases m with
  | command c =>
    rw [Session.move]
    rcases hpress : Editor.press s.settings.learning s.editor c with e | o
    · rw [handle_of_error hpress]
      exact ⟨not_isBroken_edit s e, h⟩
    · rw [handle_of_press hpress, Result.as_as, Result.as_unit]
      have heditor : ({ s with editor := o.1 } : Session).IsWritable :=
        h.of_eq rfl rfl rfl rfl
      exact heditor.executeAll o.2
  | clear => exact h.changeHistory fun e he => absurd he List.not_mem_nil
  | toggleVoice =>
    refine IsWritable.saveSettings (h.of_eq ?_ ?_ ?_ ?_) <;>
      (unfold switchVoice; split_ifs <;> rfl)
  | toggleTouch => exact IsWritable.saveSettings (h.of_eq rfl rfl rfl rfl)
  | toggleLearning => exact IsWritable.saveSettings (h.of_eq rfl rfl rfl rfl)
  | speed value =>
    rw [Session.move, setSpeed, Settings.setSpeed]
    rcases value.toSpeed with e | x
    · exact h.quiet () rfl rfl rfl rfl
    · exact ⟨not_isBroken_ok _ (), h.store, h.entries, rfl⟩
  | _ => exact h.quiet () rfl rfl rfl rfl

theorem IsWritable.moveAll (h : s.IsWritable) (ms : List Move) : IsWhole (s.moveAll ms) := by
  induction ms generalizing s with
  | nil => exact h.quiet () rfl rfl rfl rfl
  | cons m ms ih =>
    have hm := h.move m
    rcases heq : s.move m with ⟨s', e | _⟩ <;> rw [heq] at hm
    · rw [moveAll_cons_of_error heq]
      exact hm
    · rw [moveAll_cons_of_ok heq]
      exact ih hm.2

/-- **No document breaks off in any number of actions**, if all that is to be written can be. -/
theorem IsWritable.unbroken (h : s.IsWritable) (as : List Action) : s.Unbroken as := by
  induction as generalizing s with
  | nil => exact fun r hr => absurd hr List.not_mem_nil
  | cons a as ih =>
    obtain ⟨hbroken, hafter⟩ := h.moveAll a.moves
    rw [unbroken_cons_iff, isBroken_perform_iff, (s.perform_eq_moveAll a).1]
    exact ⟨hbroken, ih hafter⟩

/-! ### Sessions that begin -/

/-- All can be written in a session that is opened on values that can be, or on a folder. -/
theorem StartedOn.isWritable {engine : Speech.Engine} {rooms : Rooms} {base : Settings}
    {path : Text} {d : Document} (h : StartedOn engine rooms base path d s)
    (hd : d = .folder ∨ Json.Writes rooms.write (.object (d.fields rooms.load)))
    (hspeed : base.speed.isLong = false) : s.IsWritable where
  store := by
    rw [h.preferences, h.rooms_eq]
    rintro _ ⟨⟩
    exact hd
  entries := by
    rw [h.entries_eq]
    intro e he
    have hmem := (within_isPrefix base.historyLimit _).subset he
    unfold entriesOf at hmem
    split at hmem
    · rename_i t ht
      rcases hd with rfl | hd
      · cases ht
      · obtain ⟨k, hk⟩ := hd.get? ht
        exact isText_of_mem_split (Json.within_string_iff.1 hk) hmem
    · cases hmem
  speed := by
    rw [h.speed_eq, Settings.startSpeed]
    split
    · rfl
    · exact hspeed

/-- **No document breaks off in a session that is opened on values that can be written**, whatever
is done to it. -/
theorem unbroken_of_openOn {engine : Speech.Engine} {rooms : Rooms} {base : Settings} {path : Text}
    {d : Document} (hs : (openOn engine rooms base path d).2 = .ok s)
    (hd : d = .folder ∨ Json.Writes rooms.write (.object (d.fields rooms.load)))
    (hspeed : base.speed.isLong = false) (as : List Action) : s.Unbroken as :=
  ((startedOn_of_openOn engine rooms base path d hs).2.isWritable hd hspeed).unbroken as

end Session
end SpokenCalculator
