import SpokenCalculator.Proofs.History.Log
import SpokenCalculator.Proofs.Session.Steps
import SpokenCalculator.Proofs.Session.Writable
import SpokenCalculator.Session.Run

/-!
# What a restart finds of a history

A session saves its history at every change, and the document is read as it was written, as long as
it does not break off.  What a new session finds on it are the entries of the old one, each split at
the delimiters in it: the same entries exactly where there is no delimiter in any.

* `Session.Restorable`: what a start begins, and every step preserves;
* `exists_reopened_entries`: what a new session finds after any number of actions.
-/

namespace SpokenCalculator

open Preferences History

/-! ### Entries that are saved -/

/-- What is stored of entries are their parts. -/
theorem Preferences.Store.entriesOf_saveHistory (m : ℕ) (store : Store) {entries : List Codes}
    (hne : entries ≠ [[]]) (h : Separable entries) :
    entriesOf ((store.saveHistory m entries).state.get? historyKey) = entries.flatMap parts := by
  rw [get?_historyKey_saveHistory]
  split_ifs with hnil
  · rw [List.isEmpty_iff.1 hnil]
    rfl
  · exact split_join hne h

/-! ### Entries that are loaded -/

namespace History

theorem separable_entriesOf (stored : Option Json) : Separable (entriesOf stored) := by
  unfold entriesOf
  split
  · exact separable_split _
  · intro e he
    cases he

theorem not_isInfix_of_mem_entriesOf {stored : Option Json} {e : Codes}
    (he : e ∈ entriesOf stored) : ¬ delimiter <:+: e := by
  unfold entriesOf at he
  split at he
  · exact not_isInfix_of_mem_split he
  · cases he

/-- Entries are found again exactly where no delimiter is in any of them. -/
theorem within_flatMap_parts_eq_iff {capacity : ℤ} {es : List Codes}
    (h : es.length ≤ capacity) :
    within capacity (es.flatMap parts) = es ↔ ∀ e ∈ es, ¬ delimiter <:+: e := by
  constructor
  · intro heq e he
    rw [← heq] at he
    obtain ⟨t, -, ht⟩ := List.mem_flatMap.1 ((within_isPrefix capacity _).subset he)
    exact not_isInfix_of_mem_parts ht
  · intro hnot
    rw [flatMap_parts_of_not_isInfix hnot, within_of_length_le h]

end History

namespace Session

/-! ### The invariant -/

/-- What a new session finds of the history in a store are the parts of the entries, and nothing
else keeps it from starting. -/
structure Restorable (room : ℕ) (limit : ℤ) (store : Store) (s : Session) : Prop where
  preferences : s.preferences = some store
  synced : store.Synced room
  speed : s.settings.speed.InRange
  storedSpeed : ∀ n, store.get? Settings.speedKey = some (.number n) → n.InRange
  isHistory : ∀ v, store.get? Store.historyKey = some v → v.IsHistory
  capacity : s.history.capacity = limit
  length : s.history.entries.length ≤ limit
  separable : Separable s.history.entries
  found : within limit (entriesOf (store.get? Store.historyKey)) =
    within limit (s.history.entries.flatMap parts)

variable {room : ℕ} {limit : ℤ} {store : Store} {s s' : Session}

theorem StartedOn.restorable {engine : Speech.Engine} {rooms : Rooms} {base : Settings}
    {path : Text} {d : Document} (h : StartedOn engine rooms base path d s)
    (huse : d.IsUsable rooms.load base) (hfolder : d ≠ .folder) (hlimit : 0 ≤ base.historyLimit)
    (hspeed : base.speed.InRange) :
    s.Restorable rooms.load base.historyLimit ⟨path, d.fields rooms.load, d⟩ := by
  have hentries := h.entries_eq
  have hlength : s.history.entries.length ≤ base.historyLimit :=
    hentries ▸ length_within_le hlimit _
  have hwithin := within_isPrefix base.historyLimit
    (entriesOf ((d.fields rooms.load).get? Store.historyKey))
  have hnot : ∀ e ∈ s.history.entries, ¬ delimiter <:+: e := fun e he =>
    not_isInfix_of_mem_entriesOf (hwithin.subset (hentries ▸ he))
  refine ⟨h.preferences, Store.synced_of_document path hfolder huse.shallow, ?_, ?_, huse.history,
    by rw [h.history]; rfl, hlength, ?_, ?_⟩
  · rw [h.speed_eq, Settings.startSpeed]
    split
    · trivial
    · exact hspeed
  · intro n hn
    refine huse.speed n ?_
    rw [Settings.speedValue]
    exact congrArg (fun v => v.getD (.number base.speed)) hn
  · rw [hentries]
    exact (separable_entriesOf _).of_isPrefix hwithin
  · rw [(within_flatMap_parts_eq_iff hlength).2 hnot]
    exact hentries.symm

/-! ### Steps -/

theorem Restorable.changeHistory (h : s.Restorable room limit store) (hroom : 0 < room)
    {c : Change} (hchange : s.changeHistory c = (s', .ok ()))
    (hne : (s.history.change c).entries ≠ [[]])
    (hseparable : Separable (s.history.change c).entries)
    (hlength : (s.history.change c).entries.length ≤ limit)
    (hcapacity : (s.history.change c).capacity = s.history.capacity) :
    ∃ store', s'.Restorable room limit store' := by
  obtain ⟨hfailure, rfl⟩ := changeHistory_saved h.preferences h.synced.writable hchange
  refine ⟨_, rfl, Store.Synced.saveHistory hroom h.synced hfailure, h.speed, ?_, ?_,
    hcapacity.trans h.capacity, hlength, hseparable, ?_⟩
  · rw [Store.get?_saveHistory_of_ne (by decide)]
    exact h.storedSpeed
  · intro v hv
    rw [Store.get?_historyKey_saveHistory] at hv
    split_ifs at hv
    cases hv
    exact Or.inl ⟨_, rfl⟩
  · rw [Store.entriesOf_saveHistory _ store hne hseparable]

theorem Restorable.record (h : s.Restorable room limit store) (hroom : 0 < room)
    (hlimit : 1 ≤ limit) {entry : Text} (hentry : Editor.IsRecord entry)
    (hchange : s.changeHistory (.add entry) = (s', .ok ())) :
    ∃ store', s'.Restorable room limit store' := by
  obtain ⟨c, hlast, hc⟩ := hentry.getLast?
  have hlast : entry.codes.getLast? = some (.char c) := by
    rw [Text.codes, List.getLast?_map, hlast]
    rfl
  have hclosed : Closed entry.codes := by
    rw [Closed, hlast]
    exact fun heq => hc (Code.char.inj (Option.some.inj heq))
  have hentries : (s.history.change (.add entry)).entries =
      bounded limit (entry.codes :: s.history.entries) := by rw [← h.capacity]; rfl
  obtain ⟨rest, hrest⟩ := exists_bounded_eq_cons hlimit entry.codes s.history.entries
  refine h.changeHistory hroom hchange ?_ ?_ ?_ rfl
  · rw [hentries, hrest]
    rintro heq
    rw [(List.cons_eq_cons.1 heq).1] at hlast
    cases hlast
  · rw [hentries]
    exact (h.separable.cons hclosed).of_isPrefix (bounded_isPrefix limit _)
  · rw [hentries]
    exact length_bounded_le h.length

theorem Restorable.clear (h : s.Restorable room limit store) (hroom : 0 < room)
    (hlimit : 1 ≤ limit) (hchange : s.changeHistory .clear = (s', .ok ())) :
    ∃ store', s'.Restorable room limit store' := by
  refine h.changeHistory hroom hchange (List.cons_ne_nil _ _).symm ?_ ?_ rfl
  · intro e he
    cases he
  · exact (show ((0 : ℕ) : ℤ) ≤ limit by omega)

theorem Restorable.save (h : s.Restorable room limit store) (hroom : 0 < room)
    (hsave : s.saveSettings = (s', .ok ())) : ∃ store', s'.Restorable room limit store' := by
  obtain ⟨hfailure, rfl⟩ := saveSettings_saved h.preferences h.synced.writable hsave
  have hhistory := Settings.get?_historyKey_save hfailure
  have hstored := Settings.get?_speedKey_save hfailure
  refine ⟨_, rfl, Settings.synced_save hroom h.synced h.speed hfailure, h.speed, ?_, ?_,
    h.capacity, h.length, h.separable, ?_⟩
  · intro n hn
    rw [hstored, Option.some.injEq, Json.number.injEq] at hn
    exact hn ▸ h.speed
  · rw [hhistory]
    exact h.isHistory
  · rw [hhistory]
    exact h.found

/-- The invariant is about three parts of a session, and of the settings about the speed. -/
theorem Restorable.of_eq (h : s.Restorable room limit store)
    (hspeed : s'.settings.speed.InRange) (hpreferences : s'.preferences = s.preferences)
    (hhistory : s'.history = s.history) : s'.Restorable room limit store where
  preferences := hpreferences.trans h.preferences
  synced := h.synced
  speed := hspeed
  storedSpeed := h.storedSpeed
  isHistory := h.isHistory
  capacity := hhistory ▸ h.capacity
  length := hhistory ▸ h.length
  separable := hhistory ▸ h.separable
  found := hhistory ▸ h.found

/-- **Every step preserves what a new session finds.** -/
theorem Step.restorable (hstep : Step s s') (hroom : 0 < room) (hlimit : 1 ≤ limit)
    (h : ∃ store, s.Restorable room limit store) : ∃ store, s'.Restorable room limit store := by
  obtain ⟨store, h⟩ := h
  cases hstep with
  | switch voice touch learning hsettings hpreferences hhistory =>
    exact ⟨store, h.of_eq (by rw [hsettings]; exact h.speed) hpreferences hhistory⟩
  | speed hspeed =>
    obtain ⟨⟨x, hsettings⟩, hpreferences, hhistory⟩ := kept_of_setSpeed hspeed
    exact ⟨store, h.of_eq (by rw [hsettings]; trivial) hpreferences hhistory⟩
  | save hsave => exact h.save hroom hsave
  | record hentry hchange => exact h.record hroom hlimit hentry hchange
  | clear hchange => exact h.clear hroom hlimit hchange

/-! ### The restart -/

theorem Restorable.isUsable (h : s.Restorable room limit store) {base : Settings}
    (hspeed : base.speed.InRange) : store.document.IsUsable room base where
  shallow := h.synced.shallow
  speed := by
    intro n hn
    rw [Settings.speedValue, h.synced.fields] at hn
    rcases hstored : store.values.get? Settings.speedKey with - | v
    · rw [hstored, Option.getD_none, Json.number.injEq] at hn
      exact hn ▸ hspeed
    · rw [hstored, Option.getD_some] at hn
      exact h.storedSpeed n (hstored.trans (congrArg some hn))
  history := by
    rw [h.synced.fields]
    exact h.isHistory

theorem Restorable.exists_reopened {rooms : Rooms} (h : s.Restorable rooms.load limit store)
    (engine : Speech.Engine) (path : Text) (d : Document) {base : Settings}
    (hlimit : base.historyLimit = limit) (hspeed : base.speed.InRange) :
    ∃ s', (openOn engine rooms base path (Program.documentOf s d)).2 = .ok s' ∧
      s'.history.entries = within limit (s.history.entries.flatMap parts) := by
  have hdocument : Program.documentOf s d = store.document := by
    rw [Program.documentOf, h.preferences]
    rfl
  obtain ⟨s', hs'⟩ := exists_openOn_of_isUsable (h.isUsable hspeed) engine path
  have hentries := (startedOn_of_openOn engine rooms base path store.document hs').2.entries_eq
  refine ⟨s', hdocument ▸ hs', ?_⟩
  rw [hentries, hlimit, h.synced.fields]
  exact h.found

/-- The invariant holds after any number of actions. -/
theorem exists_restorable_performAll {engine : Speech.Engine} {rooms : Rooms} {base : Settings}
    {path : Text} {d : Document} (hs : (openOn engine rooms base path d).2 = .ok s)
    (hfolder : d ≠ .folder) (hlimit : 1 ≤ base.historyLimit) (hspeed : base.speed.InRange)
    {as : List Action} (has : s.Unbroken as) :
    ∃ store, (s.performAll as).Restorable rooms.load base.historyLimit store := by
  obtain ⟨huse, hstarted⟩ := startedOn_of_openOn engine rooms base path d hs
  have hstart := hstarted.restorable huse hfolder (by omega) hspeed
  exact performAll_induction
    (P := fun s => ∃ store, s.Restorable rooms.load base.historyLimit store)
    (fun hstep h => hstep.restorable rooms.load_pos hlimit h) ⟨_, hstart⟩ has

/-- **After any number of actions, a new session on the document finds the parts of the entries
up to the limit**, and these are the entries themselves exactly where there is no delimiter in any
of them.  The document is read where there is as much room as before, and did not break off where it
was written. -/
theorem exists_reopened_entries {engine : Speech.Engine} {rooms : Rooms} {base : Settings}
    {path : Text} {d : Document} {s : Session} (hs : (openOn engine rooms base path d).2 = .ok s)
    (hfolder : d ≠ .folder) (hlimit : 1 ≤ base.historyLimit) (hspeed : base.speed.InRange)
    {as : List Action} (has : s.Unbroken as) (engine' : Speech.Engine) {rooms' : Rooms}
    (hroom' : rooms'.load = rooms.load) (path' : Text) {base' : Settings}
    (hlimit' : base'.historyLimit = base.historyLimit) (hspeed' : base'.speed.InRange) :
    ∃ s', (openOn engine' rooms' base' path' (Program.documentOf (s.performAll as) d)).2 = .ok s' ∧
      s'.history.entries =
        within base.historyLimit ((s.performAll as).history.entries.flatMap parts) ∧
      (s'.history.entries = (s.performAll as).history.entries ↔
        ∀ e ∈ (s.performAll as).history.entries, ¬ delimiter <:+: e) := by
  obtain ⟨store, h⟩ := exists_restorable_performAll hs hfolder hlimit hspeed has
  rw [← hroom'] at h
  obtain ⟨s', hs', hfound⟩ := h.exists_reopened engine' path' d hlimit' hspeed'
  refine ⟨s', hs', hfound, ?_⟩
  rw [hfound]
  exact within_flatMap_parts_eq_iff h.length

/-! ### A phrase that is recorded -/

/-- A line with a phrase that is evaluated adds an entry. -/
theorem history_line {t heard shown noticed spoken entry : Text} {editor : Editor.State}
    (hline : Request.ofLine t = .phrase heard)
    (hpress : Editor.press s.settings.learning s.editor (phraseCommand (some heard)) =
      .ok (editor, [.display shown, .notify noticed, .speak spoken, .record entry])) :
    (s.performAll [.line t]).history = s.history.change (.add entry) := by
  rw [performAll_cons, performAll_nil, (s.perform_eq_moveAll _).1, Action.moves, hline,
    Request.moves, moveAll_singleton, move, handle_of_press hpress, Result.as_as, Result.as_unit]
  exact congrArg Calculation.history (calculation_executeAll (Editor.recordsLast_press hpress) _)

/-- A session without a document begins with nothing, and a phrase is its first entry, which can be
written. -/
theorem exists_first_entry {t heard shown noticed spoken entry : Text} {editor : Editor.State}
    (hline : Request.ofLine t = .phrase heard)
    (hpress : Editor.press true .empty (phraseCommand (some heard)) =
      .ok (editor, [.display shown, .notify noticed, .speak spoken, .record entry])) :
    ∃ s, (openOn .sound .shell .initial "prefs.json".toList .absent).2 = .ok s ∧
      s.Unbroken [.line t] ∧ (s.performAll [.line t]).history.entries = [entry.codes] := by
  have huse : Document.absent.IsUsable Rooms.shell.load .initial :=
    ⟨fun ⟨_, ht, _⟩ => Document.noConfusion ht, fun n hn => by cases hn; trivial,
      fun v hv => by cases hv⟩
  have hwrites : Json.Writes Rooms.shell.write (.object (Document.absent.fields 990)) :=
    .object nofun (n := 985) nofun
  obtain ⟨s, hs⟩ := exists_openOn_of_isUsable huse .sound "prefs.json".toList
  have hstarted := (startedOn_of_openOn _ _ _ _ _ hs).2
  have hlearning : s.settings.learning = true := by
    rw [hstarted.settings]
    rfl
  rw [← hlearning, ← hstarted.editor] at hpress
  refine ⟨s, hs, unbroken_of_openOn hs (Or.inr hwrites) rfl _, ?_⟩
  rw [history_line hline hpress, hstarted.history]
  rfl

/-- A phrase is found again after a restart. -/
theorem exists_reopened_five_plus_three :
    ∃ s s', (openOn .sound .shell .initial "prefs.json".toList .absent).2 = .ok s ∧
      (openOn .sound .shell .initial "prefs.json".toList
        (Program.documentOf (s.performAll [.line "say five plus three".toList]) .absent)).2 =
          .ok s' ∧
      s'.history.entries = ["5 + 3 = 8".toList] := by
  have hline : Request.ofLine "say five plus three".toList = .phrase "five plus three".toList := by
    decide +kernel
  have hpress : Editor.press true .empty (phraseCommand (some "five plus three".toList)) =
      .ok (⟨['8'], ['8'], true, "5 + 3".toList, false⟩,
        [.display ['8'], .notify "Heard: five plus three".toList,
          .speak "Let me solve 5+3 step by step. The result is 8".toList,
          .record "5 + 3 = 8".toList]) := by
    decide +kernel
  obtain ⟨s, hs, hunbroken, hentries⟩ := exists_first_entry hline hpress
  obtain ⟨s', hs', -, hsame⟩ := exists_reopened_entries hs Document.noConfusion (by decide) trivial
    hunbroken .sound (rfl : Rooms.shell.load = Rooms.shell.load) "prefs.json".toList rfl trivial
  refine ⟨s, s', hs, hs', (hsame.2 ?_).trans hentries⟩
  rw [hentries]
  decide +kernel

/-- An entry for a phrase with bars in it is found as two. -/
theorem reopened_five_bars_plus_three_ne :
    ∃ s s', (openOn .sound .shell .initial "prefs.json".toList .absent).2 = .ok s ∧
      (openOn .sound .shell .initial "prefs.json".toList
        (Program.documentOf (s.performAll [.line "say 5 ||| plus 3".toList]) .absent)).2 =
          .ok s' ∧
      s.Unbroken [.line "say 5 ||| plus 3".toList] ∧
      (s.performAll [.line "say 5 ||| plus 3".toList]).history.entries =
        ["5 ||| + 3 = 8".toList] ∧
      s'.history.entries = ["5 ".toList, " + 3 = 8".toList] := by
  have hline : Request.ofLine "say 5 ||| plus 3".toList = .phrase "5 ||| plus 3".toList := by
    decide +kernel
  have hpress : Editor.press true .empty (phraseCommand (some "5 ||| plus 3".toList)) =
      .ok (⟨['8'], ['8'], true, "5 ||| + 3".toList, false⟩,
        [.display ['8'], .notify "Heard: 5 ||| plus 3".toList,
          .speak "Let me solve 5|||+3 step by step. The result is 8".toList,
          .record "5 ||| + 3 = 8".toList]) := by
    decide +kernel
  obtain ⟨s, hs, hunbroken, hentries⟩ := exists_first_entry hline hpress
  obtain ⟨store, h⟩ :=
    exists_restorable_performAll hs Document.noConfusion (by decide) trivial hunbroken
  obtain ⟨s', hs', hfound⟩ :=
    h.exists_reopened .sound "prefs.json".toList .absent rfl trivial
  refine ⟨s, s', hs, hs', hunbroken, hentries, ?_⟩
  rw [hfound, hentries]
  decide +kernel

end Session

end SpokenCalculator
