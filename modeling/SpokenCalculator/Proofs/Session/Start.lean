import SpokenCalculator.Proofs.Preferences.Store
import SpokenCalculator.Proofs.Settings.Speed
import SpokenCalculator.Session.Start

/-!
# Which documents a session starts on

A session starts on every document but three kinds: values nested too deeply for the room there is
where they are read, a speed that is an integer beyond every number of double precision, and a
history that counts as true but is no text.  On every other document whatever cannot be used is
replaced by what the settings say, and the history by an empty one.

* `Document.IsUsable`: the documents on which a session starts;
* `Session.StartedOn`: what a session starts with;
* `exists_openOn_iff_isUsable`: a session starts on these documents only, and with that.
-/

namespace SpokenCalculator

/-! ### The history -/

/-- A history can be used: it is a text, or counts as false. -/
def Json.IsHistory (v : Json) : Prop := (∃ t, v = .string t) ∨ v.isTrue = false

/-- The entries of a stored history, of which there are none if it is no text. -/
def History.entriesOf : Option Json → List Codes
  | some (.string t) => split t
  | _ => []

theorem History.ofStored_of_not_string {v : Json} (h : ¬ ∃ t, v = .string t) :
    ofStored v = (if v.isTrue then .error (.notText v.kind) else .ok []) ∧
      entriesOf (some v) = [] := by
  cases v with
  | string t => exact absurd ⟨t, rfl⟩ h
  | _ => exact ⟨rfl, rfl⟩

theorem History.ofStored_of_isHistory {v : Json} (h : v.IsHistory) :
    ofStored v = .ok (entriesOf (some v)) := by
  by_cases hstring : ∃ t, v = .string t
  · obtain ⟨t, rfl⟩ := hstring
    rfl
  · obtain ⟨hstored, hentries⟩ := ofStored_of_not_string hstring
    rw [hstored, hentries, if_neg]
    rw [h.resolve_left hstring]
    exact Bool.false_ne_true

theorem History.ofStored_of_not_isHistory {v : Json} (h : ¬ v.IsHistory) :
    ∃ e, ofStored v = .error e := by
  rw [Json.IsHistory, not_or, Bool.not_eq_false] at h
  exact ⟨_, (ofStored_of_not_string h.1).1.trans (if_pos h.2)⟩

theorem Preferences.Store.loadHistory_of_isHistory (store : Store)
    (h : ∀ v, store.get? historyKey = some v → v.IsHistory) :
    store.loadHistory = .ok (History.entriesOf (store.get? historyKey)) := by
  rw [loadHistory]
  rcases hv : store.get? historyKey with - | v
  · rfl
  · exact History.ofStored_of_isHistory (h v hv)

theorem Preferences.Store.loadHistory_of_not_isHistory (store : Store) {v : Json}
    (hv : store.get? historyKey = some v) (h : ¬ v.IsHistory) :
    ∃ e, store.loadHistory = .error e := by
  rw [loadHistory, hv]
  exact History.ofStored_of_not_isHistory h

/-! ### The start -/

/-- A session starts on the document with given settings, with given room where it is read. -/
structure Preferences.Document.IsUsable (room : ℕ) (base : Settings) (d : Document) : Prop where
  shallow : ¬ d.IsDeep room
  speed : ∀ n, base.speedValue (d.fields room) = .number n → n.InRange
  history : ∀ v, (d.fields room).get? Store.historyKey = some v → v.IsHistory

/-- What a session starts with: the stored switches, speed and history where they can be used, the
given settings and no history otherwise. -/
structure Session.StartedOn (engine : Speech.Engine) (rooms : Preferences.Rooms) (base : Settings)
    (path : Text) (d : Preferences.Document) (s : Session) : Prop where
  engine_eq : s.engine = engine
  rooms_eq : s.rooms = rooms
  preferences : s.preferences = some ⟨path, d.fields rooms.load, d⟩
  settings : s.settings =
    { base with
      voiceEnabled := engine.start.isNone &&
        ((((d.fields rooms.load).get? Settings.voiceKey).map Json.isTrue).getD base.voiceEnabled)
      touchEnabled :=
        (((d.fields rooms.load).get? Settings.touchKey).map Json.isTrue).getD base.touchEnabled
      learning :=
        (((d.fields rooms.load).get? Settings.learningKey).map Json.isTrue).getD base.learning
      speed := base.startSpeed (d.fields rooms.load) }
  history : s.history = .ofLoaded base.historyLimit
    (History.entriesOf ((d.fields rooms.load).get? Preferences.Store.historyKey))
  editor : s.editor = .empty

namespace Session

section StartedOn

variable {engine : Speech.Engine} {rooms : Preferences.Rooms} {base : Settings} {path : Text}
  {d : Preferences.Document} {s : Session}

theorem StartedOn.touchEnabled_eq (h : StartedOn engine rooms base path d s) :
    s.settings.touchEnabled =
      (((d.fields rooms.load).get? Settings.touchKey).map Json.isTrue).getD base.touchEnabled := by
  rw [h.settings]

theorem StartedOn.speed_eq (h : StartedOn engine rooms base path d s) :
    s.settings.speed = base.startSpeed (d.fields rooms.load) := by
  rw [h.settings]

theorem StartedOn.entries_eq (h : StartedOn engine rooms base path d s) :
    s.history.entries = History.within base.historyLimit
      (History.entriesOf ((d.fields rooms.load).get? Preferences.Store.historyKey)) := by
  rw [h.history]
  rfl

end StartedOn

theorem startedOn_assemble (engine : Speech.Engine) (rooms : Preferences.Rooms)
    (base : Settings) (path : Text) (d : Preferences.Document) (before : List Speech.Event) :
    StartedOn engine rooms base path d
      (assemble engine rooms
        { base.withSwitches (d.fields rooms.load) with
          speed := base.startSpeed (d.fields rooms.load) }
        (some ⟨path, d.fields rooms.load, d⟩)
        (History.entriesOf ((d.fields rooms.load).get? Preferences.Store.historyKey)) before) := by
  rcases hstart : engine.start with - | reason
  · simp only [assemble, Speech.Speaker.start, hstart]
    exact ⟨rfl, rfl, rfl, by rw [hstart]; rfl, rfl, rfl⟩
  · simp only [assemble, Speech.Speaker.start, hstart]
    exact ⟨rfl, rfl, rfl, by rw [hstart]; rfl, rfl, rfl⟩

/-- A start on a document, by what the document holds. -/
theorem openOn_cases (engine : Speech.Engine) (rooms : Preferences.Rooms)
    (base : Settings) (path : Text) (d : Preferences.Document) :
    (¬ d.IsUsable rooms.load base ∧ ∃ e, (openOn engine rooms base path d).2 = .error e) ∨
      d.IsUsable rooms.load base ∧ ∃ s, (openOn engine rooms base path d).2 = .ok s ∧
        StartedOn engine rooms base path d s := by
  rcases Preferences.valuesOf_cases rooms.load path d with
    ⟨hdeep, e, hvalues⟩ | ⟨hshallow, warnings, hvalues⟩
  · refine Or.inl ⟨fun h => h.shallow hdeep, .depth e, ?_⟩
    rw [openOn, Preferences.Store.load, hvalues]
    rfl
  have hload : Preferences.Store.load rooms.load path d =
      .ok (⟨path, d.fields rooms.load, d⟩, warnings) := by
    rw [Preferences.Store.load, hvalues]
    rfl
  rcases base.load_cases (d.fields rooms.load) with
    ⟨hlarge, hsettings⟩ | ⟨hspeed, more, hsettings⟩
  · obtain ⟨n, hn, hrange⟩ := Json.toSpeed_eq_tooLarge_iff.1 hlarge
    refine Or.inl ⟨fun h => hrange (h.speed n hn), .speed .tooLarge, ?_⟩
    simp only [openOn, hload, hsettings]
  by_cases hhistory :
      ∀ v, (d.fields rooms.load).get? Preferences.Store.historyKey = some v → v.IsHistory
  · refine Or.inr ⟨⟨hshallow, fun n hn => ?_, hhistory⟩, ?_⟩
    · by_contra hrange
      exact hspeed (Json.toSpeed_eq_tooLarge_iff.2 ⟨n, hn, hrange⟩)
    · have hentries := Preferences.Store.loadHistory_of_isHistory
        ⟨path, d.fields rooms.load, d⟩ hhistory
      refine ⟨_, ?_, startedOn_assemble engine rooms base path d ((warnings ++ more).map .line)⟩
      simp only [openOn, hload, hsettings, hentries]
      rfl
  · obtain ⟨v, hv⟩ := not_forall.1 hhistory
    obtain ⟨hv, hnot⟩ := Classical.not_imp.1 hv
    obtain ⟨e, he⟩ := Preferences.Store.loadHistory_of_not_isHistory
      ⟨path, d.fields rooms.load, d⟩ hv hnot
    refine Or.inl ⟨fun h => hnot (h.history v hv), .history e, ?_⟩
    simp only [openOn, hload, hsettings, he]

/-- A session that starts does so on a document that can be used, with what can be used of it. -/
theorem startedOn_of_openOn (engine : Speech.Engine) (rooms : Preferences.Rooms)
    (base : Settings) (path : Text) (d : Preferences.Document) {s : Session}
    (h : (openOn engine rooms base path d).2 = .ok s) :
    d.IsUsable rooms.load base ∧ StartedOn engine rooms base path d s := by
  rcases openOn_cases engine rooms base path d with ⟨-, e, he⟩ | ⟨huse, s', hs, hstarted⟩
  · cases he.symm.trans h
  · cases hs.symm.trans h
    exact ⟨huse, hstarted⟩

theorem exists_openOn_of_isUsable {rooms : Preferences.Rooms} {base : Settings}
    {d : Preferences.Document} (h : d.IsUsable rooms.load base) (engine : Speech.Engine)
    (path : Text) :
    ∃ s, (openOn engine rooms base path d).2 = .ok s := by
  rcases openOn_cases engine rooms base path d with ⟨hnot, -⟩ | ⟨-, s, hs, -⟩
  · exact absurd h hnot
  · exact ⟨s, hs⟩

theorem not_exists_openOn_of_not_isUsable {rooms : Preferences.Rooms} {base : Settings}
    {d : Preferences.Document} (h : ¬ d.IsUsable rooms.load base) (engine : Speech.Engine)
    (path : Text) :
    ¬ ∃ s, (openOn engine rooms base path d).2 = .ok s :=
  fun ⟨_, hs⟩ => h (startedOn_of_openOn engine rooms base path d hs).1

/-- **A session starts exactly on the documents that can be used**, with what can be used of
them. -/
theorem exists_openOn_iff_isUsable (engine : Speech.Engine) (rooms : Preferences.Rooms)
    (base : Settings) (path : Text) (d : Preferences.Document) :
    ((∃ s, (openOn engine rooms base path d).2 = .ok s) ↔ d.IsUsable rooms.load base) ∧
      ∀ s, (openOn engine rooms base path d).2 = .ok s → StartedOn engine rooms base path d s := by
  refine ⟨⟨?_, fun h => exists_openOn_of_isUsable h engine path⟩, ?_⟩
  · rintro ⟨s, hs⟩
    exact (startedOn_of_openOn engine rooms base path d hs).1
  · intro s hs
    exact (startedOn_of_openOn engine rooms base path d hs).2

/-- A document whose history is a number. -/
def historyNumber : Preferences.Document := .text "\x7b\"calc_history\": 5\x7d".toList

theorem fields_historyNumber :
    historyNumber.fields Preferences.Rooms.shell.load =
      [(Preferences.Store.historyKey, .number (.int 5))] := by
  decide +kernel

theorem not_isUsable_historyNumber (base : Settings) :
    ¬ historyNumber.IsUsable Preferences.Rooms.shell.load base := by
  intro h
  have hfive := h.history (.number (.int 5))
  rw [fields_historyNumber] at hfive
  rcases hfive rfl with ⟨t, ht⟩ | hfalse
  · cases ht
  · cases hfalse

/-- Such a history is neither used nor passed over. -/
theorem not_exists_openOn_historyNumber :
    ¬ ∃ s, (openOn .sound .shell .initial "prefs.json".toList historyNumber).2 = .ok s :=
  not_exists_openOn_of_not_isUsable (not_isUsable_historyNumber .initial) .sound
    "prefs.json".toList

/-- A document whose speed is no number, with a switch and a history that are used. -/
def fastAndSilent : Preferences.Document :=
  .text ("\x7b\"haptic_enabled\":0, \"speech_speed\":\"fast\", ".toList ++
    "\"calc_history\": \"1 + 1 = 2\"\x7d".toList)

theorem read_fastAndSilent :
    ∃ t, fastAndSilent = .text t ∧
      Json.read Preferences.Rooms.shell.load t =
        .ok (.object [(Settings.touchKey, .number (.int 0)),
          (Settings.speedKey, .string "fast".toList),
          (Preferences.Store.historyKey, .string "1 + 1 = 2".toList)]) := by
  refine ⟨_, rfl, ?_⟩
  decide +kernel

theorem fields_fastAndSilent :
    fastAndSilent.fields Preferences.Rooms.shell.load = [(Settings.touchKey, .number (.int 0)),
      (Settings.speedKey, .string "fast".toList),
      (Preferences.Store.historyKey, .string "1 + 1 = 2".toList)] := by
  obtain ⟨t, ht, hread⟩ := read_fastAndSilent
  rw [ht, Preferences.Document.fields, hread]

theorem isUsable_fastAndSilent :
    fastAndSilent.IsUsable Preferences.Rooms.shell.load .initial where
  shallow := by
    obtain ⟨t, ht, hread⟩ := read_fastAndSilent
    rw [ht]
    exact Preferences.not_isDeep_text hread
  speed := by
    intro n hn
    rw [fields_fastAndSilent] at hn
    cases hn
  history := by
    intro v hv
    rw [fields_fastAndSilent] at hv
    cases hv
    exact Or.inl ⟨_, rfl⟩

theorem startSpeed_fastAndSilent (base : Settings) :
    base.startSpeed (fastAndSilent.fields Preferences.Rooms.shell.load) = base.speed := by
  have hnone : (Text.codes "fast".toList).text?.bind Binary64.ofText? = none := by decide +kernel
  have hvalue : base.speedValue (fastAndSilent.fields Preferences.Rooms.shell.load) =
      .string "fast".toList := by
    rw [fields_fastAndSilent]
    rfl
  simp only [Settings.startSpeed, hvalue, Json.toSpeed, hnone, Option.map_none, Option.getD_none]

theorem openOn_fastAndSilent :
    ∃ s, (openOn .sound .shell .initial "prefs.json".toList fastAndSilent).2 = .ok s ∧
      s.settings.touchEnabled = false ∧ s.settings.speed = Settings.initial.speed ∧
      s.history.entries = ["1 + 1 = 2".toList] := by
  obtain ⟨hiff, hstarted⟩ :=
    exists_openOn_iff_isUsable .sound .shell .initial "prefs.json".toList fastAndSilent
  obtain ⟨s, hs⟩ := hiff.2 isUsable_fastAndSilent
  have hused := hstarted s hs
  have hlimit : Settings.initial.historyLimit = 50 := rfl
  refine ⟨s, hs, ?_, ?_, ?_⟩
  · rw [hused.touchEnabled_eq, fields_fastAndSilent]
    decide +kernel
  · rw [hused.speed_eq]
    exact startSpeed_fastAndSilent .initial
  · rw [hused.entries_eq, fields_fastAndSilent, hlimit]
    decide +kernel

end Session

end SpokenCalculator
