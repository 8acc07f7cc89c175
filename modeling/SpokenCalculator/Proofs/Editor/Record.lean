import SpokenCalculator.Proofs.Editor.Equals

/-!
# What is recorded in a history

* `Messages`: effects that only say or notify something, which are those of every command but an
  evaluation;
* `Reports`, `reports_act`: a command leaves messages, and an evaluation the line with its result at
  the end;
* `IsRecord`, `records_press`: only evaluations are recorded;
* `RecordsLast`, `recordsLast_press`: an entry is recorded after everything else;
* `IsRecord.getLast?`: an entry ends with the last character of a result.
-/

namespace SpokenCalculator.Editor
open Text

/-! ### Commands that only leave messages -/

/-- Something is said or notified. -/
def Effect.isMessage : Effect → Bool
  | .speak _ | .notify _ => true
  | _ => false

/-- Something is said or notified, and nothing else is done. -/
def Messages (effects : List Effect) : Prop := ∀ e ∈ effects, e.isMessage = true

theorem messages_nil : Messages [] := fun _ h => absurd h List.not_mem_nil

theorem messages_speak (t : Text) : Messages [.speak t] := List.forall_mem_singleton.2 rfl

theorem messages_speak_notify (t u : Text) : Messages [.speak t, .notify u] :=
  List.forall_mem_cons.2 ⟨rfl, List.forall_mem_singleton.2 rfl⟩

theorem messages_typeDigit (s : State) (label : Codes) : Messages (typeDigit s label).2 := by
  unfold typeDigit
  split
  · split_ifs
    · exact messages_speak _
    · exact messages_nil
  · exact messages_nil

theorem messages_typePoint (s : State) : Messages (typePoint s).2 := by
  unfold typePoint
  split_ifs
  · exact messages_nil
  · exact messages_speak _

theorem messages_typeOperator (s : State) (sign : Option Text) :
    Messages (typeOperator s sign).2 := by
  unfold typeOperator
  split
  · exact messages_nil
  · split_ifs
    · exact messages_speak _
    · exact messages_nil

theorem messages_takePercent (s : State) : Messages (takePercent s).2 := by
  unfold takePercent
  split_ifs
  · exact messages_nil
  · split
    · exact messages_nil
    · exact messages_speak _

theorem messages_toggleSign (s : State) : Messages (toggleSign s).2 := by
  unfold toggleSign
  split_ifs
  · exact messages_nil
  · split
    · exact messages_nil
    · exact messages_speak _

theorem messages_erase {s : State} {o : Outcome} (h : erase s = .ok o) : Messages o.2 := by
  unfold erase at h
  split_ifs at h
  · rw [← Except.ok.inj h]
    exact messages_nil
  · split at h
    · cases h
    · rw [← Except.ok.inj h]
      exact messages_speak _

theorem messages_stepBack {s : State} {o : Outcome} (h : stepBack s = .ok o) : Messages o.2 := by
  unfold stepBack at h
  split_ifs at h
  · exact messages_erase h
  · rw [← Except.ok.inj h]
    exact messages_speak _
  · exact messages_erase h

/-! ### Evaluations -/

/-- An entry for a line that was evaluated. -/
def IsRecord (entry : Text) : Prop :=
  ∃ line v, evaluate (keyboardLine line) = .ok v ∧ entry = historyEntry line (resultText v)

/-- Effects are messages, with an entry for a line that was evaluated at the end if there is one. -/
def Reports (effects : List Effect) : Prop :=
  ∃ messages record, effects = messages ++ record ∧ Messages messages ∧
    (record = [] ∨ ∃ entry, record = [.record entry] ∧ IsRecord entry)

theorem Messages.reports {effects : List Effect} (h : Messages effects) : Reports effects :=
  ⟨effects, [], (List.append_nil effects).symm, h, Or.inl rfl⟩

theorem Reports.cons {e : Effect} {effects : List Effect} (he : e.isMessage = true)
    (h : Reports effects) : Reports (e :: effects) := by
  obtain ⟨messages, record, rfl, hmessages, hrecord⟩ := h
  exact ⟨e :: messages, record, rfl, List.forall_mem_cons.2 ⟨he, hmessages⟩, hrecord⟩

theorem reports_solve (learning : Bool) (s : State) : Reports (solve learning s).2 := by
  unfold solve
  split_ifs
  · exact messages_nil.reports
  · split
    · exact (messages_speak_notify _ _).reports
    · rename_i v hv
      exact ⟨[.speak _], _, rfl, messages_speak _, Or.inr ⟨_, rfl, s.line, v, hv, rfl⟩⟩

theorem reports_solvePhrase (learning : Bool) (s : State) (heard : Text) :
    Reports (solvePhrase learning s heard).2 := by
  unfold solvePhrase
  split_ifs
  · exact (messages_speak_notify _ _).reports
  · exact (reports_solve learning _).cons rfl

/-- **A command leaves messages, and at the end an entry if a line was evaluated.**  What is felt
and shown is left to all commands alike. -/
theorem reports_act {learning : Bool} {s : State} {c : Command} {o : Outcome}
    (h : act learning s c = .ok o) : Reports o.2 := by
  cases c with
  | backspace => exact (messages_stepBack h).reports
  | foreign value => exact absurd h (act_foreign_ne_ok _ _ _ _)
  | digit label =>
    obtain ⟨t, -, rfl⟩ := act_digit_eq_ok_iff.1 h
    exact (messages_typeDigit s t).reports
  | point => exact Except.ok.inj h ▸ (messages_typePoint s).reports
  | operator sign => exact Except.ok.inj h ▸ (messages_typeOperator s sign).reports
  | percent => exact Except.ok.inj h ▸ (messages_takePercent s).reports
  | sign => exact Except.ok.inj h ▸ (messages_toggleSign s).reports
  | clear => exact Except.ok.inj h ▸ (messages_speak _).reports
  | equals => exact Except.ok.inj h ▸ reports_solve learning s
  | phrase heard => exact Except.ok.inj h ▸ reports_solvePhrase learning s (heard.getD [])
  | silence code => exact Except.ok.inj h ▸ (messages_speak_notify _ _).reports

/-! ### Records -/

/-- An entry is recorded. -/
def Effect.isRecord : Effect → Bool
  | .record _ => true
  | _ => false

theorem isRecord_of_isMessage {e : Effect} (h : e.isMessage = true) : e.isRecord = false := by
  cases e <;> first | rfl | cases h

theorem isRecord_felt_append_shown (c : Command) (s s' : State) :
    ∀ e ∈ felt c ++ shown s s', e.isRecord = false := by
  unfold felt shown
  split_ifs <;> simp [Effect.isRecord]

/-- Effects record evaluations alone. -/
def Records (effects : List Effect) : Prop := ∀ entry, .record entry ∈ effects → IsRecord entry

theorem Records.append {before after : List Effect} (hbefore : ∀ e ∈ before, e.isRecord = false)
    (hafter : Records after) : Records (before ++ after) := by
  intro entry hentry
  rcases List.mem_append.1 hentry with hentry | hentry
  · exact absurd (hbefore _ hentry).symm Bool.false_ne_true
  · exact hafter entry hentry

theorem Reports.records {effects : List Effect} (h : Reports effects) : Records effects := by
  obtain ⟨messages, record, rfl, hmessages, hrecord⟩ := h
  refine Records.append (fun e he => isRecord_of_isMessage (hmessages e he)) fun entry hentry => ?_
  rcases hrecord with rfl | ⟨entry', rfl, hrecord⟩
  · exact absurd hentry List.not_mem_nil
  · rw [Effect.record.inj (List.mem_singleton.1 hentry)]
    exact hrecord

theorem records_press {learning : Bool} {s : State} {c : Command} {o : Outcome}
    (h : press learning s c = .ok o) : Records o.2 := by
  obtain ⟨o', hact, -, heffects⟩ := exists_act_of_press h
  rw [heffects]
  exact Records.append (isRecord_felt_append_shown c s o'.1) (reports_act hact).records

/-! ### The order of effects -/

/-- No entry is recorded before the last of the effects. -/
def RecordsLast (effects : List Effect) : Prop := ∀ e ∈ effects.dropLast, e.isRecord = false

theorem recordsLast_nil : RecordsLast [] := fun _ h => absurd h List.not_mem_nil

theorem recordsLast_cons_cons_iff {e e' : Effect} {effects : List Effect} :
    RecordsLast (e :: e' :: effects) ↔ e.isRecord = false ∧ RecordsLast (e' :: effects) := by
  rw [RecordsLast, List.dropLast_cons_cons, List.forall_mem_cons]
  rfl

theorem RecordsLast.append {before after : List Effect}
    (hbefore : ∀ e ∈ before, e.isRecord = false) (hafter : RecordsLast after) :
    RecordsLast (before ++ after) := by
  intro e he
  by_cases hnil : after = []
  · rw [hnil, List.append_nil] at he
    exact hbefore e (List.dropLast_subset _ he)
  · rw [List.dropLast_append_of_ne_nil hnil] at he
    exact (List.mem_append.1 he).elim (hbefore e) (hafter e)

theorem Reports.recordsLast {effects : List Effect} (h : Reports effects) :
    RecordsLast effects := by
  obtain ⟨messages, record, rfl, hmessages, hrecord⟩ := h
  refine RecordsLast.append (fun e he => isRecord_of_isMessage (hmessages e he)) ?_
  rcases hrecord with rfl | ⟨entry, rfl, -⟩
  · exact recordsLast_nil
  · exact fun _ h => absurd h List.not_mem_nil

/-- **A command records an entry after everything else.** -/
theorem recordsLast_press {learning : Bool} {s : State} {c : Command} {o : Outcome}
    (h : press learning s c = .ok o) : RecordsLast o.2 := by
  obtain ⟨o', hact, -, heffects⟩ := exists_act_of_press h
  rw [heffects]
  exact RecordsLast.append (isRecord_felt_append_shown c s o'.1) (reports_act hact).recordsLast

/-! ### Entries -/

/-- The text of a result has only characters of a numeral. -/
theorem bar_notMem_resultText {v : Binary64} (h : roundPlaces v = .ok v) :
    '|' ∉ resultText v := by
  obtain ⟨s, r, hr, t, -, htext, hplain, -⟩ := exists_resultText h
  rw [htext, List.mem_append, not_or]
  refine ⟨by cases s <;> decide, fun hbar => ?_⟩
  exact absurd ((isNumeralChar_of_isPlain hplain).2 '|' hbar) (by decide)

/-- An entry ends with the last character of a result. -/
theorem IsRecord.getLast? {entry : Text} (h : IsRecord entry) :
    ∃ c, entry.getLast? = some c ∧ c ≠ '|' := by
  obtain ⟨line, v, hv, rfl⟩ := h
  have hround := roundPlaces_of_evaluate hv
  have hne := resultText_ne_nil hround
  refine ⟨(resultText v).getLast hne, ?_, fun hc => ?_⟩
  · rw [historyEntry, List.getLast?_append_of_ne_nil _ hne, List.getLast?_eq_some_getLast hne]
  · exact bar_notMem_resultText hround (hc ▸ List.getLast_mem hne)

end SpokenCalculator.Editor
