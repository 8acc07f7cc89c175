import SpokenCalculator.Preferences.Store
import SpokenCalculator.Proofs.Json.Value

/-!
# Values in memory and in the document

What is read of a document depends on the room where it is read, and what is written on the room
where it is written.  Values that can be read and are written whole are found again.

* `Document.fields`, `Document.IsDeep`: the values that are found in a document, and the documents
  that are not read to the end;
* `fields_of_write`: values are found in the document that they are written to;
* `Store.Synced`: a store whose values are found in its document;
* `synced_of_document`, `Synced.put`, `Synced.remove`: the values that are read are, and those
  that are written.
-/

namespace SpokenCalculator

/-! ### Fields -/

namespace Fields

theorem isSome_get?_iff {key : Codes} {fields : Fields} :
    (fields.get? key).isSome ↔ key ∈ fields.keys := by
  induction fields with
  | nil => simp [get?, keys]
  | cons f rest ih =>
    rw [get?, keys, List.map_cons, List.mem_cons]
    split_ifs with h
    · simp [h]
    · rw [ih, keys, or_iff_right (Ne.symm h)]

@[simp] theorem get?_remove_self (key : Codes) (fields : Fields) :
    (fields.remove key).get? key = none := by
  induction fields with
  | nil => rfl
  | cons f rest ih =>
    unfold remove at ih ⊢
    by_cases h : f.1 = key
    · rw [List.filter_cons_of_neg (by simp [h])]
      exact ih
    · rw [List.filter_cons_of_pos (by simp [h]), get?, if_neg h]
      exact ih

theorem get?_remove_of_ne {key other : Codes} (h : other ≠ key) (fields : Fields) :
    (fields.remove key).get? other = fields.get? other := by
  induction fields with
  | nil => rfl
  | cons f rest ih =>
    unfold remove at ih ⊢
    by_cases hk : f.1 = key
    · have hother : f.1 ≠ other := fun ho => h (ho.symm.trans hk)
      rw [List.filter_cons_of_neg (by simp [hk]), ih, get?, if_neg hother]
    · rw [List.filter_cons_of_pos (by simp [hk]), get?, get?, ih]

theorem remove_of_notMem {key : Codes} {fields : Fields} (h : key ∉ fields.keys) :
    fields.remove key = fields := by
  refine List.filter_eq_self.2 fun f hf => bne_iff_ne.2 ?_
  rintro rfl
  exact h (List.mem_map_of_mem hf)

end Fields

namespace Json

/-- An object that fits still does with another value that does at any depth. -/
theorem Fits.put {n : ℕ} {fields : Fields} (h : Fits n (.object fields)) (key : Codes) {v : Json}
    (hv : ∀ m, Fits m v) : Fits n (.object (fields.put key v)) := by
  cases h with
  | object hkeys hfields => exact .object (nodup_keys_put hkeys key v) (forall_put hfields (hv _))

theorem Fits.remove {n : ℕ} {fields : Fields} (h : Fits n (.object fields)) (key : Codes) :
    Fits n (.object (fields.remove key)) := by
  cases h with
  | object hkeys hfields =>
    exact .object (hkeys.sublist (List.filter_sublist.map _)) fun f hf =>
      hfields f (List.mem_of_mem_filter hf)

end Json

namespace Preferences

/-! ### Documents -/

/-- The values of a document that a start finds: those of an object, and none of anything else. -/
def Document.fields (room : ℕ) : Document → Fields
  | .text t =>
    match Json.read room t with
    | .ok (.object fields) => fields
    | _ => []
  | _ => []

/-- The document holds values nested too deeply. -/
def Document.IsDeep (room : ℕ) (d : Document) : Prop :=
  ∃ t, d = .text t ∧
    (Json.read room t = .error .deepArray ∨ Json.read room t = .error .deepObject)

section Document

variable {room : ℕ}

theorem Document.fields_of_isDeep {d : Document} (h : d.IsDeep room) : d.fields room = [] := by
  obtain ⟨t, rfl, hread | hread⟩ := h <;> rw [fields, hread]

/-- A document has its values or is too deep. -/
theorem valuesOf_cases (room : ℕ) (path : Text) (d : Document) :
    (d.IsDeep room ∧ ∃ e, valuesOf room path d = .error e) ∨
      ¬ d.IsDeep room ∧ ∃ warnings, valuesOf room path d = .ok (d.fields room, warnings) := by
  cases d with
  | text t =>
    simp only [valuesOf, Document.fields, Document.IsDeep, Document.text.injEq, exists_eq_left']
    rcases h : Json.read room t with e | v
    · cases e <;> simp
    · cases v <;> simp
  | absent => exact Or.inr ⟨fun ⟨_, ht, _⟩ => Document.noConfusion ht, _, rfl⟩
  | folder => exact Or.inr ⟨fun ⟨_, ht, _⟩ => Document.noConfusion ht, _, rfl⟩
  | binary bytes => exact Or.inr ⟨fun ⟨_, ht, _⟩ => Document.noConfusion ht, _, rfl⟩

/-- What is found in a document can be found again. -/
theorem fits_fields {room : ℕ} (hroom : 0 < room) (d : Document) :
    Json.Fits room (.object (d.fields room)) := by
  have hnone : Json.Fits room (.object []) := by
    obtain ⟨n, rfl⟩ : ∃ n, room = n + 1 := ⟨room - 1, by omega⟩
    exact .object List.nodup_nil (by simp)
  unfold Document.fields
  split
  · split
    · exact Json.fits_of_read ‹_›
    · exact hnone
  · exact hnone

theorem not_isDeep_text {t : Text} {v : Json} (h : Json.read room t = .ok v) :
    ¬ (Document.text t).IsDeep room := by
  rintro ⟨t', ht, hdeep⟩
  rw [← Document.text.inj ht, h] at hdeep
  rcases hdeep with hdeep | hdeep <;> cases hdeep

/-- **Values that can be read are found in the document that they are written to**, if it is written
whole. -/
theorem fields_of_write {values : Fields} (h : Json.Fits room (.object values)) {m : ℕ} {t : Text}
    (hwrite : (Json.object values).write m = (t, none)) :
    (Document.text t).fields room = values ∧ ¬ (Document.text t).IsDeep room := by
  have hread := Json.read_of_write h hwrite
  exact ⟨by rw [Document.fields, hread], not_isDeep_text hread⟩

end Document

/-! ### Stores -/

namespace Store

/-- The values in memory are those in the document, which can be written. -/
structure Synced (room : ℕ) (store : Store) : Prop where
  writable : store.document ≠ .folder
  shallow : ¬ store.document.IsDeep room
  fields : store.document.fields room = store.values

variable {room m : ℕ} {store : Store}

theorem Synced.fits (h : store.Synced room) (hroom : 0 < room) :
    Json.Fits room (.object store.values) := by
  rw [← h.fields]
  exact fits_fields hroom store.document

theorem synced_of_document (path : Text) {d : Document} (hfolder : d ≠ .folder)
    (hdeep : ¬ d.IsDeep room) : Synced room ⟨path, d.fields room, d⟩ where
  writable := hfolder
  shallow := hdeep
  fields := rfl

theorem write_of_ne_folder (h : store.document ≠ .folder) (m : ℕ) :
    store.write m =
      ⟨{ store with document := .text ((Json.object store.values).write m).1 },
        ((Json.object store.values).write m).2.map .broken⟩ := by
  unfold write
  split
  · exact absurd ‹_› h
  · rfl

theorem write_of_folder (h : store.document = .folder) (m : ℕ) :
    store.write m = ⟨store, some (.refused (folderReason store.path))⟩ := by
  rw [write, h]

/-- **A write that does not fail is of all values.** -/
theorem exists_of_write (h : (store.write m).failure = none) :
    store.document ≠ .folder ∧ ∃ t : Text, (Json.object store.values).write m = (t, none) ∧
      (Json.object store.values).indented = t.codes ∧
      (store.write m).state = { store with document := .text t } := by
  have hfolder : store.document ≠ .folder := by
    intro hfolder
    rw [write_of_folder hfolder] at h
    cases h
  rw [write_of_ne_folder hfolder, Option.map_eq_none_iff] at h
  obtain ⟨t, hwrite, htext⟩ := Json.exists_write_of_writes (Json.write_eq_none_iff.1 h)
  refine ⟨hfolder, t, hwrite, htext, ?_⟩
  rw [write_of_ne_folder hfolder, hwrite]

/-- Values that can be read are found again after a write that does not fail. -/
theorem synced_write (hfits : Json.Fits room (.object store.values))
    (h : (store.write m).failure = none) : (store.write m).state.Synced room := by
  obtain ⟨-, t, hwrite, -, hstate⟩ := exists_of_write h
  obtain ⟨hfields, hdeep⟩ := fields_of_write hfits hwrite
  rw [hstate]
  exact ⟨nofun, hdeep, hfields⟩

@[simp] theorem values_write (m : ℕ) (store : Store) :
    (store.write m).state.values = store.values := by
  unfold write
  split <;> rfl

@[simp] theorem path_write (m : ℕ) (store : Store) : (store.write m).state.path = store.path := by
  unfold write
  split <;> rfl

theorem values_put (m : ℕ) (store : Store) (key : Codes) (v : Json) :
    (store.put m key v).state.values = Fields.put key v store.values :=
  values_write m _

theorem values_remove (m : ℕ) (store : Store) (key : Codes) :
    (store.remove m key).state.values = Fields.remove key store.values := by
  unfold remove
  split_ifs with h
  · exact values_write m _
  · exact (Fields.remove_of_notMem h).symm

theorem Synced.put (h : store.Synced room) (hroom : 0 < room) {key : Codes} {v : Json}
    (hv : ∀ n, Json.Fits n v) (hwrite : (store.put m key v).failure = none) :
    (store.put m key v).state.Synced room :=
  synced_write (Json.Fits.put (h.fits hroom) key hv) hwrite

theorem Synced.remove (h : store.Synced room) (hroom : 0 < room) {key : Codes}
    (hwrite : (store.remove m key).failure = none) : (store.remove m key).state.Synced room := by
  unfold Store.remove at hwrite ⊢
  split_ifs at hwrite ⊢
  · exact synced_write (Json.Fits.remove (h.fits hroom) key) hwrite
  · exact h

end Store

end Preferences
end SpokenCalculator
