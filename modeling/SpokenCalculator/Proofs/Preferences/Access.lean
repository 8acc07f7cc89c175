import SpokenCalculator.Preferences.Access
import SpokenCalculator.Proofs.Preferences.Store

/-!
# Preferences are loaded as they were left

Values of any depth may be put in place, and be written where there is room for them.  Whether they
are found again is up to the room where the document is read, which may be less: a document that is
written whole can be too deep to be read.

* `Access.IsStorable`: only values that can be read, to some depth, are put in place;
* `Store.Kept`, `Kept.access`: what is in memory is in the document;
* `load_accessAll`: after any accesses none of which fails, the values in memory are loaded again
  just if there is room for each.
-/

namespace SpokenCalculator

/-! ### Values of any depth -/

namespace Json

theorem exists_fits_put {fields : Fields} (h : ∃ n, Fits n (.object fields)) (key : Codes)
    {v : Json} (hv : ∃ n, Fits n v) : ∃ n, Fits n (.object (fields.put key v)) := by
  obtain ⟨n, h⟩ := h
  obtain ⟨m, hv⟩ := hv
  cases h with
  | @object n _ hkeys hfields =>
    exact ⟨max n m + 1, .object (nodup_keys_put hkeys key v)
      (forall_put (fun f hf => (hfields f hf).mono (le_max_left n m)) (hv.mono (le_max_right n m)))⟩

/-- An empty list within others, as many as are given. -/
def nested : ℕ → Json
  | 0 => .array []
  | n + 1 => .array [nested n]

theorem within_nested_iff {text : Codes → Prop} {keys : List Codes → Prop} {n k : ℕ} :
    Within text keys n (nested k) ↔ k < n := by
  induction k generalizing n with
  | zero =>
    cases n with
    | zero => exact iff_of_false (not_within_zero_array []) (Nat.lt_irrefl 0)
    | succ n => exact iff_of_true (.array fun v hv => absurd hv List.not_mem_nil) n.succ_pos
  | succ k ih =>
    cases n with
    | zero => exact iff_of_false (not_within_zero_array _) (Nat.not_lt_zero _)
    | succ n => rw [nested, within_array_iff, List.forall_mem_singleton, ih, Nat.succ_lt_succ_iff]

end Json

namespace Preferences

/-- Only values that can be read, to some depth, are put in place. -/
def Access.IsStorable : Access → Prop
  | .set _ value => ∃ n, Json.Fits n value
  | _ => True

/-- The values in memory after an access. -/
def Access.values (fields : Fields) : Access → Fields
  | .get _ => fields
  | .set key value => fields.put key value
  | .remove key => fields.remove key

namespace Store

/-! ### Single accesses -/

variable {room m : ℕ} {path : Text} {store store' : Store}

/-- What is loaded can be read again. -/
theorem fits_of_load {d : Document} {warnings : List Text}
    (h : load room path d = .ok (store, warnings)) (hroom : 0 < room) :
    Json.Fits room (.object store.values) := by
  rcases valuesOf_cases room path d with ⟨-, e, he⟩ | ⟨-, w, hw⟩
  · rw [load, he] at h
    cases h
  · rw [load, hw] at h
    cases h
    exact fits_fields hroom d

/-- The values in memory are in the document, and are loaded again where there is room. -/
structure Kept (room : ℕ) (path : Text) (store : Store) : Prop where
  path_eq : store.path = path
  storable : ∃ n, Json.Fits n (.object store.values)
  loaded : Json.Fits room (.object store.values) →
    ∃ warnings, load room path store.document = .ok (store, warnings)

theorem kept_of_load {d : Document} {warnings : List Text}
    (h : load room path d = .ok (store, warnings)) (hroom : 0 < room) : store.Kept room path := by
  have hload := h
  have hfits := fits_of_load h hroom
  obtain ⟨⟨values, w⟩, -, heq⟩ := Json.map_eq_ok_iff.1 h
  cases heq
  exact ⟨rfl, ⟨room, hfits⟩, fun _ => ⟨warnings, hload⟩⟩

/-- **Values that are written whole are loaded again**, where there is room for them. -/
theorem kept_of_write (hpath : store.path = path)
    (hstorable : ∃ n, Json.Fits n (.object store.values)) (h : (store.write m).failure = none) :
    (store.write m).state.Kept room path := by
  obtain ⟨-, t, hwrite, -, hstate⟩ := exists_of_write h
  rw [hstate]
  refine ⟨hpath, hstorable, fun hfits => ⟨[], ?_⟩⟩
  rw [load, valuesOf, Json.read_of_write hfits hwrite, ← hpath]
  rfl

theorem settle_eq_ok_iff {attempt : Attempt Store} {value : Option Json} :
    settle attempt = (store', .ok value) ↔
      attempt.failure = none ∧ attempt.state = store' ∧ value = none := by
  unfold settle
  rcases attempt.failure with - | e
  · simp [eq_comm]
  · simp

/-- What is in memory is in the document after an access that does not fail. -/
theorem Kept.access (h : store.Kept room path) {a : Access} (ha : a.IsStorable)
    {value : Option Json} (haccess : store.access m a = (store', .ok value)) :
    store'.Kept room path := by
  cases a with
  | get key =>
    cases haccess
    exact h
  | set key v =>
    obtain ⟨hwrite, rfl, -⟩ := settle_eq_ok_iff.1 haccess
    exact kept_of_write h.path_eq (Json.exists_fits_put h.storable key ha) hwrite
  | remove key =>
    obtain ⟨hwrite, rfl, -⟩ := settle_eq_ok_iff.1 haccess
    unfold remove at hwrite ⊢
    split_ifs at hwrite ⊢
    · obtain ⟨n, hfits⟩ := h.storable
      exact kept_of_write h.path_eq ⟨n, hfits.remove key⟩ hwrite
    · exact h

theorem values_access (m : ℕ) (store : Store) (a : Access) :
    (store.access m a).1.values = a.values store.values := by
  cases a with
  | get key => rfl
  | set key v => exact values_put m store key v
  | remove key => exact values_remove m store key

/-! ### Any number of accesses -/

/-- The preferences after accesses none of which fails. -/
def accessAll (m : ℕ) (store : Store) : List Access → Except WriteError Store
  | [] => .ok store
  | a :: as =>
    match store.access m a with
    | (store', .ok _) => store'.accessAll m as
    | (_, .error e) => .error e

theorem exists_access_of_accessAll {a : Access} {as : List Access}
    (h : store.accessAll m (a :: as) = .ok store') :
    ∃ s value, store.access m a = (s, .ok value) ∧ s.accessAll m as = .ok store' := by
  rw [accessAll] at h
  split at h
  · exact ⟨_, _, ‹_›, h⟩
  · cases h

theorem Kept.accessAll (h : store.Kept room path) {as : List Access}
    (has : ∀ a ∈ as, a.IsStorable) (haccess : store.accessAll m as = .ok store') :
    store'.Kept room path := by
  induction as generalizing store with
  | nil =>
    cases haccess
    exact h
  | cons a as ih =>
    obtain ⟨ha, has⟩ := List.forall_mem_cons.1 has
    obtain ⟨s, value, hone, hrest⟩ := exists_access_of_accessAll haccess
    exact ih (h.access ha hone) has hrest

/-- What is in memory is told from the accesses alone. -/
theorem values_accessAll {as : List Access} (h : store.accessAll m as = .ok store') :
    store'.values = as.foldl Access.values store.values := by
  induction as generalizing store with
  | nil =>
    cases h
    rfl
  | cons a as ih =>
    obtain ⟨s, value, hone, hrest⟩ := exists_access_of_accessAll h
    have hvalues := values_access m store a
    rw [hone] at hvalues
    rw [ih hrest, hvalues, List.foldl_cons]

/-- **Preferences are loaded as they were left**, with the same names in the same order and the same
values, after any accesses none of which fails, just if each value is nested no deeper than there is
room for in an object that is read. -/
theorem load_accessAll {d : Document} {warnings : List Text}
    (hload : load (room + 1) path d = .ok (store, warnings)) {as : List Access}
    (has : ∀ a ∈ as, a.IsStorable) (haccess : store.accessAll m as = .ok store') :
    store'.values = as.foldl Access.values store.values ∧
      ((∃ warnings, load (room + 1) path store'.document = .ok (store', warnings)) ↔
        ∀ f ∈ store'.values, Json.Fits room f.2) := by
  have hkept := (kept_of_load hload room.succ_pos).accessAll has haccess
  obtain ⟨n, hstorable⟩ := hkept.storable
  have hkeys : store'.values.keys.Nodup := by
    cases hstorable
    assumption
  refine ⟨values_accessAll haccess, ?_, fun hfits => hkept.loaded (.object hkeys hfits)⟩
  rintro ⟨warnings, hagain⟩
  exact (Json.within_object_iff.1 (fits_of_load hagain room.succ_pos)).2

/-- A name is put in place twice and keeps its place; another is removed and put in place again, and
goes to the end.  An integer and a number that is equal to it stay apart. -/
theorem load_accessAll_nested :
    let nested : Json := .array [.number (.int 1), .number (.float (.ofInt 1)),
      .object [([.char 'k'], .array []), (Text.codes ['"', '\n', 'é'], .object [])]]
    ∃ store : Store,
      accessAll 993 ⟨['p'], [], .absent⟩
        [.set [.char 'a'] .null, .set [.char 'b'] (.bool true),
          .set [.char 'c'] (.string (Text.codes ['"', '\n', 'é'])), .set [.char 'a'] nested,
          .get [.char 'a'], .remove [.char 'b'], .remove [.char 'b'],
          .set [.char 'b'] (.number (.int (-7)))] = .ok store ∧
      store.values =
        [([.char 'a'], nested), ([.char 'c'], .string (Text.codes ['"', '\n', 'é'])),
          ([.char 'b'], .number (.int (-7)))] ∧
      ∃ warnings, load 990 ['p'] store.document = .ok (store, warnings) := by
  intro nested
  have hone : Number.isLong (.int 1) = false := by decide +kernel
  have hseven : ∀ n, Json.Fits n (.number (.int (-7))) := fun n => .number n (by decide +kernel)
  have hnested : Json.Fits 3 nested := by
    refine .array (List.forall_mem_cons.2 ⟨.number _ hone, List.forall_mem_cons.2
      ⟨.number _ rfl, List.forall_mem_singleton.2 (.object (by decide) ?_)⟩⟩)
    exact List.forall_mem_cons.2 ⟨.array (by simp),
      List.forall_mem_singleton.2 (.object List.nodup_nil (by simp))⟩
  generalize has : [Access.set [.char 'a'] .null, _, _, _, _, _, _, _] = as
  have hok : (accessAll 993 ⟨['p'], [], .absent⟩ as).isOk = true := by
    rw [← has]
    decide +kernel
  rcases hstore : accessAll 993 ⟨['p'], [], .absent⟩ as with e | store
  · rw [hstore] at hok
    cases hok
  · have hstorable : ∀ a ∈ as, a.IsStorable := by
      rw [← has]
      simp only [List.forall_mem_cons, Access.IsStorable, true_and]
      exact ⟨⟨0, .null 0⟩, ⟨0, .bool 0 true⟩, ⟨0, .string 0 trivial⟩, ⟨3, hnested⟩,
        ⟨0, hseven 0⟩, by simp⟩
    obtain ⟨hvalues, hload⟩ := @load_accessAll 989 _ _ _ _ .absent [] rfl as hstorable hstore
    rw [← has] at hvalues
    refine ⟨store, rfl, hvalues, hload.2 ?_⟩
    rw [hvalues]
    exact List.forall_mem_cons.2 ⟨hnested.mono (by decide), List.forall_mem_cons.2
      ⟨.string 989 trivial, List.forall_mem_singleton.2 (hseven 989)⟩⟩

/-- **A list may be nested so deeply that it is written whole and cannot be read.** -/
theorem not_load_nested :
    (Access.set [.char 'k'] (Json.nested 990)).IsStorable ∧
      ∃ store : Store,
        accessAll 993 ⟨['p'], [], .absent⟩ [.set [.char 'k'] (Json.nested 990)] = .ok store ∧
        store.values = [([.char 'k'], Json.nested 990)] ∧
        ¬ ∃ warnings, load 990 ['p'] store.document = .ok (store, warnings) := by
  have hvalue : (Json.object [([.char 'k'], Json.nested 990)]).Writes 993 :=
    .object (List.forall_mem_singleton.2 ⟨['k'], rfl⟩)
      (List.forall_mem_singleton.2 (Json.within_nested_iff.2 (by decide)))
  obtain ⟨t, hwrite, -⟩ := Json.exists_write_of_writes hvalue
  have hput : put 993 ⟨['p'], [], .absent⟩ [.char 'k'] (Json.nested 990) =
      ⟨⟨['p'], [([.char 'k'], Json.nested 990)], .text t⟩, none⟩ := by
    have hwritable :
        (Store.mk ['p'] [([.char 'k'], Json.nested 990)] .absent).document ≠ .folder := nofun
    show write 993 ⟨['p'], [([.char 'k'], Json.nested 990)], .absent⟩ = _
    rw [write_of_ne_folder hwritable, hwrite]
    rfl
  refine ⟨⟨991, Json.within_nested_iff.2 (by decide)⟩,
    ⟨['p'], [([.char 'k'], Json.nested 990)], .text t⟩, ?_, rfl, ?_⟩
  · rw [accessAll, access, hput]
    rfl
  · rintro ⟨warnings, hload⟩
    have hfits := (Json.within_object_iff.1 (fits_of_load hload (by decide))).2 _
      (List.mem_singleton_self _)
    exact absurd (Json.within_nested_iff.1 hfits) (by decide)

end Store
end Preferences
end SpokenCalculator
