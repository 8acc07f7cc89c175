import Mathlib.Data.List.Basic
import SpokenCalculator.Json.Writer

/-!
# What a value holds

Whether a value can be read, written or shown depends on all that it holds: on its integers, its
texts and the keys of its objects, and on how deep its lists and objects are within one another.

* `Json.induction`: what holds of every value by what it holds of the values within it;
* `same_iff`: equality of values can be decided;
* `Within`: values with texts and keys of one kind, to a depth;
* `Fits`, `Writes`, `Shows`: the values that can be read, written whole and shown;
* `exists_inline_iff`, `exists_label_iff`: a value has a text on one line just if it can be shown;
* `write_eq_none_iff`, `exists_write_of_writes`: a document does not break off just if its value can
  be written, and it is then the value one item on a line.
-/

namespace SpokenCalculator

namespace Json

/-! ### Induction -/

/-- What holds of a list if it holds of its items, and of an object if it holds of its values, holds
of every value. -/
@[elab_as_elim]
theorem induction {motive : Json → Prop} (null : motive .null) (bool : ∀ b, motive (.bool b))
    (number : ∀ x, motive (.number x)) (string : ∀ t, motive (.string t))
    (array : ∀ items : List Json, (∀ v ∈ items, motive v) → motive (.array items))
    (object : ∀ fields : Fields, (∀ f ∈ fields, motive f.2) → motive (.object fields)) (v : Json) :
    motive v :=
  @Json.rec motive (fun items => ∀ v ∈ items, motive v) (fun fields => ∀ f ∈ fields, motive f.2)
    (fun f => motive f.2) null bool number string array object
    (fun _ h => absurd h List.not_mem_nil) (fun _ _ hv h => List.forall_mem_cons.2 ⟨hv, h⟩)
    (fun _ h => absurd h List.not_mem_nil) (fun _ _ hf h => List.forall_mem_cons.2 ⟨hf, h⟩)
    (fun _ _ h => h) v

/-! ### Equality -/

theorem sameItems_iff {a b : List Json} (h : ∀ v ∈ a, ∀ w, v.same w = true ↔ v = w) :
    sameItems a b = true ↔ a = b := by
  induction a generalizing b with
  | nil => cases b <;> simp [sameItems]
  | cons v a ih =>
    rw [List.forall_mem_cons] at h
    cases b with
    | nil => simp [sameItems]
    | cons w b => simp [sameItems, h.1, ih h.2]

theorem sameFields_iff {a b : Fields} (h : ∀ f ∈ a, ∀ w, f.2.same w = true ↔ f.2 = w) :
    sameFields a b = true ↔ a = b := by
  induction a generalizing b with
  | nil => cases b <;> simp [sameFields]
  | cons f a ih =>
    rw [List.forall_mem_cons] at h
    cases b with
    | nil => simp [sameFields]
    | cons g b => simp [sameFields, h.1, ih h.2, Prod.ext_iff]

theorem same_iff {v w : Json} : v.same w = true ↔ v = w := by
  induction v using Json.induction generalizing w with
  | array items ih =>
    cases w with
    | array others => rw [same, sameItems_iff fun v hv w => @ih v hv w, array.injEq]
    | _ => simp [same]
  | object fields ih =>
    cases w with
    | object others => rw [same, sameFields_iff fun f hf w => @ih f hf w, object.injEq]
    | _ => simp [same]
  | _ => cases w <;> simp [same]

instance : DecidableEq Json := fun _ _ => decidable_of_iff _ same_iff

/-! ### Values to a depth -/

/-- The integers of a value have no more digits than a text may have, its texts and the lists of its
keys are of a kind, and at most so many lists and objects are within one another. -/
inductive Within (text : Codes → Prop) (keys : List Codes → Prop) : ℕ → Json → Prop
  | null (n : ℕ) : Within text keys n .null
  | bool (n : ℕ) (b : Bool) : Within text keys n (.bool b)
  | number (n : ℕ) {x : Number} (h : x.isLong = false) : Within text keys n (.number x)
  | string (n : ℕ) {t : Codes} (h : text t) : Within text keys n (.string t)
  | array {n : ℕ} {items : List Json} (h : ∀ v ∈ items, Within text keys n v) :
    Within text keys (n + 1) (.array items)
  | object {n : ℕ} {fields : Fields} (hkeys : keys fields.keys)
    (h : ∀ f ∈ fields, Within text keys n f.2) : Within text keys (n + 1) (.object fields)

section Within

variable {text : Codes → Prop} {keys : List Codes → Prop} {n m : ℕ} {v : Json}

/-- There is also room where there is more room. -/
theorem Within.mono (h : Within text keys n v) (hnm : n ≤ m) : Within text keys m v := by
  induction h generalizing m with
  | null => exact .null m
  | bool _ b => exact .bool m b
  | number _ h => exact .number m h
  | string _ h => exact .string m h
  | array _ ih =>
    obtain ⟨k, rfl⟩ : ∃ k, m = k + 1 := ⟨m - 1, by omega⟩
    exact .array fun v hv => ih v hv (Nat.le_of_succ_le_succ hnm)
  | object hkeys _ ih =>
    obtain ⟨k, rfl⟩ : ∃ k, m = k + 1 := ⟨m - 1, by omega⟩
    exact .object hkeys fun f hf => ih f hf (Nat.le_of_succ_le_succ hnm)

theorem within_array_iff {items : List Json} :
    Within text keys (n + 1) (.array items) ↔ ∀ v ∈ items, Within text keys n v :=
  ⟨fun h => by cases h; assumption, .array⟩

theorem within_object_iff {fields : Fields} :
    Within text keys (n + 1) (.object fields) ↔
      keys fields.keys ∧ ∀ f ∈ fields, Within text keys n f.2 :=
  ⟨fun h => by cases h; exact ⟨‹_›, ‹_›⟩, fun h => .object h.1 h.2⟩

theorem not_within_zero_array (items : List Json) : ¬ Within text keys 0 (.array items) := nofun

theorem not_within_zero_object (fields : Fields) : ¬ Within text keys 0 (.object fields) := nofun

theorem within_number_iff {x : Number} : Within text keys n (.number x) ↔ x.isLong = false :=
  ⟨fun h => by cases h; assumption, .number n⟩

theorem within_string_iff {t : Codes} : Within text keys n (.string t) ↔ text t :=
  ⟨fun h => by cases h; assumption, .string n⟩

end Within

/-- A value can be read to a depth: every object has each key once. -/
abbrev Fits (n : ℕ) (v : Json) : Prop := Within (fun _ => True) List.Nodup n v

/-- A value can be written to a depth: no half stands alone in its texts and keys. -/
abbrev Writes (n : ℕ) (v : Json) : Prop := Within Codes.IsText (fun ks => ∀ k ∈ ks, k.IsText) n v

/-- A value can be shown to a depth. -/
abbrev Shows (n : ℕ) (v : Json) : Prop := Within (fun _ => True) (fun _ => True) n v

/-! ### On one line -/

section Inline

variable {α : Type} (style : Style α)

theorem exists_inlineItems_iff {room : ℕ} {items : List Json} :
    (∃ ts, inlineItems style room items = .ok ts) ↔
      ∀ v ∈ items, ∃ t, v.inline style room = .ok t := by
  induction items with
  | nil => exact ⟨fun _ _ h => absurd h List.not_mem_nil, fun _ => ⟨_, rfl⟩⟩
  | cons v items ih =>
    rw [List.forall_mem_cons, ← ih, inlineItems]
    rcases v.inline style room with e | t
    · exact ⟨nofun, nofun⟩
    · rcases inlineItems style room items with e | ts
      · exact ⟨nofun, fun h => nomatch h.2⟩
      · exact ⟨fun _ => ⟨⟨t, rfl⟩, ts, rfl⟩, fun _ => ⟨_, rfl⟩⟩

theorem exists_inlineFields_iff {room : ℕ} {fields : Fields} :
    (∃ ts, inlineFields style room fields = .ok ts) ↔
      ∀ f ∈ fields, ∃ t, f.2.inline style room = .ok t := by
  induction fields with
  | nil => exact ⟨fun _ _ h => absurd h List.not_mem_nil, fun _ => ⟨_, rfl⟩⟩
  | cons f fields ih =>
    obtain ⟨k, v⟩ := f
    rw [List.forall_mem_cons, ← ih, inlineFields]
    dsimp only
    rcases v.inline style room with e | t
    · exact ⟨nofun, nofun⟩
    · rcases inlineFields style room fields with e | ts
      · exact ⟨nofun, fun h => nomatch h.2⟩
      · exact ⟨fun _ => ⟨⟨t, rfl⟩, ts, rfl⟩, fun _ => ⟨_, rfl⟩⟩

/-- **A value has a text on one line just if it can be shown**, in any notation. -/
theorem exists_inline_iff {room : ℕ} {v : Json} :
    (∃ t, v.inline style room = .ok t) ↔ Shows room v := by
  induction v using Json.induction generalizing room with
  | null => exact ⟨fun _ => .null room, fun _ => ⟨_, rfl⟩⟩
  | bool b => exact ⟨fun _ => .bool room b, fun _ => ⟨_, rfl⟩⟩
  | number x =>
    rw [Shows, within_number_iff, inline]
    cases x.isLong <;> simp
  | string t => exact ⟨fun _ => .string room trivial, fun _ => ⟨_, rfl⟩⟩
  | array items ih =>
    cases room with
    | zero => exact ⟨nofun, nofun⟩
    | succ n =>
      have hmembers : (∀ v ∈ items, ∃ t, v.inline style n = .ok t) ↔ ∀ v ∈ items, Shows n v :=
        forall₂_congr fun v hv => ih v hv
      rw [Shows, within_array_iff, ← hmembers, ← exists_inlineItems_iff, inline,
        if_neg n.succ_ne_zero, Nat.add_sub_cancel]
      rcases inlineItems style n items with e | ts <;> simp [Except.map]
  | object fields ih =>
    cases room with
    | zero => exact ⟨nofun, nofun⟩
    | succ n =>
      have hmembers : (∀ f ∈ fields, ∃ t, f.2.inline style n = .ok t) ↔
          ∀ f ∈ fields, Shows n f.2 := forall₂_congr fun f hf => ih f hf
      rw [Shows, within_object_iff, true_and, ← hmembers, ← exists_inlineFields_iff, inline,
        if_neg n.succ_ne_zero, Nat.add_sub_cancel]
      rcases inlineFields style n fields with e | ts <;> simp [Except.map]

end Inline

/-- A text stands for itself, and any other value has a label just if it can be shown. -/
theorem exists_label_iff {room : ℕ} {v : Json} :
    (∃ t, v.label room = .ok t) ↔ Shows room v := by
  have hshown : (∃ t, (v.shown room).map Text.codes = .ok t) ↔ Shows room v := by
    rw [← exists_inline_iff messageStyle, shown]
    rcases v.inline messageStyle room with e | t <;> simp [Except.map]
  cases v with
  | string t => exact ⟨fun _ => .string room trivial, fun _ => ⟨t, rfl⟩⟩
  | _ => exact hshown

theorem label_of_isLong {x : Number} (h : x.isLong = true) (room : ℕ) :
    Json.label room (.number x) = .error .longInteger := by
  show (inline messageStyle room (.number x)).map Text.codes = _
  rw [inline, if_pos h]
  rfl

/-! ### In documents -/

/-- A piece can be written. -/
def Piece.IsWhole (p : Piece) : Prop := ∃ t : Text, p = .text t.codes

/-- What is in a piece. -/
def Piece.contents : Piece → Codes
  | .text t => t
  | .stop _ => []

@[simp] theorem isWhole_text_iff {t : Codes} : (Piece.text t).IsWhole ↔ t.IsText :=
  exists_congr fun _ => ⟨Piece.text.inj, congrArg Piece.text⟩

@[simp] theorem not_isWhole_stop (e : TextError) : ¬ (Piece.stop e).IsWhole := nofun

/-- Pieces are written to their end just if each can be written, and what is written is all that is
in them. -/
theorem written_eq_none_iff {ps : List Piece} :
    (written ps).2 = none ↔ ∀ p ∈ ps, p.IsWhole := by
  induction ps with
  | nil => exact ⟨fun _ _ h => absurd h List.not_mem_nil, fun _ => rfl⟩
  | cons p ps ih =>
    rw [List.forall_mem_cons, ← ih]
    cases p with
    | stop e => exact ⟨nofun, fun h => absurd h.1 (not_isWhole_stop e)⟩
    | text t =>
      rw [isWhole_text_iff, written]
      rcases ht : t.text? with - | u
      · exact ⟨nofun, fun h => absurd h.1 (Codes.text?_eq_none_iff.1 ht)⟩
      · exact ⟨fun h => ⟨⟨u, Codes.text?_eq_some_iff.1 ht⟩, h⟩, fun h => h.2⟩

theorem codes_written {ps : List Piece} (h : ∀ p ∈ ps, p.IsWhole) :
    Text.codes (written ps).1 = ps.flatMap Piece.contents := by
  induction ps with
  | nil => rfl
  | cons p ps ih =>
    obtain ⟨⟨t, rfl⟩, hps⟩ := List.forall_mem_cons.1 h
    rw [List.flatMap_cons, ← ih hps, written, Text.text?_codes]
    exact Text.codes_append t _

/-- A text is quoted by characters, and a lone half stands for itself. -/
theorem isText_document_iff {t : Codes} : (Text.Quoted.document t).IsText ↔ t.IsText := by
  have hflat : Codes.IsText (t.flatMap Text.Quoted.documentCode) ↔ t.IsText := by
    induction t with
    | nil => exact Iff.rfl
    | cons x t ih =>
      rw [List.flatMap_cons, Codes.isText_append_iff, ih]
      cases x <;> simp [Text.Quoted.documentCode]
  rw [Text.Quoted.document, List.cons_append, Codes.isText_char_cons_iff,
    Codes.isText_append_iff, hflat]
  simp

section Pieces

variable {room depth : ℕ} {before : Codes}

theorem isWhole_scalarPiece_iff {t : Codes} :
    (∀ p ∈ scalarPiece before t, p.IsWhole) ↔ before.IsText ∧ t.IsText := by
  rw [scalarPiece, List.forall_mem_singleton, isWhole_text_iff, Codes.isText_append_iff]

/-- Items are written if each is. -/
theorem isWhole_itemPieces_iff {items : List Json} (ih : ∀ v ∈ items, ∀ {before : Codes},
      (∀ p ∈ v.pieces room depth before, p.IsWhole) ↔ before.IsText ∧ Writes room v)
    (hbefore : before.IsText) :
    (∀ p ∈ itemPieces room depth before items, p.IsWhole) ↔ ∀ v ∈ items, Writes room v := by
  induction items generalizing before with
  | nil => exact ⟨fun _ _ h => absurd h List.not_mem_nil, fun _ _ h => absurd h List.not_mem_nil⟩
  | cons v items ihitems =>
    obtain ⟨hv, hitems⟩ := List.forall_mem_cons.1 ih
    rw [itemPieces, List.forall_mem_append, hv, List.forall_mem_cons,
      ihitems hitems (Codes.isText_codes _), and_iff_right hbefore]

/-- Fields are written if each key and each value is. -/
theorem isWhole_fieldPieces_iff {fields : Fields} (ih : ∀ f ∈ fields, ∀ {before : Codes},
      (∀ p ∈ f.2.pieces room depth before, p.IsWhole) ↔ before.IsText ∧ Writes room f.2)
    (hbefore : before.IsText) :
    (∀ p ∈ fieldPieces room depth before fields, p.IsWhole) ↔
      (∀ k ∈ fields.keys, k.IsText) ∧ ∀ f ∈ fields, Writes room f.2 := by
  induction fields generalizing before with
  | nil =>
    exact ⟨fun _ => ⟨fun _ h => absurd h List.not_mem_nil, fun _ h => absurd h List.not_mem_nil⟩,
      fun _ _ h => absurd h List.not_mem_nil⟩
  | cons f fields ihfields =>
    obtain ⟨k, v⟩ := f
    obtain ⟨hv, hfields⟩ := List.forall_mem_cons.1 ih
    have hkeys : Fields.keys ((k, v) :: fields) = k :: Fields.keys fields := rfl
    simp only [fieldPieces, List.cons_append, List.forall_mem_cons, List.forall_mem_append,
      isWhole_text_iff, hv, ihfields hfields (Codes.isText_codes _), hkeys, hbefore,
      Codes.isText_codes, Codes.isText_nil, true_and]
    rw [show documentStyle.quote k = Text.Quoted.document k from rfl, isText_document_iff]
    tauto

/-- **The pieces of a value can be written just if the value can**, and what stands before it. -/
theorem isWhole_pieces_iff {v : Json} :
    (∀ p ∈ v.pieces room depth before, p.IsWhole) ↔ before.IsText ∧ Writes room v := by
  induction v using Json.induction generalizing room depth before with
  | null =>
    exact isWhole_scalarPiece_iff.trans
      (and_congr_right' (iff_of_true (Codes.isText_codes _) (.null room)))
  | bool b =>
    exact isWhole_scalarPiece_iff.trans
      (and_congr_right' (iff_of_true (Codes.isText_codes _) (.bool room b)))
  | number x =>
    rw [Writes, within_number_iff, pieces]
    rcases hx : x.isLong
    · exact isWhole_scalarPiece_iff.trans
        (and_congr_right' (iff_of_true (Codes.isText_codes _) rfl))
    · simp
  | string t =>
    exact isWhole_scalarPiece_iff.trans
      (and_congr_right' (isText_document_iff.trans within_string_iff.symm))
  | array items ih =>
    rw [pieces, List.forall_mem_cons, isWhole_text_iff]
    refine and_congr_right' ?_
    cases room with
    | zero => simp [not_within_zero_array]
    | succ n =>
      rw [Writes, within_array_iff, if_neg n.succ_ne_zero]
      rcases items with - | ⟨v, items⟩
      · simp
      · rw [if_neg (by simp), List.forall_mem_append,
          isWhole_itemPieces_iff (fun v hv => ih v hv) (Codes.isText_codes _)]
        simp
  | object fields ih =>
    rw [pieces, List.forall_mem_cons, isWhole_text_iff]
    refine and_congr_right' ?_
    cases room with
    | zero => simp [not_within_zero_object]
    | succ n =>
      rw [Writes, within_object_iff, if_neg n.succ_ne_zero]
      rcases fields with - | ⟨f, fields⟩
      · simp [Fields.keys]
      · rw [if_neg (by simp), List.forall_mem_append, List.forall_mem_cons,
          isWhole_fieldPieces_iff (fun f hf => ih f hf) (Codes.isText_codes _)]
        simp

theorem contents_itemPieces {items : List Json} (ih : ∀ v ∈ items, ∀ before : Codes,
      (v.pieces room depth before).flatMap Piece.contents = before ++ v.indentedAt depth)
    (hne : items ≠ []) :
    (itemPieces room depth before items).flatMap Piece.contents =
      before ++ Text.join (Text.codes (',' :: newLine depth)) (indentedItems depth items) := by
  induction items generalizing before with
  | nil => exact absurd rfl hne
  | cons v items ihitems =>
    obtain ⟨hv, hitems⟩ := List.forall_mem_cons.1 ih
    rw [itemPieces, List.flatMap_append, hv, indentedItems]
    rcases items with - | ⟨w, items⟩
    · simp [itemPieces, indentedItems, Text.join]
    · rw [ihitems hitems (List.cons_ne_nil w items), indentedItems, Text.join_cons_cons]
      simp

theorem contents_fieldPieces {fields : Fields} (ih : ∀ f ∈ fields, ∀ before : Codes,
      (f.2.pieces room depth before).flatMap Piece.contents = before ++ f.2.indentedAt depth)
    (hne : fields ≠ []) :
    (fieldPieces room depth before fields).flatMap Piece.contents =
      before ++ Text.join (Text.codes (',' :: newLine depth)) (indentedFields depth fields) := by
  induction fields generalizing before with
  | nil => exact absurd rfl hne
  | cons f fields ihfields =>
    obtain ⟨k, v⟩ := f
    obtain ⟨hv, hfields⟩ := List.forall_mem_cons.1 ih
    dsimp only at hv
    rw [fieldPieces, List.flatMap_append, indentedFields]
    simp only [List.flatMap_cons, hv, Piece.contents, List.nil_append]
    rcases fields with - | ⟨g, fields⟩
    · simp [fieldPieces, indentedFields, Text.join]
    · rw [ihfields hfields (List.cons_ne_nil g fields), indentedFields, Text.join_cons_cons]
      simp

/-- **The pieces of a value hold it one item on a line.** -/
theorem contents_pieces {v : Json} (h : Writes room v) :
    (v.pieces room depth before).flatMap Piece.contents = before ++ v.indentedAt depth := by
  induction v using Json.induction generalizing room depth before with
  | null => exact List.append_nil _
  | bool b => exact List.append_nil _
  | number x =>
    rw [pieces, within_number_iff.1 h]
    exact List.append_nil _
  | string t => exact List.append_nil _
  | array items ih =>
    cases room with
    | zero => exact absurd h (not_within_zero_array items)
    | succ n =>
      rw [pieces, if_neg n.succ_ne_zero, indentedAt, block]
      rcases items with - | ⟨v, items⟩
      · simp [Piece.contents, indentedItems]
      · have hitems := @contents_itemPieces n (depth + 1)
          (Text.codes ('[' :: newLine (depth + 1))) (v :: items)
          (fun v hv before => ih v hv (within_array_iff.1 h v hv)) (List.cons_ne_nil v items)
        rw [if_neg (by simp), if_neg (by simp [indentedItems]), List.flatMap_cons,
          List.flatMap_append, Nat.add_sub_cancel, hitems]
        simp [Piece.contents]
  | object fields ih =>
    cases room with
    | zero => exact absurd h (not_within_zero_object fields)
    | succ n =>
      rw [pieces, if_neg n.succ_ne_zero, indentedAt, block]
      rcases fields with - | ⟨f, fields⟩
      · simp [Piece.contents, indentedFields]
      · have hfields := @contents_fieldPieces n (depth + 1) (newLine (depth + 1)).codes
          (f :: fields) (fun f hf before => ih f hf ((within_object_iff.1 h).2 f hf))
          (List.cons_ne_nil f fields)
        rw [if_neg (by simp), if_neg (by simp [indentedFields]), List.flatMap_cons,
          List.cons_append, List.flatMap_cons, List.flatMap_append, Nat.add_sub_cancel, hfields]
        simp [Piece.contents]

end Pieces

/-- **A document does not break off just if its value can be written.** -/
theorem write_eq_none_iff {room : ℕ} {v : Json} : (write room v).2 = none ↔ Writes room v := by
  rw [write, written_eq_none_iff, isWhole_pieces_iff]
  exact and_iff_right Codes.isText_nil

/-- **A document that does not break off is its value, one item on a line.** -/
theorem exists_write_of_writes {room : ℕ} {v : Json} (h : Writes room v) :
    ∃ t : Text, write room v = (t, none) ∧ v.indented = t.codes := by
  have hnone := write_eq_none_iff.2 h
  refine ⟨(write room v).1, Prod.ext rfl hnone, ?_⟩
  rw [write, codes_written (written_eq_none_iff.1 hnone), contents_pieces h]
  rfl

end Json
end SpokenCalculator
