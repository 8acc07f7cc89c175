import SpokenCalculator.Proofs.Json.Number
import SpokenCalculator.Proofs.Json.Within

/-!
# Documents are read as they were written

A value that can be read is nested no deeper than the reader goes, its integers have no more digits
than can be read, and its objects have every key once.  If it is written whole, it is found again in
its document.

* `plain`: the characters of a sequence, without lone halves;
* `readString_document`: a string is read as it was written;
* `valueAt_indentedAt`, `read_of_write`: what can be read and is written whole is read as it was
  written;
* `fits_of_read`: what is read can be read again.
-/

namespace SpokenCalculator.Json

open Text

/-! ### Strings -/

theorem hexadecimal_control : ∀ n < 0x20,
    hexadecimal 4 n = ['0', '0', Nat.digitChar (n / 16), Nat.digitChar (n % 16)] ∧
      code? '0' '0' (Nat.digitChar (n / 16)) (Nat.digitChar (n % 16)) = some n := by
  decide

/-- A quote ends a string. -/
theorem units_quote (r : Text) : units ('"' :: r) = .ok ([], r) := by
  rw [units.eq_def]
  rfl

/-- Most characters stand for themselves. -/
theorem units_cons {c : Char} (hquote : c ≠ '"') (hslash : c ≠ '\\') (hcontrol : ¬ c.toNat < 0x20)
    (u : Text) : units (c :: u) = (units u).map fun (ns, r) => (c.toNat :: ns, r) := by
  rw [units.eq_def]
  simp only [if_neg hquote, if_neg hslash, if_neg hcontrol]

/-- A letter after a backslash stands for a character. -/
theorem units_escape {e x : Char} (he : e ≠ 'u') (hx : escaped? e = some x) (u : Text) :
    units ('\\' :: e :: u) = (units u).map fun (ns, r) => (x.toNat :: ns, r) := by
  rw [units.eq_def]
  simp only [if_neg (show '\\' ≠ '"' by decide), if_true, if_neg he, hx]

/-- Four digits after a backslash and a letter are a code. -/
theorem units_code {a b c d : Char} {n : ℕ} (h : code? a b c d = some n) (u : Text) :
    units ('\\' :: 'u' :: a :: b :: c :: d :: u) =
      (units u).map fun (ns, r) => (n :: ns, r) := by
  rw [units.eq_def]
  simp only [if_neg (show '\\' ≠ '"' by decide), if_true, h]

/-- A character is found again. -/
theorem units_documentChar (c : Char) (u : Text) :
    units (Quoted.documentChar c ++ u) = (units u).map fun (ns, r) => (c.toNat :: ns, r) := by
  unfold Quoted.documentChar
  split_ifs with hquote hn hr ht hb hf hcontrol
  · rcases hquote with rfl | rfl <;> exact units_escape (by decide) (by decide) u
  · rw [hn]
    exact units_escape (by decide) (by decide) u
  · rw [hr]
    exact units_escape (by decide) (by decide) u
  · rw [ht]
    exact units_escape (by decide) (by decide) u
  · rw [hb]
    exact units_escape (by decide) (by decide) u
  · rw [hf]
    exact units_escape (by decide) (by decide) u
  · obtain ⟨hhex, hcode⟩ := hexadecimal_control c.toNat hcontrol
    rw [hhex]
    exact units_code hcode u
  · rw [not_or] at hquote
    exact units_cons hquote.1 hquote.2 hcontrol u

theorem units_flatMap (t r : Text) :
    units (t.flatMap Quoted.documentChar ++ '"' :: r) = .ok (t.map Char.toNat, r) := by
  induction t with
  | nil => exact units_quote r
  | cons c t ih =>
    rw [List.flatMap_cons, List.append_assoc, units_documentChar, ih]
    rfl

theorem ofNat_toNat (c : Char) : Code.ofNat c.toNat = .char c := by
  rw [Code.ofNat, if_pos (show c.toNat.isValidChar from c.valid), Char.ofNat_toNat]

/-- No character is half of another. -/
theorem isHighHalf_toNat (c : Char) : isHighHalf c.toNat = false := by
  have hvalid : c.toNat.isValidChar := c.valid
  rw [isHighHalf, Bool.and_eq_false_iff, decide_eq_false_iff_not, decide_eq_false_iff_not]
  unfold Nat.isValidChar at hvalid
  omega

theorem codesOfUnits_map (t : Text) : codesOfUnits (t.map Char.toNat) = t.codes := by
  induction t with
  | nil => rfl
  | cons c t ih =>
    cases t with
    | nil => exact congrArg (· :: []) (ofNat_toNat c)
    | cons d t =>
      rw [List.map_cons, List.map_cons, codesOfUnits, isHighHalf_toNat, Bool.false_and,
        if_neg Bool.false_ne_true, ofNat_toNat]
      exact congrArg (Code.char c :: ·) ih

/-- **A string is read as it was written.** -/
theorem readString_document (t r : Text) :
    readString (t.flatMap Quoted.documentChar ++ '"' :: r) = .ok (t.codes, r) := by
  rw [readString, units_flatMap]
  exact congrArg (fun s => Except.ok (s, r)) (codesOfUnits_map t)

/-! ### Characters alone -/

/-- The characters of a sequence, without lone halves. -/
def plain (s : Codes) : Text := s.filterMap Code.char?

@[simp] theorem plain_codes (t : Text) : plain t.codes = t := by
  induction t with
  | nil => rfl
  | cons c t ih => exact congrArg (c :: ·) ih

@[simp] theorem plain_append (s t : Codes) : plain (s ++ t) = plain s ++ plain t :=
  List.filterMap_append ..

theorem plain_join (separator : Text) (ts : List Codes) :
    plain (Text.join separator.codes ts) = Text.join separator (ts.map plain) := by
  induction ts with
  | nil => rfl
  | cons t rest ih =>
    cases rest with
    | nil => rfl
    | cons u rest =>
      rw [Text.join_cons_cons, plain_append, plain_append, plain_codes, ih]
      rfl

/-- A text as a document holds it. -/
theorem document_codes (t : Text) :
    Quoted.document t.codes = Text.codes ('"' :: t.flatMap Quoted.documentChar ++ ['"']) := by
  have hflat : List.flatMap Quoted.documentCode t.codes =
      Text.codes (t.flatMap Quoted.documentChar) := by
    induction t with
    | nil => rfl
    | cons c t ih =>
      rw [codes_cons, List.flatMap_cons, ih, List.flatMap_cons, codes_append]
      rfl
  rw [Quoted.document, hflat, codes_append]
  rfl

/-! ### Values written -/

/-- The characters with which values begin that hold no others. -/
def scalarStarts : Text := "\"-0123456789INnft".toList

/-- A text begins like a value. -/
def Starts (t : Text) : Prop := ∃ c u, t = c :: u ∧ (c ∈ scalarStarts ∨ c = '[' ∨ c = '\x7b')

/-- A text begins like a value that holds no others. -/
def StartsScalar (t : Text) : Prop := ∃ c u, t = c :: u ∧ c ∈ scalarStarts

theorem StartsScalar.starts {t : Text} (h : StartsScalar t) : Starts t := by
  obtain ⟨c, u, ht, hc⟩ := h
  exact ⟨c, u, ht, Or.inl hc⟩

theorem StartsScalar.append {t : Text} (h : StartsScalar t) (r : Text) : StartsScalar (t ++ r) := by
  obtain ⟨c, u, rfl, hc⟩ := h
  exact ⟨c, u ++ r, rfl, hc⟩

theorem Starts.append {t : Text} (h : Starts t) (r : Text) : Starts (t ++ r) := by
  obtain ⟨c, u, rfl, hc⟩ := h
  exact ⟨c, u ++ r, rfl, hc⟩

/-- No blank and no closing bracket begins a value. -/
theorem Starts.exists_cons {t : Text} (h : Starts t) :
    ∃ c u, t = c :: u ∧ isSpace c = false ∧ c ≠ ']' ∧ c ≠ '\x7d' := by
  obtain ⟨c, u, ht, hc⟩ := h
  have hscalar : ∀ c ∈ scalarStarts, isSpace c = false ∧ c ≠ ']' ∧ c ≠ '\x7d' :=
    List.forall_iff_forall_mem.1 (by decide)
  refine ⟨c, u, ht, ?_⟩
  rcases hc with hc | rfl | rfl
  · exact hscalar c hc
  · decide
  · decide

theorem skip_of_starts {t : Text} (h : Starts t) : skip t = t := by
  obtain ⟨c, u, rfl, hc, -⟩ := h.exists_cons
  exact List.dropWhile_cons_of_neg (by simp [hc])

theorem skip_newLine (depth : ℕ) (t : Text) : skip (newLine depth ++ t) = skip t := by
  refine List.dropWhile_append_of_pos ?_
  rw [newLine]
  rintro c hc
  rcases List.mem_cons.1 hc with rfl | hc
  · rfl
  · rw [List.eq_of_mem_replicate hc]
    rfl

theorem startsScalar_number (x : Number) : StartsScalar (x.text documentStyle.numbers) := by
  have hdigit : ∀ c, isAsciiDigit c = true → c ∈ scalarStarts := by
    intro c hc
    rw [isAsciiDigit, Bool.and_eq_true, decide_eq_true_eq, decide_eq_true_eq] at hc
    have h : ∀ n < 0x3a, 0x30 ≤ n → Char.ofNat n ∈ scalarStarts := by decide
    have hmem := h c.toNat (by omega) hc.1
    rwa [Char.ofNat_toNat] at hmem
  have hsigned : ∀ s p, StartsScalar (signedText s p) := by
    intro s p
    cases s with
    | false =>
      obtain ⟨c, t, htext, hc⟩ := exists_digit_text p
      exact ⟨c, t, htext, hdigit c hc⟩
    | true => exact ⟨'-', p.text, rfl, by decide⟩
  cases x with
  | int i =>
    cases i with
    | ofNat m =>
      have h := hsigned false (wholeText m)
      rwa [signedText_wholeText] at h
    | negSucc m => exact ⟨'-', _, rfl, by decide⟩
  | float x =>
    cases x with
    | nan => exact ⟨'N', _, rfl, by decide⟩
    | infinite s =>
      cases s with
      | false => exact ⟨'I', _, rfl, by decide⟩
      | true => exact ⟨'-', _, rfl, by decide⟩
    | finite s q hq =>
      obtain ⟨p, htext, -⟩ := exists_numberText_finite documentStyle.numbers s hq
      rw [Number.text, htext]
      exact hsigned s p

theorem starts_indentedAt (v : Json) (depth : ℕ) : Starts (plain (v.indentedAt depth)) := by
  have hblock : ∀ (first last : Char) (items : List Codes),
      ∃ u, plain (block first last depth items) = first :: u := by
    intro first last items
    unfold block
    split
    · exact ⟨_, rfl⟩
    · exact ⟨_, rfl⟩
  cases v with
  | null => exact ⟨'n', _, rfl, by decide⟩
  | bool b =>
    cases b with
    | false => exact ⟨'f', _, rfl, by decide⟩
    | true => exact ⟨'t', _, rfl, by decide⟩
  | number x =>
    rw [indentedAt, plain_codes]
    exact (startsScalar_number x).starts
  | string t => exact ⟨'"', _, rfl, by decide⟩
  | array items =>
    obtain ⟨u, hu⟩ := hblock '[' ']' (indentedItems (depth + 1) items)
    exact ⟨'[', u, by rw [indentedAt, hu], Or.inr (Or.inl rfl)⟩
  | object fields =>
    obtain ⟨u, hu⟩ := hblock '\x7b' '\x7d' (indentedFields (depth + 1) fields)
    exact ⟨'\x7b', u, by rw [indentedAt, hu], Or.inr (Or.inr rfl)⟩

/-- A value that holds no others is read at any depth. -/
theorem valueAt_of_startsScalar (n : ℕ) {t : Text} (h : StartsScalar t) :
    valueAt n t = readScalar t := by
  obtain ⟨c, u, rfl, hc⟩ := h
  have hopen : ∀ c ∈ scalarStarts, c ≠ '[' ∧ c ≠ '\x7b' := List.forall_iff_forall_mem.1 (by decide)
  cases n <;> rw [valueAt, if_neg (hopen c hc).1, if_neg (hopen c hc).2]

theorem readScalar_string (t r : Text) :
    readScalar (plain (Quoted.document t.codes) ++ r) = .ok (.string t.codes, r) := by
  have h := readString_document t r
  rw [document_codes, plain_codes, List.append_assoc, List.cons_append, List.singleton_append,
    readScalar, h]
  rfl

theorem indentedItems_eq (depth : ℕ) (items : List Json) :
    indentedItems depth items = items.map (indentedAt depth) := by
  induction items with
  | nil => rfl
  | cons v items ih => rw [indentedItems, ih, List.map_cons]

/-- A field as an object holds it. -/
def indentedField (depth : ℕ) (f : Codes × Json) : Codes :=
  documentStyle.quote f.1 ++ Text.codes ": ".toList ++ f.2.indentedAt depth

theorem indentedFields_eq (depth : ℕ) (fields : Fields) :
    indentedFields depth fields = fields.map (indentedField depth) := by
  induction fields with
  | nil => rfl
  | cons f fields ih => rw [indentedFields, ih, List.map_cons, indentedField]

/-! ### Items and fields -/

theorem follows_nil : Follows [] := fun c hc => by cases hc

theorem follows_comma (r : Text) : Follows (',' :: r) := fun c hc => by
  cases hc
  exact Or.inl rfl

theorem follows_newLine (depth : ℕ) (r : Text) : Follows (newLine depth ++ r) := fun c hc => by
  cases hc
  exact Or.inr rfl

/-- **What a loop reads one by one it reads as it was written**, if it goes on after a separator and
ends before its closing bracket. -/
theorem loop_join {α : Type} (loop : ℕ → Reader (List α)) {text : α → Text}
    {separator stop r : Text} {xs : List α} (hne : xs ≠ []) {n : ℕ} (hn : xs.length ≤ n)
    (hstarts : ∀ x, Starts (text x))
    (hlast : ∀ m, ∀ x ∈ xs, loop (m + 1) (text x ++ stop) = .ok ([x], r))
    (hnext : ∀ m u, ∀ x ∈ xs, Starts u →
      loop (m + 1) (text x ++ (separator ++ u)) = (loop m u).map fun (ys, r) => (x :: ys, r)) :
    loop n (Text.join separator (xs.map text) ++ stop) = .ok (xs, r) := by
  induction xs generalizing n with
  | nil => exact absurd rfl hne
  | cons x rest ih =>
    obtain ⟨n, rfl⟩ : ∃ m, n = m + 1 := ⟨n - 1, by rw [List.length_cons] at hn; omega⟩
    cases rest with
    | nil => exact hlast n x (List.mem_cons_self ..)
    | cons y rest =>
      have hrest := ih (List.cons_ne_nil y rest) (Nat.le_of_succ_le_succ hn)
        (fun m z hz => hlast m z (List.mem_cons_of_mem _ hz))
        (fun m u z hz => hnext m u z (List.mem_cons_of_mem _ hz))
      have hjoin : Text.join separator ((x :: y :: rest).map text) =
          text x ++ separator ++ Text.join separator ((y :: rest).map text) := rfl
      have hstart : Starts (Text.join separator ((y :: rest).map text) ++ stop) := by
        refine Starts.append ?_ _
        cases rest with
        | nil => exact hstarts y
        | cons z rest => exact ((hstarts y).append _).append _
      rw [hjoin, List.append_assoc, List.append_assoc, hnext n _ x (List.mem_cons_self ..) hstart,
        hrest]
      rfl

section Items

variable {value : Reader Json} (depth : ℕ)

theorem readItems_last {v : Json} {t : Text} (hv : ∀ r, Follows r → value (t ++ r) = .ok (v, r))
    (n : ℕ) (r : Text) :
    readItems value (n + 1) (t ++ (newLine depth ++ ']' :: r)) = .ok ([v], r) := by
  rw [readItems, hv _ (follows_newLine depth _)]
  simp only [ok_bind, skip_newLine]
  rfl

theorem readItems_next {v : Json} {t : Text} (hv : ∀ r, Follows r → value (t ++ r) = .ok (v, r))
    (n : ℕ) {u : Text} (hu : Starts u) :
    readItems value (n + 1) (t ++ (',' :: newLine depth ++ u)) =
      (readItems value n u).map fun (vs, r) => (v :: vs, r) := by
  have hcomma : ∀ w, skip (',' :: w) = ',' :: w := fun w => rfl
  rw [readItems, List.cons_append, hv _ (follows_comma _)]
  simp only [ok_bind, hcomma, skip_newLine, skip_of_starts hu]
  rcases readItems value n u with e | ⟨vs, r⟩ <;> rfl

/-- A field is read as it was written. -/
theorem readField_indentedField {f : Codes × Json} (hkey : f.1.IsText)
    (hv : ∀ r, Follows r → value (plain (f.2.indentedAt depth) ++ r) = .ok (f.2, r)) {r : Text}
    (hr : Follows r) : readField value (plain (indentedField depth f) ++ r) = .ok (f, r) := by
  obtain ⟨k, v⟩ := f
  obtain ⟨k, rfl⟩ := hkey
  have hread := readString_document k (": ".toList ++ plain (v.indentedAt depth) ++ r)
  have htext : plain (indentedField depth (k.codes, v)) ++ r =
      '"' :: (k.flatMap Quoted.documentChar ++
        '"' :: (": ".toList ++ plain (v.indentedAt depth) ++ r)) := by
    have hquote : documentStyle.quote k.codes =
        Text.codes ('"' :: k.flatMap Quoted.documentChar ++ ['"']) := document_codes k
    rw [indentedField, plain_append, plain_append, plain_codes, hquote, plain_codes]
    simp
  have hskip : skip (' ' :: (plain (v.indentedAt depth) ++ r)) =
      plain (v.indentedAt depth) ++ r :=
    (List.dropWhile_cons_of_pos rfl).trans (skip_of_starts ((starts_indentedAt v depth).append r))
  have hcolon : skip (": ".toList ++ plain (v.indentedAt depth) ++ r) =
      ':' :: ' ' :: (plain (v.indentedAt depth) ++ r) := rfl
  rw [htext, readField, hread]
  simp only [ok_bind, hcolon, hskip, hv r hr]
  rfl

theorem readFields_last {f : Codes × Json} {t : Text}
    (hf : ∀ r, Follows r → readField value (t ++ r) = .ok (f, r)) (n : ℕ) (r : Text) :
    readFields value (n + 1) (t ++ (newLine depth ++ '\x7d' :: r)) = .ok ([f], r) := by
  rw [readFields, hf _ (follows_newLine depth _)]
  simp only [ok_bind, skip_newLine]
  rfl

theorem readFields_next {f : Codes × Json} {t : Text}
    (hf : ∀ r, Follows r → readField value (t ++ r) = .ok (f, r)) (n : ℕ) {u : Text}
    (hu : Starts u) :
    readFields value (n + 1) (t ++ (',' :: newLine depth ++ u)) =
      (readFields value n u).map fun (fs, r) => (f :: fs, r) := by
  have hcomma : ∀ w, skip (',' :: w) = ',' :: w := fun w => rfl
  rw [readFields, List.cons_append, hf _ (follows_comma _)]
  simp only [ok_bind, hcomma, skip_newLine, skip_of_starts hu]
  rcases readFields value n u with e | ⟨fs, r⟩ <;> rfl

end Items

theorem length_le_length_join {α : Type} {text : α → Text} (hstarts : ∀ x, Starts (text x))
    (separator : Text) (xs : List α) :
    xs.length ≤ (Text.join separator (xs.map text)).length := by
  induction xs with
  | nil => exact Nat.zero_le _
  | cons x rest ih =>
    have hpos : 0 < (text x).length := by
      obtain ⟨c, u, htext, -⟩ := hstarts x
      rw [htext]
      exact Nat.succ_pos _
    cases rest with
    | nil => exact hpos
    | cons y rest =>
      have hjoin : Text.join separator ((x :: y :: rest).map text) =
          text x ++ separator ++ Text.join separator ((y :: rest).map text) := rfl
      rw [hjoin, List.length_append, List.length_append, List.length_cons]
      omega

/-! ### Fields with different keys -/

theorem put_of_notMem {key : Codes} {fields : Fields} (h : key ∉ fields.keys) (v : Json) :
    fields.put key v = fields ++ [(key, v)] := by
  induction fields with
  | nil => rfl
  | cons f rest ih =>
    rw [Fields.keys, List.map_cons, List.mem_cons, not_or] at h
    rw [Fields.put, if_neg (Ne.symm h.1), ih h.2]
    rfl

/-- Fields with different keys are merged as they are. -/
theorem mergeFields_of_nodup {fields : Fields} (h : fields.keys.Nodup) :
    mergeFields fields = fields := by
  have hfold : ∀ (before fields : Fields), (Fields.keys (before ++ fields)).Nodup →
      fields.foldl (fun (fs : Fields) f => fs.put f.1 f.2) before = before ++ fields := by
    intro before fields h
    induction fields generalizing before with
    | nil => exact (List.append_nil before).symm
    | cons f rest ih =>
      have hf : f.1 ∉ before.keys := by
        rw [Fields.keys, List.map_append, List.map_cons] at h
        intro hmem
        exact (List.disjoint_of_nodup_append h) hmem (List.mem_cons_self ..)
      rw [List.foldl_cons, put_of_notMem hf, ih]
      · rw [List.append_assoc]
        rfl
      · rwa [List.append_assoc]
  exact hfold [] fields h

/-! ### All values -/

theorem starts_indentedField (depth : ℕ) (f : Codes × Json) :
    Starts (plain (indentedField depth f)) :=
  ⟨'"', _, rfl, Or.inl (by decide)⟩

/-- The text of items between brackets, one on a line. -/
theorem plain_block_append {α : Type} (text : α → Codes) (first last : Char) (depth : ℕ)
    {xs : List α} (hne : xs ≠ []) (r : Text) :
    plain (block first last depth (xs.map text)) ++ r = first :: (newLine (depth + 1) ++
      (Text.join (',' :: newLine (depth + 1)) (xs.map fun x => plain (text x)) ++
        (newLine depth ++ last :: r))) := by
  have hjoin := plain_join (',' :: newLine (depth + 1)) (xs.map text)
  rw [List.map_map] at hjoin
  rw [block, if_neg (by simpa using hne), plain_append, plain_append, hjoin, plain_codes,
    plain_codes]
  simp [Function.comp_def]

theorem starts_join {α : Type} {text : α → Text} (hstarts : ∀ x, Starts (text x))
    (separator : Text) {xs : List α} (hne : xs ≠ []) :
    Starts (Text.join separator (xs.map text)) := by
  cases xs with
  | nil => exact absurd rfl hne
  | cons x rest =>
    cases rest with
    | nil => exact hstarts x
    | cons y rest => exact ((hstarts x).append _).append _

theorem readArray_of_starts (value : Reader Json) (depth : ℕ) {body : Text} (h : Starts body) :
    readArray value (newLine depth ++ body) =
      (readItems value body.length body).map fun (vs, r) => (.array vs, r) := by
  obtain ⟨c, u, hbody, -, hc, -⟩ := h.exists_cons
  rw [readArray, skip_newLine, skip_of_starts h, hbody]
  split
  · rename_i heq
    exact absurd (List.cons.inj heq).1 hc
  · rfl

theorem readObject_of_starts (value : Reader Json) (depth : ℕ) {body : Text} (h : Starts body) :
    readObject value (newLine depth ++ body) =
      (readFields value body.length body).map fun (fs, r) => (.object (mergeFields fs), r) := by
  obtain ⟨c, u, hbody, -, -, hc⟩ := h.exists_cons
  rw [readObject, skip_newLine, skip_of_starts h, hbody]
  split
  · rename_i heq
    exact absurd (List.cons.inj heq).1 hc
  · rfl

/-- Items between brackets are read as they were written. -/
theorem readArray_block (value : Reader Json) (depth : ℕ) {items : List Json}
    (hvalue : ∀ v ∈ items, ∀ r, Follows r →
      value (plain (v.indentedAt (depth + 1)) ++ r) = .ok (v, r)) (r : Text) :
    ∃ t, plain ((Json.array items).indentedAt depth) ++ r = '[' :: t ∧
      readArray value t = .ok (.array items, r) := by
  rw [indentedAt, indentedItems_eq]
  by_cases hne : items = []
  · subst hne
    exact ⟨']' :: r, rfl, rfl⟩
  have hstarts : ∀ v : Json, Starts (plain (v.indentedAt (depth + 1))) :=
    fun v => starts_indentedAt v _
  have hbody := (starts_join hstarts (',' :: newLine (depth + 1)) hne).append
    (newLine depth ++ ']' :: r)
  have hlength := length_le_length_join hstarts (',' :: newLine (depth + 1)) items
  refine ⟨_, plain_block_append _ _ _ _ hne r, ?_⟩
  rw [readArray_of_starts _ _ hbody, loop_join (readItems value) hne
    (hlength.trans (by rw [List.length_append]; exact Nat.le_add_right _ _)) hstarts
    (fun m v hv => readItems_last depth (hvalue v hv) m r)
    (fun m u v hv hu => readItems_next (depth + 1) (hvalue v hv) m hu)]
  rfl

/-- Fields between braces are read as they were written. -/
theorem readObject_block (value : Reader Json) (depth : ℕ) {fields : Fields}
    (hkeys : fields.keys.Nodup) (htexts : ∀ f ∈ fields, f.1.IsText)
    (hvalue : ∀ f ∈ fields, ∀ r, Follows r →
      value (plain (f.2.indentedAt (depth + 1)) ++ r) = .ok (f.2, r)) (r : Text) :
    ∃ t, plain ((Json.object fields).indentedAt depth) ++ r = '\x7b' :: t ∧
      readObject value t = .ok (.object fields, r) := by
  rw [indentedAt, indentedFields_eq]
  by_cases hne : fields = []
  · subst hne
    exact ⟨'\x7d' :: r, rfl, rfl⟩
  have hstarts := starts_indentedField (depth + 1)
  have hfield : ∀ f ∈ fields, ∀ r, Follows r →
      readField value (plain (indentedField (depth + 1) f) ++ r) = .ok (f, r) :=
    fun f hf r hr => readField_indentedField (depth + 1) (htexts f hf) (hvalue f hf) hr
  have hbody := (starts_join hstarts (',' :: newLine (depth + 1)) hne).append
    (newLine depth ++ '\x7d' :: r)
  have hlength := length_le_length_join hstarts (',' :: newLine (depth + 1)) fields
  refine ⟨_, plain_block_append _ _ _ _ hne r, ?_⟩
  rw [readObject_of_starts _ _ hbody, loop_join (readFields value) hne
    (hlength.trans (by rw [List.length_append]; exact Nat.le_add_right _ _)) hstarts
    (fun m f hf => readFields_last depth (hfield f hf) m r)
    (fun m u f hf hu => readFields_next (depth + 1) (hfield f hf) m hu)]
  show Except.ok (Json.object (mergeFields fields), r) = _
  rw [mergeFields_of_nodup hkeys]

/-- **What can be read and written is read as it was written**, at any depth. -/
theorem valueAt_indentedAt {n m : ℕ} {v : Json} (h : Fits n v) (hw : Writes m v) (depth : ℕ)
    {r : Text} (hr : Follows r) : valueAt n (plain (v.indentedAt depth) ++ r) = .ok (v, r) := by
  induction h generalizing m depth r with
  | null n => exact (valueAt_of_startsScalar n ⟨'n', _, rfl, by decide⟩).trans rfl
  | bool n b =>
    cases b with
    | false => exact (valueAt_of_startsScalar n ⟨'f', _, rfl, by decide⟩).trans rfl
    | true => exact (valueAt_of_startsScalar n ⟨'t', _, rfl, by decide⟩).trans rfl
  | @number n x hx =>
    rw [indentedAt, plain_codes]
    exact (valueAt_of_startsScalar n ((startsScalar_number x).append r)).trans
      (readScalar_number hx hr)
  | @string n t _ =>
    obtain ⟨t, rfl⟩ := within_string_iff.1 hw
    exact (valueAt_of_startsScalar n ⟨'"', _, rfl, by decide⟩).trans (readScalar_string t r)
  | @array n items hitems ih =>
    cases hw with
    | array hw =>
      obtain ⟨t, htext, hread⟩ := readArray_block (valueAt n) depth
        (fun v hv r hr => ih v hv (hw v hv) (depth + 1) hr) r
      rw [htext, valueAt, if_pos rfl, hread]
  | @object n fields hkeys hfields ih =>
    cases hw with
    | object htexts hw =>
      obtain ⟨t, htext, hread⟩ := readObject_block (valueAt n) depth hkeys
        (fun f hf => htexts f.1 (List.mem_map_of_mem hf))
        (fun f hf r hr => ih f hf (hw f hf) (depth + 1) hr) r
      rw [htext, valueAt, if_neg (by decide), if_pos rfl, hread]

/-- **A document that is written whole is read as it was written**, if there is room for its value
where it is read. -/
theorem read_of_write {n m : ℕ} {v : Json} (h : Fits n v) {t : Text}
    (hwrite : write m v = (t, none)) : read n t = .ok v := by
  have hw : Writes m v := write_eq_none_iff.1 (congrArg Prod.snd hwrite)
  obtain ⟨u, hu, htext⟩ := exists_write_of_writes hw
  obtain rfl : u = t := congrArg Prod.fst (hu.symm.trans hwrite)
  have hplain : plain (v.indentedAt 0) = u := (congrArg plain htext).trans (plain_codes u)
  have hread := valueAt_indentedAt h hw 0 follows_nil
  rw [List.append_nil, hplain] at hread
  have hskip : skip u = u := skip_of_starts (hplain ▸ starts_indentedAt v 0)
  rw [read, hskip, hread]
  rfl

/-! ### What is read -/

theorem isDigits_of_readWhole {t w r : Text} (h : readWhole t = .ok (w, r)) : IsDigits w := by
  cases t with
  | nil => cases h
  | cons c t =>
    rw [readWhole] at h
    split_ifs at h with hzero hdigit
    · cases h
      rw [hzero]
      exact isDigits_zeros 1
    · cases h
      intro d hd
      rcases List.mem_cons.1 hd with rfl | hd
      · exact hdigit
      · exact List.mem_takeWhile_imp hd

theorem isLong_of_numberOf {negative : Bool} {w : Text} (hw : IsDigits w) {f : Option Text}
    {e : Option ℤ} {x : Number} (h : numberOf negative w f e = .ok x) : x.isLong = false := by
  unfold numberOf at h
  split_ifs at h with hwhole hlong hnegative
  · cases h
    rw [Number.isLong_int_eq_false_iff, Int.natAbs_neg]
    exact (value_lt hw).trans_le (Nat.pow_le_pow_right (by decide) (not_lt.1 hlong))
  · cases h
    rw [Number.isLong_int_eq_false_iff]
    exact (value_lt hw).trans_le (Nat.pow_le_pow_right (by decide) (not_lt.1 hlong))
  · cases h
    rfl

theorem isLong_of_readUnsigned {negative : Bool} {t r : Text} {x : Number}
    (h : readUnsigned negative t = .ok (x, r)) : x.isLong = false := by
  unfold readUnsigned at h
  obtain ⟨_, hwhole, h⟩ := bind_eq_ok_iff.1 h
  obtain ⟨_, hnumber, h⟩ := bind_eq_ok_iff.1 h
  cases h
  exact isLong_of_numberOf (isDigits_of_readWhole hwhole) hnumber

theorem isLong_of_readNumber {t r : Text} {x : Number} (h : readNumber t = .ok (x, r)) :
    x.isLong = false := by
  unfold readNumber at h
  split at h <;> exact isLong_of_readUnsigned h

/-- The words are values that can be read to any depth. -/
theorem fits_of_readWord? {t r : Text} {v : Json} (h : readWord? t = some (v, r)) (n : ℕ) :
    Fits n v := by
  obtain ⟨⟨w, u⟩, hmem, hw⟩ := List.exists_of_findSome?_eq_some h
  obtain ⟨r', -, heq⟩ := Option.map_eq_some_iff.1 hw
  cases heq
  simp only [words, List.mem_cons, List.not_mem_nil, or_false, Prod.mk.injEq] at hmem
  rcases hmem with ⟨-, rfl⟩ | ⟨-, rfl⟩ | ⟨-, rfl⟩ | ⟨-, rfl⟩ | ⟨-, rfl⟩ | ⟨-, rfl⟩
  · exact .null n
  · exact .bool n true
  · exact .bool n false
  · exact .number n rfl
  · exact .number n rfl
  · exact .number n rfl

theorem fits_of_readScalar {t r : Text} {v : Json} (h : readScalar t = .ok (v, r)) (n : ℕ) :
    Fits n v := by
  unfold readScalar at h
  split at h
  · obtain ⟨_, -, heq⟩ := map_eq_ok_iff.1 h
    cases heq
    exact .string n trivial
  · split at h
    · rename_i result hword
      cases h
      exact fits_of_readWord? hword n
    · obtain ⟨_, hx, heq⟩ := map_eq_ok_iff.1 h
      cases heq
      exact .number n (isLong_of_readNumber hx)

section Sound

variable {value : Reader Json} {P : Json → Prop}

theorem forall_of_readItems (hvalue : ∀ {t v r}, value t = .ok (v, r) → P v) {n : ℕ} {t r : Text}
    {vs : List Json} (h : readItems value n t = .ok (vs, r)) : ∀ v ∈ vs, P v := by
  induction n generalizing t vs with
  | zero => cases h
  | succ n ih =>
    rw [readItems] at h
    obtain ⟨⟨v, u⟩, hv, h⟩ := bind_eq_ok_iff.1 h
    dsimp only at h
    split at h
    · cases h
      exact List.forall_mem_singleton.2 (hvalue hv)
    · obtain ⟨_, hvs, h⟩ := bind_eq_ok_iff.1 h
      cases h
      exact List.forall_mem_cons.2 ⟨hvalue hv, ih hvs⟩
    · cases h

theorem of_readField (hvalue : ∀ {t v r}, value t = .ok (v, r) → P v) {t r : Text}
    {f : Codes × Json} (h : readField value t = .ok (f, r)) : P f.2 := by
  unfold readField at h
  split at h
  · obtain ⟨⟨key, u⟩, -, h⟩ := bind_eq_ok_iff.1 h
    dsimp only at h
    split at h
    · obtain ⟨_, hv, h⟩ := bind_eq_ok_iff.1 h
      cases h
      exact hvalue hv
    · cases h
  · cases h

theorem forall_of_readFields (hvalue : ∀ {t v r}, value t = .ok (v, r) → P v) {n : ℕ}
    {t r : Text} {fs : List (Codes × Json)} (h : readFields value n t = .ok (fs, r)) :
    ∀ f ∈ fs, P f.2 := by
  induction n generalizing t fs with
  | zero => cases h
  | succ n ih =>
    rw [readFields] at h
    obtain ⟨⟨g, u⟩, hf, h⟩ := bind_eq_ok_iff.1 h
    dsimp only at h
    split at h
    · cases h
      exact List.forall_mem_singleton.2 (of_readField hvalue hf)
    · obtain ⟨_, hfs, h⟩ := bind_eq_ok_iff.1 h
      cases h
      exact List.forall_mem_cons.2 ⟨of_readField hvalue hf, ih hfs⟩
    · cases h

theorem nodup_keys_put {fields : Fields} (h : fields.keys.Nodup) (key : Codes) (v : Json) :
    (fields.put key v).keys.Nodup := by
  rw [Fields.keys_put]
  split_ifs with hmem
  · exact h
  · exact List.nodup_append.2 ⟨h, List.nodup_singleton key, fun a ha b hb heq =>
      hmem (List.mem_singleton.1 hb ▸ heq ▸ ha)⟩

theorem forall_put {fields : Fields} (h : ∀ f ∈ fields, P f.2) {key : Codes} {v : Json} (hv : P v) :
    ∀ f ∈ fields.put key v, P f.2 := by
  induction fields with
  | nil => exact List.forall_mem_singleton.2 hv
  | cons g rest ih =>
    rw [List.forall_mem_cons] at h
    rw [Fields.put]
    split_ifs
    · exact List.forall_mem_cons.2 ⟨hv, h.2⟩
    · exact List.forall_mem_cons.2 ⟨h.1, ih h.2⟩

theorem mergeFields_spec {fs : List (Codes × Json)} (h : ∀ f ∈ fs, P f.2) :
    (mergeFields fs).keys.Nodup ∧ ∀ f ∈ mergeFields fs, P f.2 := by
  have hfold : ∀ (fs : List (Codes × Json)) (before : Fields), (∀ f ∈ fs, P f.2) →
      before.keys.Nodup → (∀ f ∈ before, P f.2) →
      (fs.foldl (fun (gs : Fields) f => gs.put f.1 f.2) before).keys.Nodup ∧
        ∀ f ∈ fs.foldl (fun (gs : Fields) f => gs.put f.1 f.2) before, P f.2 := by
    intro fs
    induction fs with
    | nil => exact fun before _ hkeys hP => ⟨hkeys, hP⟩
    | cons f rest ih =>
      intro before hfs hkeys hP
      rw [List.forall_mem_cons] at hfs
      exact ih _ hfs.2 (nodup_keys_put hkeys f.1 f.2) (forall_put hP hfs.1)
  exact hfold fs [] h List.nodup_nil fun f hf => absurd hf List.not_mem_nil

end Sound

/-- **What is read to a depth can be read to it.** -/
theorem fits_of_valueAt {n : ℕ} {t r : Text} {v : Json} (h : valueAt n t = .ok (v, r)) :
    Fits n v := by
  induction n generalizing t v r with
  | zero =>
    cases t with
    | nil => cases h
    | cons c t =>
      rw [valueAt] at h
      split_ifs at h
      exact fits_of_readScalar h 0
  | succ n ih =>
    cases t with
    | nil => cases h
    | cons c t =>
      rw [valueAt] at h
      split_ifs at h with harray hobject
      · unfold readArray at h
        split at h
        · cases h
          exact .array fun v hv => absurd hv List.not_mem_nil
        · obtain ⟨_, hvs, heq⟩ := map_eq_ok_iff.1 h
          cases heq
          exact .array (forall_of_readItems ih hvs)
      · unfold readObject at h
        split at h
        · cases h
          exact .object List.nodup_nil fun f hf => absurd hf List.not_mem_nil
        · obtain ⟨_, hfs, heq⟩ := map_eq_ok_iff.1 h
          cases heq
          obtain ⟨hkeys, hfits⟩ := mergeFields_spec (forall_of_readFields ih hfs)
          exact .object hkeys hfits
      · exact fits_of_readScalar h (n + 1)

/-- **What is read can be read again.** -/
theorem fits_of_read {n : ℕ} {t : Text} {v : Json} (h : read n t = .ok v) : Fits n v := by
  unfold read at h
  obtain ⟨⟨w, r⟩, hv, h⟩ := bind_eq_ok_iff.1 h
  dsimp only at h
  split_ifs at h
  cases h
  exact fits_of_valueAt hv

end SpokenCalculator.Json
