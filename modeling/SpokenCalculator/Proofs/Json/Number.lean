import SpokenCalculator.Json.Printer
import SpokenCalculator.Json.Reader
import SpokenCalculator.Proofs.Binary64.Decimal
import SpokenCalculator.Proofs.Text.Numeral

/-!
# Numbers of documents are read as they were written

A number is written as digits, perhaps with a fraction and an exponent.  These parts are found
again, and the decimal fraction that they denote is the one that was laid out.

* `NumberText`: the parts of a written number;
* `readUnsigned_text`: the parts are found again;
* `exists_numberText_layout`: the parts of a decimal fraction that is laid out;
* `readScalar_number`: a number is read as it was written.
-/

namespace SpokenCalculator

open Text

namespace Json

/-! ### The parts of a number -/

/-- After a part that is read the reading goes on. -/
theorem ok_bind {ε α β : Type} (a : α) (f : α → Except ε β) : (Except.ok a >>= f) = f a := rfl

/-- What is read in two parts has both. -/
theorem bind_eq_ok_iff {ε α β : Type} {x : Except ε α} {f : α → Except ε β} {b : β} :
    x >>= f = .ok b ↔ ∃ a, x = .ok a ∧ f a = .ok b := by
  cases x <;> simp [bind, Except.bind]

theorem map_eq_ok_iff {ε α β : Type} {x : Except ε α} {f : α → β} {b : β} :
    x.map f = .ok b ↔ ∃ a, x = .ok a ∧ f a = b := by
  cases x <;> simp [Except.map]

/-- A text that does not go on with a number. -/
def Stops (r : Text) : Prop := ∀ c ∈ r.head?, isAsciiDigit c = false ∧ c ≠ '.' ∧ c ≠ 'e' ∧ c ≠ 'E'

/-- The parts of a written number: digits that begin with a zero only if it stands alone, a fraction
and an exponent. -/
structure NumberText where
  whole : Text
  fraction : Option Text
  exponent : Option (Bool × Text)
  isWhole : whole = ['0'] ∨ ∃ c t, whole = c :: t ∧ c ≠ '0' ∧ IsDigits whole
  isFraction : ∀ f ∈ fraction, f ≠ [] ∧ IsDigits f
  isExponent : ∀ e ∈ exponent, e.2 ≠ [] ∧ IsDigits e.2

namespace NumberText

/-- A fraction after its point. -/
def fractionText : Option Text → Text
  | none => []
  | some f => '.' :: f

/-- An exponent after its letter, with its sign. -/
def exponentText : Option (Bool × Text) → Text
  | none => []
  | some (negative, d) => 'e' :: (if negative then '-' else '+') :: d

/-- The value of an exponent. -/
def exponentValue (e : Bool × Text) : Int := if e.1 then -(Text.value e.2 : Int) else Text.value e.2

/-- The number as it is written. -/
def text (p : NumberText) : Text := p.whole ++ (fractionText p.fraction ++ exponentText p.exponent)

/-- The decimal fraction that the parts denote. -/
def decimal (p : NumberText) : Decimal :=
  ⟨Text.value (p.whole ++ p.fraction.getD []),
    (p.exponent.map exponentValue).getD 0 - (p.fraction.getD []).length⟩

/-- Digits with a point among them. -/
def ofPoint (whole fraction : Text)
    (isWhole : whole = ['0'] ∨ ∃ c t, whole = c :: t ∧ c ≠ '0' ∧ IsDigits whole)
    (hne : fraction ≠ []) (hdigits : IsDigits fraction) : NumberText where
  whole := whole
  fraction := some fraction
  exponent := none
  isWhole := isWhole
  isFraction := fun f hf => by
    cases hf
    exact ⟨hne, hdigits⟩
  isExponent := fun e he => by cases he

section Point

variable {w f : Text} (hw : w = ['0'] ∨ ∃ c t, w = c :: t ∧ c ≠ '0' ∧ IsDigits w)
  (hne : f ≠ []) (hf : IsDigits f)

theorem text_ofPoint : (ofPoint w f hw hne hf).text = w ++ '.' :: f := by
  rw [text, ofPoint, fractionText, exponentText, List.append_nil]

theorem toRat_ofPoint :
    (ofPoint w f hw hne hf).decimal.toRat = value (w ++ f) * 10 ^ (-f.length : ℤ) := by
  rw [decimal, ofPoint, Decimal.toRat]
  simp

end Point

end NumberText

open NumberText

theorem takeWhile_dropWhile_digits {d r : Text} (hd : IsDigits d)
    (hr : ∀ c ∈ r.head?, isAsciiDigit c = false) :
    (d ++ r).takeWhile isAsciiDigit = d ∧ (d ++ r).dropWhile isAsciiDigit = r := by
  rw [List.takeWhile_append_of_pos hd, List.dropWhile_append_of_pos hd]
  cases r with
  | nil => exact ⟨List.append_nil d, rfl⟩
  | cons c r =>
    have hc := hr c rfl
    rw [List.takeWhile_cons_of_neg (by simp [hc]), List.dropWhile_cons_of_neg (by simp [hc]),
      List.append_nil]
    exact ⟨rfl, rfl⟩

theorem readWhole_append {w r : Text}
    (hw : w = ['0'] ∨ ∃ c t, w = c :: t ∧ c ≠ '0' ∧ IsDigits w)
    (hr : ∀ c ∈ r.head?, isAsciiDigit c = false) : readWhole (w ++ r) = .ok (w, r) := by
  rcases hw with rfl | ⟨c, t, rfl, hc, hdigits⟩
  · rfl
  · obtain ⟨htake, hdrop⟩ := takeWhile_dropWhile_digits
      (fun d hd => hdigits d (List.mem_cons_of_mem _ hd)) hr
    rw [List.cons_append, readWhole, if_neg hc, if_pos (hdigits c (List.mem_cons_self ..)), htake,
      hdrop]

theorem readFraction_append {f : Option Text} {r : Text} (hf : ∀ t ∈ f, t ≠ [] ∧ IsDigits t)
    (hr : ∀ c ∈ r.head?, isAsciiDigit c = false ∧ c ≠ '.') :
    readFraction (fractionText f ++ r) = (f, r) := by
  cases f with
  | none =>
    cases r with
    | nil => rfl
    | cons c r =>
      rw [fractionText, List.nil_append, readFraction]
      rintro r' heq
      exact (hr c rfl).2 (List.cons.inj heq).1
  | some t =>
    obtain ⟨hne, hdigits⟩ := hf t rfl
    obtain ⟨htake, hdrop⟩ := takeWhile_dropWhile_digits hdigits fun c hc => (hr c hc).1
    rw [fractionText, List.cons_append, readFraction, htake, hdrop, if_neg (by simpa using hne)]

theorem readExponent_append {e : Option (Bool × Text)} {r : Text}
    (he : ∀ p ∈ e, p.2 ≠ [] ∧ IsDigits p.2)
    (hr : ∀ c ∈ r.head?, isAsciiDigit c = false ∧ c ≠ 'e' ∧ c ≠ 'E') :
    readExponent (exponentText e ++ r) = (e.map exponentValue, r) := by
  cases e with
  | none =>
    cases r with
    | nil => rfl
    | cons c r =>
      rw [exponentText, List.nil_append, readExponent, if_neg]
      · rfl
      · rintro (rfl | rfl)
        · exact (hr _ rfl).2.1 rfl
        · exact (hr _ rfl).2.2 rfl
  | some p =>
    obtain ⟨negative, d⟩ := p
    obtain ⟨hne, hdigits⟩ := he _ rfl
    obtain ⟨htake, hdrop⟩ := takeWhile_dropWhile_digits hdigits fun c hc => (hr c hc).1
    have hsign : readSign ((if negative then '-' else '+') :: (d ++ r)) = (negative, d ++ r) := by
      cases negative <;> rfl
    rw [exponentText, List.cons_append, List.cons_append, readExponent, if_pos (Or.inl rfl), hsign]
    simp only [htake, hdrop]
    rw [if_neg (by simpa using hne)]
    rfl

/-- **The parts of a number are found again.** -/
theorem readUnsigned_text (negative : Bool) (p : NumberText) {r : Text} (hr : Stops r) :
    readUnsigned negative (p.text ++ r) =
      (numberOf negative p.whole p.fraction (p.exponent.map exponentValue)).map (·, r) := by
  have hexponent : ∀ c ∈ (exponentText p.exponent ++ r).head?,
      isAsciiDigit c = false ∧ c ≠ '.' := by
    cases p.exponent with
    | none => exact fun c hc => ⟨(hr c hc).1, (hr c hc).2.1⟩
    | some e =>
      intro c hc
      cases hc
      decide
  have hfraction : ∀ c ∈ (fractionText p.fraction ++ (exponentText p.exponent ++ r)).head?,
      isAsciiDigit c = false := by
    cases p.fraction with
    | none => exact fun c hc => (hexponent c hc).1
    | some f =>
      intro c hc
      cases hc
      decide
  rw [text, List.append_assoc, List.append_assoc, readUnsigned,
    readWhole_append p.isWhole hfraction]
  simp only [ok_bind, readFraction_append p.isFraction hexponent,
    readExponent_append p.isExponent fun c hc => ⟨(hr c hc).1, (hr c hc).2.2⟩]
  rcases numberOf negative p.whole p.fraction (p.exponent.map exponentValue) with e | n <;> rfl

theorem numberOf_float (negative : Bool) {p : NumberText}
    (h : p.fraction ≠ none ∨ p.exponent ≠ none) :
    numberOf negative p.whole p.fraction (p.exponent.map exponentValue) =
      .ok (.float (.ofDecimal negative p.decimal)) := by
  have hcond : (p.fraction.isNone && (p.exponent.map exponentValue).isNone) = false := by
    rcases h with h | h
    · rw [Option.isNone_eq_false_iff.2 (Option.isSome_iff_ne_none.2 h), Bool.false_and]
    · rw [Option.isNone_map, Option.isNone_eq_false_iff.2 (Option.isSome_iff_ne_none.2 h),
        Bool.and_false]
  rw [numberOf, if_neg (by rw [hcond]; exact Bool.false_ne_true)]
  rfl

/-! ### Decimal fractions laid out -/

/-- The digits of a decimal fraction without the zeros at their end. -/
theorem exists_digits {x : Decimal} (hx : x.digits ≠ 0) :
    ∃ c t j, dropTail (· == '0') (ofNat x.digits) = c :: t ∧ c ≠ '0' ∧ IsDigits (c :: t) ∧
      ofNat x.digits = c :: t ++ List.replicate j '0' := by
  obtain ⟨j, hj⟩ := exists_dropTail_append_zeros (ofNat x.digits)
  have hdigits := isDigits_ofNat x.digits
  generalize dropTail (· == '0') (ofNat x.digits) = d at hj
  cases d with
  | nil =>
    refine absurd ?_ hx
    rw [← value_ofNat x.digits, hj]
    exact value_zeros j
  | cons c t =>
    rw [hj] at hdigits
    exact ⟨c, t, j, rfl, head_ofNat_ne_zero hx hj, hdigits.of_append_left, hj⟩

section Layout

variable {c : Char} {t : Text}

/-- Zeros in front of the digits, and the point before all but the first of them. -/
theorem exists_numberText_before (ht : IsDigits t) (hne : t ≠ []) (n : ℕ) :
    ∃ p : NumberText, '0' :: '.' :: (List.replicate n '0' ++ t) = p.text ∧ p.fraction ≠ none ∧
      p.decimal.toRat = value t * 10 ^ (-(n + t.length : ℕ) : ℤ) := by
  have hne' : List.replicate n '0' ++ t ≠ [] := List.append_ne_nil_of_right_ne_nil _ hne
  refine ⟨.ofPoint ['0'] (List.replicate n '0' ++ t) (Or.inl rfl) hne'
    ((isDigits_zeros n).append ht), ?_, Option.some_ne_none _, ?_⟩
  · rw [text_ofPoint]
    rfl
  have hzeros : ['0'] ++ (List.replicate n '0' ++ t) = List.replicate (n + 1) '0' ++ t := by
    rw [List.replicate_succ]
    rfl
  rw [toRat_ofPoint, hzeros, value_zeros_append, List.length_append, List.length_replicate]

/-- Zeros behind the digits, and the point before the last of them. -/
theorem exists_numberText_behind (hc : c ≠ '0') (ht : IsDigits (c :: t)) (n : ℕ) :
    ∃ p : NumberText, c :: t ++ List.replicate n '0' ++ ".0".toList = p.text ∧
      p.fraction ≠ none ∧ p.decimal.toRat = value (c :: t) * 10 ^ n := by
  refine ⟨.ofPoint (c :: t ++ List.replicate n '0') ['0']
      (Or.inr ⟨c, _, rfl, hc, ht.append (isDigits_zeros n)⟩) (List.cons_ne_nil _ _)
      (isDigits_zeros 1), ?_, Option.some_ne_none _, ?_⟩
  · rw [text_ofPoint]
    rfl
  have hzeros : c :: t ++ List.replicate n '0' ++ ['0'] = c :: t ++ List.replicate (n + 1) '0' := by
    rw [List.replicate_succ', List.append_assoc]
  rw [toRat_ofPoint, hzeros, value_append_zeros]
  push_cast
  rw [mul_assoc, pow_succ, List.length_singleton, Nat.cast_one, zpow_neg_one,
    mul_inv_cancel_right₀ (by norm_num)]

/-- The point between the digits. -/
theorem exists_numberText_among {a b : Text} (hc : c ≠ '0') (ht : IsDigits (c :: a ++ b))
    (hb : b ≠ []) :
    ∃ p : NumberText, c :: a ++ '.' :: b = p.text ∧ p.fraction ≠ none ∧
      p.decimal.toRat = value (c :: a ++ b) * 10 ^ (-b.length : ℤ) :=
  ⟨.ofPoint (c :: a) b (Or.inr ⟨c, a, rfl, hc, ht.of_append_left⟩) hb
      fun d hd => ht d (List.mem_append_right (c :: a) hd),
    (text_ofPoint ..).symm, Option.some_ne_none _, toRat_ofPoint ..⟩

/-- Digits with the point before, behind or among them. -/
theorem exists_numberText_positional (hc : c ≠ '0') (ht : IsDigits (c :: t)) (point : ℤ) :
    ∃ p : NumberText, Binary64.positional (c :: t) point = p.text ∧ p.fraction ≠ none ∧
      p.decimal.toRat = value (c :: t) * 10 ^ (point - (c :: t).length : ℤ) := by
  unfold Binary64.positional
  split_ifs with hbefore hbehind
  · obtain ⟨p, htext, hfraction, hrat⟩ :=
      exists_numberText_before ht (List.cons_ne_nil _ _) (-point).toNat
    refine ⟨p, htext, hfraction, hrat.trans ?_⟩
    congr 2
    omega
  · obtain ⟨p, htext, hfraction, hrat⟩ :=
      exists_numberText_behind hc ht (point.toNat - (c :: t).length)
    refine ⟨p, htext, hfraction, hrat.trans ?_⟩
    rw [← zpow_natCast]
    congr 2
    omega
  · obtain ⟨n, hn⟩ : ∃ n, point.toNat = n + 1 := ⟨point.toNat - 1, by omega⟩
    rw [List.length_cons, hn] at hbehind
    have hdrop : (t.drop n).length = t.length - n := List.length_drop
    rw [← List.take_append_drop n t, ← List.cons_append] at ht
    obtain ⟨p, htext, hfraction, hrat⟩ :=
      exists_numberText_among hc ht (List.ne_nil_of_length_pos (by omega))
    rw [List.cons_append, List.take_append_drop] at hrat
    rw [hn, List.take_succ_cons, List.drop_succ_cons]
    refine ⟨p, htext, hfraction, hrat.trans ?_⟩
    congr 2
    rw [List.length_cons]
    omega

/-- Digits with the point after the first, and an exponent. -/
theorem exists_numberText_scientific (hc : c ≠ '0') (ht : IsDigits (c :: t)) (e : ℤ) :
    ∃ p : NumberText, Binary64.scientific (c :: t) e = p.text ∧ p.exponent ≠ none ∧
      p.decimal.toRat = value (c :: t) * 10 ^ (e + 1 - (c :: t).length : ℤ) := by
  have hexponent : ∀ p ∈ some (decide (e < 0), (ofNat e.natAbs).leftpad 2 '0'),
      p.2 ≠ [] ∧ IsDigits p.2 := by
    rintro p hp
    cases hp
    refine ⟨?_, isDigits_leftpad 2 _⟩
    rw [List.leftpad]
    exact List.append_ne_nil_of_right_ne_nil _ (ofNat_ne_nil _)
  have hvalue : exponentValue (decide (e < 0), (ofNat e.natAbs).leftpad 2 '0') = e := by
    rw [exponentValue, value_leftpad]
    by_cases he : e < 0
    · rw [if_pos (decide_eq_true he)]
      omega
    · rw [if_neg (by simpa using he)]
      omega
  have hwhole : [c] = ['0'] ∨ ∃ d u, [c] = d :: u ∧ d ≠ '0' ∧ IsDigits [c] :=
    Or.inr ⟨c, [], rfl, hc, ht.of_append_left (b := t)⟩
  cases t with
  | nil =>
    refine ⟨⟨[c], none, some _, hwhole, fun f hf => ?_, hexponent⟩, ?_,
      Option.some_ne_none _, ?_⟩
    · cases hf
    · simp [NumberText.text, Binary64.scientific, fractionText, exponentText]
    · rw [NumberText.decimal, Decimal.toRat]
      simp only [Option.getD_none, Option.map_some, Option.getD_some, hvalue, List.append_nil]
      congr 2
      simp
  | cons d t =>
    refine ⟨⟨[c], some (d :: t), some _, hwhole, fun f hf => ?_, hexponent⟩, ?_,
      Option.some_ne_none _, ?_⟩
    · cases hf
      exact ⟨List.cons_ne_nil d t, fun x hx => ht x (List.mem_cons_of_mem _ hx)⟩
    · simp [NumberText.text, Binary64.scientific, fractionText, exponentText]
    · rw [NumberText.decimal, Decimal.toRat]
      simp only [Option.map_some, Option.getD_some, hvalue]
      congr 2
      simp only [List.length_cons]
      omega

end Layout

/-- **A decimal fraction is laid out as a number of its value.** -/
theorem exists_numberText_layout (style : Binary64.Style) {x : Decimal} (hx : x.digits ≠ 0) :
    ∃ p : NumberText, style.layout x = p.text ∧ (p.fraction ≠ none ∨ p.exponent ≠ none) ∧
      p.decimal.toRat = x.toRat := by
  obtain ⟨c, t, j, hdrop, hc, ht, hj⟩ := exists_digits hx
  have hvalue : x.toRat = value (c :: t) * 10 ^ (x.exponent + (ofNat x.digits).length -
      (c :: t).length : ℤ) := by
    have hdigits : x.digits = value (c :: t) * 10 ^ j := by
      conv_lhs => rw [← value_ofNat x.digits, hj]
      rw [value_append_zeros]
    rw [Decimal.toRat, hj, List.length_append, List.length_replicate]
    conv_lhs => rw [hdigits]
    push_cast
    rw [mul_assoc, ← zpow_natCast, ← zpow_add₀ (by norm_num)]
    congr 2
    omega
  rw [Binary64.Style.layout, hdrop, hvalue]
  split_ifs
  · obtain ⟨p, hp, hfraction, hrat⟩ := exists_numberText_positional hc ht
      (x.exponent + (ofNat x.digits).length)
    exact ⟨p, hp, Or.inl hfraction, hrat⟩
  · obtain ⟨p, hp, hexponent, hrat⟩ := exists_numberText_scientific hc ht
      (x.exponent + (ofNat x.digits).length - 1)
    rw [sub_add_cancel] at hrat
    exact ⟨p, hp, Or.inr hexponent, hrat⟩

end Json

/-! ### All numbers -/

theorem Number.isLong_int_eq_false_iff {i : ℤ} :
    isLong (.int i) = false ↔ i.natAbs < 10 ^ maxDigits := by
  rw [isLong, decide_eq_false_iff_not, not_le, Nat.pow_eq]

namespace Json

open NumberText

/-- What follows a value in a document: the end, a comma or another line. -/
def Follows (r : Text) : Prop := ∀ c ∈ r.head?, c = ',' ∨ c = '\n'

theorem Follows.stops {r : Text} (h : Follows r) : Stops r := by
  intro c hc
  rcases h c hc with rfl | rfl <;> decide

/-- The parts of a whole number. -/
def wholeText (n : ℕ) : NumberText where
  whole := ofNat n
  fraction := none
  exponent := none
  isWhole := by
    by_cases hn : n = 0
    · rw [hn]
      exact Or.inl rfl
    · cases h : ofNat n with
      | nil => exact absurd h (ofNat_ne_nil n)
      | cons c t => exact Or.inr ⟨c, t, rfl, head_ofNat_ne_zero hn h, h ▸ isDigits_ofNat n⟩
  isFraction := fun f hf => by cases hf
  isExponent := fun e he => by cases he

/-- A sign and a number after it. -/
def signedText (negative : Bool) (p : NumberText) : Text :=
  (if negative then ['-'] else []) ++ p.text

/-- A written number begins with a digit. -/
theorem exists_digit_text (p : NumberText) : ∃ c t, p.text = c :: t ∧ isAsciiDigit c = true := by
  rcases p.isWhole with h | ⟨c, t, h, -, hdigits⟩
  · exact ⟨'0', _, by rw [NumberText.text, h]; rfl, rfl⟩
  · exact ⟨c, _, by rw [NumberText.text, h]; rfl, hdigits c (h ▸ List.mem_cons_self ..)⟩

/-- A digit, perhaps after a sign, begins no word and no string. -/
theorem readScalar_digit (negative : Bool) {c : Char} (hc : isAsciiDigit c = true) (t : Text) :
    readScalar ((if negative then ['-'] else []) ++ c :: t) =
      (readUnsigned negative (c :: t)).map fun (n, r) => (.number n, r) := by
  have hne : ∀ d, isAsciiDigit d = false → d ≠ c := by
    rintro d hd rfl
    rw [hc] at hd
    cases hd
  have hwords : readWord? ((if negative then ['-'] else []) ++ c :: t) = none := by
    have hnone : ∀ d ∈ ['n', 't', 'f', 'N', 'I', '-'], isAsciiDigit d = false :=
      List.forall_iff_forall_mem.1 (by decide)
    have hfirst : ∀ d ∈ ['n', 't', 'f', 'N', 'I', '-'], d ≠ c := fun d hd => hne d (hnone d hd)
    simp only [List.mem_cons, List.not_mem_nil, or_false, forall_eq_or_imp, forall_eq] at hfirst
    cases negative <;> simp [readWord?, words, after?, hfirst]
  cases negative with
  | false =>
    have hquote := (hne '"' rfl).symm
    have hminus := (hne '-' rfl).symm
    have hnumber : readNumber (c :: t) = readUnsigned false (c :: t) := by
      rw [readNumber]
      rintro u heq
      exact hminus (List.cons.inj heq).1
    simp only [Bool.false_eq_true, if_false, List.nil_append] at hwords ⊢
    rw [readScalar, hwords, hnumber]
    rintro u heq
    exact hquote (List.cons.inj heq).1
  | true =>
    simp only [if_true, List.singleton_append] at hwords ⊢
    rw [readScalar, hwords]
    · rfl
    · rintro u heq
      exact absurd (List.cons.inj heq).1 (by decide)

theorem readScalar_signedText (negative : Bool) (p : NumberText) (r : Text) :
    readScalar (signedText negative p ++ r) =
      (readUnsigned negative (p.text ++ r)).map fun (n, r) => (.number n, r) := by
  obtain ⟨c, t, htext, hc⟩ := exists_digit_text p
  rw [signedText, htext, List.append_assoc, List.cons_append]
  exact readScalar_digit negative hc (t ++ r)

theorem signedText_wholeText (negative : Bool) (m : ℕ) :
    signedText negative (wholeText m) = (if negative then ['-'] else []) ++ ofNat m := by
  simp [signedText, wholeText, NumberText.text, fractionText, exponentText]

theorem readScalar_int (negative : Bool) {m : ℕ} (hm : m < 10 ^ Number.maxDigits) {r : Text}
    (hr : Follows r) :
    readScalar ((if negative then ['-'] else []) ++ ofNat m ++ r) =
      .ok (.number (.int (if negative then -(m : ℤ) else m)), r) := by
  have hlength : (ofNat m).length ≤ Number.maxDigits :=
    (length_ofNat_le_iff (by decide)).2 hm
  have hnumber : numberOf negative (ofNat m) none none =
      .ok (.int (if negative then -(m : ℤ) else m)) := by
    simp only [numberOf, Option.isNone_none, Bool.and_self, if_true]
    rw [if_neg (not_lt.2 hlength), value_ofNat]
  rw [← signedText_wholeText, readScalar_signedText, readUnsigned_text negative _ hr.stops]
  show Except.map _ (Except.map _ (numberOf negative (ofNat m) none none)) = _
  rw [hnumber]
  rfl

theorem readScalar_float (negative : Bool) {p : NumberText}
    (hp : p.fraction ≠ none ∨ p.exponent ≠ none) {r : Text} (hr : Follows r) :
    readScalar (signedText negative p ++ r) =
      .ok (.number (.float (.ofDecimal negative p.decimal)), r) := by
  rw [readScalar_signedText, readUnsigned_text negative _ hr.stops, numberOf_float negative hp]
  rfl

/-- The parts of zero with a point. -/
def zeroText : NumberText where
  whole := ['0']
  fraction := some ['0']
  exponent := none
  isWhole := Or.inl rfl
  isFraction := fun f hf => by
    cases hf
    exact ⟨List.cons_ne_nil _ _, isDigits_zeros 1⟩
  isExponent := fun e he => by cases he

/-- A finite number is written as its sign and the parts of a decimal fraction that is read as
it. -/
theorem exists_numberText_finite (style : Binary64.Style) (s : Bool) {q : ℕ}
    (hq : q < Binary64.ranks) :
    ∃ p : NumberText, style.text (.finite s q hq) = signedText s p ∧
      (p.fraction ≠ none ∨ p.exponent ≠ none) ∧
        .ofDecimal s p.decimal = Binary64.finite s q hq := by
  by_cases hzero : q = 0
  · subst hzero
    exact ⟨zeroText, rfl, Or.inl (Option.some_ne_none _), rfl⟩
  · obtain ⟨p, htext, hparts, hrat⟩ :=
      exists_numberText_layout style (Binary64.digits_shortest_ne_zero hzero)
    refine ⟨p, ?_, hparts, ?_⟩
    · rw [Binary64.Style.text, if_neg hzero, htext]
      rfl
    · rw [Binary64.ofDecimal_congr s hrat, Binary64.ofDecimal_shortest]

/-- **A number is read as it was written.** -/
theorem readScalar_number {n : Number} (hn : n.isLong = false) {r : Text} (hr : Follows r) :
    readScalar (n.text documentStyle.numbers ++ r) = .ok (.number n, r) := by
  cases n with
  | int i =>
    cases i with
    | ofNat m => exact readScalar_int (m := m) false (Number.isLong_int_eq_false_iff.1 hn) hr
    | negSucc m => exact readScalar_int (m := m + 1) true (Number.isLong_int_eq_false_iff.1 hn) hr
  | float x =>
    cases x with
    | nan => rfl
    | infinite s => cases s <;> rfl
    | finite s q hq =>
      obtain ⟨p, htext, hparts, hread⟩ := exists_numberText_finite documentStyle.numbers s hq
      rw [Number.text, htext, readScalar_float s hparts hr, hread]

end Json
end SpokenCalculator
