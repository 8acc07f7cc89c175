import Mathlib.Algebra.Ring.Nat
import Mathlib.Data.List.DropRight
import SpokenCalculator.Binary64.Reading
import SpokenCalculator.Expression.Token

/-!
# Digits and plain numerals

* `dropTail_append_cons`, `exists_dropTail_append_zeros`: a text without the zeros at its end;
* `value_append`: the value of digits before and after other digits;
* `eq_of_value_eq`, `ofNat_value`: digits are determined by their value;
* `IsDigits`: a text of digits;
* `isPlain_iff`: plain numerals are digits, perhaps with a point and more digits;
* `ofPlain_digits`, `ofPlain_point`: the decimal fraction that a plain numeral denotes;
* `dropTail_point_append`, `exists_numeral_of_digits`: digits with a point, which is dropped at the
  end.
-/

namespace SpokenCalculator

namespace Text

/-! ### The end of a text -/

theorem dropTail_append_cons (p : Char → Bool) (a : Text) {c : Char} (hc : p c = false)
    (b : Text) : dropTail p (a ++ c :: b) = a ++ c :: dropTail p b := by
  rw [dropTail, dropTail, List.reverse_append, List.reverse_cons, List.append_assoc,
    List.dropWhile_append]
  split
  · rename_i h
    rw [List.isEmpty_iff.1 h, List.singleton_append, List.dropWhile_cons_of_neg (by simp [hc])]
    simp
  · simp

theorem dropTail_eq_self {p : Char → Bool} {t : Text} (h : ∀ c ∈ t.getLast?, p c = false) :
    dropTail p t = t := by
  rcases List.eq_nil_or_concat t with rfl | ⟨a, c, rfl⟩
  · rfl
  · rw [List.concat_eq_append] at h ⊢
    rw [List.getLast?_concat] at h
    exact List.rdropWhile_concat_neg _ _ _ (by simp [h c rfl])

/-- Only zeros are dropped. -/
theorem exists_dropTail_append_zeros (t : Text) :
    ∃ j, t = dropTail (· == '0') t ++ List.replicate j '0' := by
  have htake : (t.reverse.takeWhile (· == '0')).reverse =
      List.replicate (t.reverse.takeWhile (· == '0')).length '0' := by
    refine List.eq_replicate_iff.2 ⟨List.length_reverse, fun c hc => ?_⟩
    have := List.mem_takeWhile_imp (List.mem_reverse.1 hc)
    exact beq_iff_eq.1 this
  refine ⟨(t.reverse.takeWhile (· == '0')).length, ?_⟩
  rw [← htake, dropTail, ← List.reverse_append, List.takeWhile_append_dropWhile,
    List.reverse_reverse]

/-! ### Digits -/

/-- A text of digits. -/
def IsDigits (t : Text) : Prop := ∀ c ∈ t, isAsciiDigit c = true

theorem IsDigits.append {a b : Text} (ha : IsDigits a) (hb : IsDigits b) : IsDigits (a ++ b) :=
  fun c hc => (List.mem_append.1 hc).elim (ha c) (hb c)

theorem IsDigits.of_append_left {a b : Text} (h : IsDigits (a ++ b)) : IsDigits a :=
  fun c hc => h c (List.mem_append_left b hc)

theorem isDigits_ofNat (n : ℕ) : IsDigits (ofNat n) := by
  intro c hc
  have h := Nat.isDigit_of_mem_toDigits (by decide) (by decide) hc
  simp only [Char.isDigit, Bool.and_eq_true, decide_eq_true_eq, ge_iff_le,
    UInt32.le_iff_toNat_le] at h
  rw [isAsciiDigit, Bool.and_eq_true, decide_eq_true_eq, decide_eq_true_eq]
  exact h

theorem ofNat_ne_nil (n : ℕ) : ofNat n ≠ [] := Nat.toDigits_ne_nil

theorem isDigits_zeros (j : ℕ) : IsDigits (List.replicate j '0') := by
  intro c hc
  rw [List.eq_of_mem_replicate hc]
  rfl

theorem value_append (a b : Text) : value (a ++ b) = value a * 10 ^ b.length + value b := by
  rw [value, Nat.ofDigitChars_append, Nat.ofDigitChars_eq_ofDigitChars_zero, Nat.mul_comm]
  rfl

@[simp] theorem value_zeros (j : ℕ) : value (List.replicate j '0') = 0 := by
  rw [value, Nat.ofDigitChars_replicate_zero, Nat.mul_zero]

/-- Zeros in front of digits do not count. -/
theorem value_zeros_append (j : ℕ) (t : Text) : value (List.replicate j '0' ++ t) = value t := by
  rw [value_append, value_zeros, Nat.zero_mul, Nat.zero_add]

/-- Each zero at the end of digits counts ten times. -/
theorem value_append_zeros (t : Text) (j : ℕ) :
    value (t ++ List.replicate j '0') = value t * 10 ^ j := by
  rw [value_append, value_zeros, List.length_replicate, Nat.add_zero]

theorem value_leftpad (j n : ℕ) : value ((ofNat n).leftpad j '0') = n := by
  rw [List.leftpad, value_zeros_append, value_ofNat]

theorem isDigits_leftpad (j n : ℕ) : IsDigits ((ofNat n).leftpad j '0') :=
  (isDigits_zeros _).append (isDigits_ofNat n)

theorem length_leftpad {j n : ℕ} (hj : 0 < j) (hn : n < 10 ^ j) :
    ((ofNat n).leftpad j '0').length = j := by
  have h := (Nat.length_toDigits_le_iff (n := n) (by decide) hj).2 hn
  rw [List.length_leftpad]
  exact max_eq_left h

/-- The value of one digit. -/
theorem value_digit {c : Char} (hc : isAsciiDigit c = true) :
    value [c] + 0x30 = c.toNat ∧ value [c] < 10 := by
  have hvalue : value [c] = c.toNat - 0x30 := by simp [value, Nat.ofDigitChars]
  simp only [isAsciiDigit, Bool.and_eq_true, decide_eq_true_eq] at hc
  omega

theorem value_lt {t : Text} (ht : IsDigits t) : value t < 10 ^ t.length := by
  induction t using List.reverseRecOn with
  | nil => decide
  | append_singleton t c ih =>
    obtain ⟨-, hc⟩ := value_digit (ht c (by simp))
    have := ih ht.of_append_left
    rw [value_append, List.length_append, List.length_singleton, Nat.pow_add, Nat.pow_one]
    omega

theorem length_ofNat_le_iff {n k : ℕ} (hk : 0 < k) : (ofNat n).length ≤ k ↔ n < 10 ^ k :=
  Nat.length_toDigits_le_iff (by decide) hk

/-- The digits of a number other than zero do not begin with a zero. -/
theorem head_ofNat_ne_zero {n : ℕ} (hn : n ≠ 0) {c : Char} {t : Text} (h : ofNat n = c :: t) :
    c ≠ '0' := by
  rintro rfl
  have hdigits := isDigits_ofNat n
  have hvalue := value_ofNat n
  rw [h] at hdigits hvalue
  have htail : value ('0' :: t) = value t := by
    have hzero : value ['0'] = 0 := value_zeros 1
    have happend := value_append ['0'] t
    rwa [hzero, Nat.zero_mul, Nat.zero_add] at happend
  have hlt := value_lt (t := t) fun c hc => hdigits c (List.mem_cons_of_mem _ hc)
  rw [← htail, hvalue] at hlt
  cases t with
  | nil =>
    rw [List.length_nil, Nat.pow_zero] at hlt
    omega
  | cons d t =>
    have hle := (length_ofNat_le_iff (List.length_pos_of_ne_nil (List.cons_ne_nil d t))).2 hlt
    rw [h] at hle
    exact absurd hle (Nat.not_succ_le_self (d :: t).length)

/-- Digits of one length are told apart by their value. -/
theorem eq_of_value_eq {a b : Text} (ha : IsDigits a) (hb : IsDigits b)
    (hlength : a.length = b.length) (h : value a = value b) : a = b := by
  induction a using List.reverseRecOn generalizing b with
  | nil => exact (List.length_eq_zero_iff.1 hlength.symm).symm
  | append_singleton a c ih =>
    rcases List.eq_nil_or_concat b with rfl | ⟨b, d, rfl⟩
    · simp at hlength
    · rw [List.concat_eq_append] at *
      obtain ⟨hc, hclt⟩ := value_digit (ha c (by simp))
      obtain ⟨hd, hdlt⟩ := value_digit (hb d (by simp))
      rw [value_append, value_append, List.length_singleton, List.length_singleton] at h
      have hcd : c = d := Char.toNat_inj.1 (by omega)
      rw [ih ha.of_append_left hb.of_append_left (by simpa using hlength) (by omega), hcd]

theorem length_ofNat {n k : ℕ} (hlow : 10 ^ k ≤ n) (hhigh : n < 10 ^ (k + 1)) :
    (ofNat n).length = k + 1 := by
  have hle := (length_ofNat_le_iff (Nat.succ_pos k)).2 hhigh
  have hpos := List.length_pos_iff.2 (ofNat_ne_nil n)
  by_contra hne
  have hk : 0 < k := by omega
  have hlt : n < 10 ^ k := (length_ofNat_le_iff hk).1 (by omega)
  omega

/-- Digits without a zero in front are those of their value. -/
theorem ofNat_value {t : Text} (ht : IsDigits t) (hne : t ≠ [])
    (hzero : t.head? = some '0' → t = ['0']) : ofNat (value t) = t := by
  obtain ⟨c, t, rfl⟩ := List.exists_cons_of_ne_nil hne
  by_cases hc : c = '0'
  · rw [hzero (by rw [hc, List.head?_cons])]
    decide
  · -- as the first digit is not zero, the value has as many digits
    obtain ⟨hvalue, -⟩ := value_digit (ht c (List.mem_cons_self ..))
    have hpos : 0 < value [c] := by
      by_contra hnot
      exact hc (Char.toNat_inj.1 (by rw [← hvalue]; simpa using hnot))
    have hlow : 10 ^ t.length ≤ value (c :: t) := by
      rw [← List.singleton_append, value_append]
      exact (Nat.le_mul_of_pos_left _ hpos).trans (Nat.le_add_right _ _)
    exact eq_of_value_eq (isDigits_ofNat _) ht (length_ofNat hlow (value_lt ht)) (value_ofNat _)

end Text

/-! ### Plain numerals -/

open Text

theorem takeWhile_digits {w : Text} (hw : IsDigits w) (t : Text) :
    (w ++ '.' :: t).takeWhile isAsciiDigit = w := by
  rw [List.takeWhile_append_of_pos hw, List.takeWhile_cons_of_neg (by decide), List.append_nil]

theorem dropWhile_digits {w : Text} (hw : IsDigits w) (t : Text) :
    (w ++ '.' :: t).dropWhile isAsciiDigit = '.' :: t := by
  rw [List.dropWhile_append_of_pos hw, List.dropWhile_cons_of_neg (by decide)]

/-- Plain numerals are digits, perhaps with a point and more digits. -/
theorem isPlain_iff {t : Text} :
    Numeral.isPlain t = true ↔ ∃ w, w ≠ [] ∧ IsDigits w ∧
      (t = w ∨ ∃ f, f ≠ [] ∧ IsDigits f ∧ t = w ++ '.' :: f) := by
  constructor
  · intro h
    simp only [Numeral.isPlain, Bool.and_eq_true, Bool.not_eq_true', List.isEmpty_eq_false_iff] at h
    obtain ⟨hne, hrest⟩ := h
    refine ⟨t.takeWhile isAsciiDigit, hne, fun c hc => List.mem_takeWhile_imp hc, ?_⟩
    have happ := List.takeWhile_append_dropWhile (p := isAsciiDigit) (l := t)
    cases hd : t.dropWhile isAsciiDigit with
    | nil => exact Or.inl (by rw [hd, List.append_nil] at happ; exact happ.symm)
    | cons c f =>
      simp only [hd, Bool.and_eq_true, beq_iff_eq, Bool.not_eq_true', List.isEmpty_eq_false_iff,
        List.all_eq_true] at hrest
      obtain ⟨⟨rfl, hf⟩, hdigits⟩ := hrest
      exact Or.inr ⟨f, hf, hdigits, by rw [← hd, happ]⟩
  · rintro ⟨w, hw, hdigits, rfl | ⟨f, hf, hfdigits, rfl⟩⟩
    · simp [Numeral.isPlain, List.takeWhile_eq_self_iff.2 hdigits,
        List.dropWhile_eq_nil_iff.2 hdigits, hw]
    · simp only [Numeral.isPlain, takeWhile_digits hdigits, dropWhile_digits hdigits]
      simpa [hw, hf, IsDigits] using hfdigits

theorem ofPlain_digits {w : Text} (hw : IsDigits w) : Decimal.ofPlain w = ⟨value w, 0⟩ := by
  simp [Decimal.ofPlain, List.filter_eq_self.2 hw, List.dropWhile_eq_nil_iff.2 hw]

theorem ofPlain_point {w f : Text} (hw : IsDigits w) (hf : IsDigits f) :
    Decimal.ofPlain (w ++ '.' :: f) = ⟨value (w ++ f), -f.length⟩ := by
  have hfilter : (w ++ '.' :: f).filter isAsciiDigit = w ++ f := by
    rw [List.filter_append, List.filter_cons_of_neg (by decide), List.filter_eq_self.2 hw,
      List.filter_eq_self.2 hf]
  rw [Decimal.ofPlain, hfilter, dropWhile_digits hw]
  rfl

/-- The point at the end of a text of digits is dropped, and no other. -/
theorem dropTail_point {t : Text} (ht : IsDigits t) (hne : t ≠ []) (a : Text) :
    dropTail (· == '.') (a ++ t) = a ++ t := by
  refine dropTail_eq_self ?_
  intro c hc
  refine beq_eq_false_iff_ne.2 ?_
  rintro rfl
  rw [List.getLast?_append_of_ne_nil a hne] at hc
  exact absurd (ht '.' (List.mem_of_mem_getLast? hc)) (by decide)

/-- Digits after a point, without the point if there are none. -/
def afterPoint (f : Text) : Text := if f = [] then [] else '.' :: f

/-- The point between digits stays, and at the end it is dropped. -/
theorem dropTail_point_append {w f : Text} (hw : IsDigits w) (hne : w ≠ []) (hf : IsDigits f)
    (a : Text) : dropTail (· == '.') (a ++ w ++ '.' :: f) = a ++ (w ++ afterPoint f) := by
  by_cases hnil : f = []
  · subst hnil
    rw [afterPoint, if_pos rfl, List.append_nil]
    exact (List.rdropWhile_concat_pos _ _ _ rfl).trans (dropTail_point hw hne a)
  · rw [afterPoint, if_neg hnil]
    simpa using dropTail_point hf hnil (a ++ w ++ ['.'])

/-- Digits with a point, which is dropped if it is at the end, are a plain numeral. -/
theorem exists_numeral_of_digits {w f : Text} (hw : IsDigits w) (hne : w ≠ []) (hf : IsDigits f)
    (a : Text) :
    ∃ t, dropTail (· == '.') (a ++ w ++ '.' :: f) = a ++ t ∧ Numeral.isPlain t = true ∧
      Decimal.ofPlain t = ⟨value (w ++ f), -f.length⟩ := by
  refine ⟨w ++ afterPoint f, dropTail_point_append hw hne hf a, ?_⟩
  by_cases hnil : f = []
  · subst hnil
    rw [afterPoint, if_pos rfl, List.append_nil]
    exact ⟨isPlain_iff.2 ⟨w, hne, hw, Or.inl rfl⟩, ofPlain_digits hw⟩
  · rw [afterPoint, if_neg hnil]
    exact ⟨isPlain_iff.2 ⟨w, hne, hw, Or.inr ⟨f, hnil, hf, rfl⟩⟩, ofPlain_point hw hf⟩

theorem isNumeralChar_of_isDigits {t : Text} (ht : IsDigits t) :
    ∀ c ∈ t, Token.isNumeralChar c = true := by
  intro c hc
  rw [Token.isNumeralChar, ht c hc, Bool.true_or]

theorem isNumeralChar_of_isPlain {t : Text} (h : Numeral.isPlain t = true) :
    t ≠ [] ∧ ∀ c ∈ t, Token.isNumeralChar c = true := by
  obtain ⟨w, hne, hw, rfl | ⟨f, -, hf, rfl⟩⟩ := isPlain_iff.1 h
  · exact ⟨hne, isNumeralChar_of_isDigits hw⟩
  · refine ⟨by simp, ?_⟩
    intro c hc
    rcases List.mem_append.1 hc with hc | hc
    · exact isNumeralChar_of_isDigits hw c hc
    · rcases List.mem_cons.1 hc with rfl | hc
      · rfl
      · exact isNumeralChar_of_isDigits hf c hc

end SpokenCalculator
