import SpokenCalculator.Proofs.Binary64.Decimal
import SpokenCalculator.Proofs.Binary64.Whole
import SpokenCalculator.Proofs.Expression.ResultText

/-!
# Literals

Text in free notation can name an infinity or have an exponent.  A text of digits, points and
hyphens cannot: only a sign is taken off, and the rest is a decimal fraction or no number at all.
The fraction may still be too large for a finite number.  The text of a finite number never is: it
is rounded to ten places, but so large a number is whole and is written in full.

* `IsSigned`, `ofText?_of_isSigned`: how a text of digits, points and hyphens is read;
* `Overflows`, `isFinite_iff_of_ofText?`: when the number that is read is not finite;
* `ofText?_ne_nan`: texts that are not read as not-a-number;
* `exists_literal_resultText`: the text of a finite number;
* `IsFiniteLiteral`, `isFiniteLiteral_resultText_iff`: it is read as a finite number again.
-/

namespace SpokenCalculator
open Binary64 Text

/-! ### Digits, points and hyphens -/

/-- A digit, a point or a hyphen. -/
def isSignedChar (c : Char) : Bool := Token.isNumeralChar c || c == '-'

/-- A text of digits, points and hyphens. -/
def IsSigned (t : Text) : Prop := ∀ c ∈ t, isSignedChar c = true

theorem isSignedChar_of_isAsciiDigit {c : Char} (hc : isAsciiDigit c = true) :
    isSignedChar c = true := by
  rw [isSignedChar, Token.isNumeralChar, hc, Bool.true_or, Bool.true_or]

/-- These characters stand close together in the code of the keyboard, and everything with a meaning
of its own in free notation is outside. -/
theorem toNat_of_isSignedChar {c : Char} (hc : isSignedChar c = true) :
    0x2d ≤ c.toNat ∧ c.toNat ≤ 0x39 := by
  simp only [isSignedChar, Token.isNumeralChar, isAsciiDigit, Bool.or_eq_true, Bool.and_eq_true,
    decide_eq_true_eq, beq_iff_eq] at hc
  rcases hc with (⟨h1, h2⟩ | rfl) | rfl
  · exact ⟨h1.trans' (by decide), h2⟩
  · decide
  · decide

theorem ne_of_isSignedChar {c d : Char} (hc : isSignedChar c = true) (hd : 0x39 < d.toNat) :
    c ≠ d := by
  rintro rfl
  exact absurd (toNat_of_isSignedChar hc).2 (not_le.2 hd)

theorem toLower_of_isSignedChar {c : Char} (hc : isSignedChar c = true) : c.toLower = c := by
  refine dif_neg ?_
  rintro ⟨hcapital, -⟩
  have hle : 'A'.toNat ≤ c.toNat := UInt32.le_iff_toNat_le.1 hcapital
  exact absurd ((toNat_of_isSignedChar hc).2.trans_lt' hle) (by decide)

section Signed

variable {t : Text}

/-- Characters of the keyboard are taken as they are. -/
theorem mapM_fold?_of_lt (ht : ∀ c ∈ t, c.toNat < 0x80) : t.mapM Numeral.fold? = some t := by
  induction t with
  | nil => rfl
  | cons c t ih =>
    obtain ⟨hc, ht⟩ := List.forall_mem_cons.1 ht
    have hfold : Numeral.fold? c = some c := if_pos hc
    rw [List.mapM_cons, hfold, ih ht]
    rfl

theorem IsSigned.mapM_fold? (ht : IsSigned t) : t.mapM Numeral.fold? = some t :=
  mapM_fold?_of_lt fun c hc => (toNat_of_isSignedChar (ht c hc)).2.trans_lt (by decide)

theorem isMargin_of_isSignedChar {c : Char} (hc : isSignedChar c = true) :
    Numeral.isMargin c = false := by
  obtain ⟨h, -⟩ := toNat_of_isSignedChar hc
  have hspace : c ≠ ' ' := by
    rintro rfl
    exact absurd h (by decide)
  simp only [Numeral.isMargin, Bool.or_eq_false_iff, Bool.and_eq_false_iff, beq_eq_false_iff_ne,
    decide_eq_false_iff_not]
  exact ⟨hspace, Or.inr (by omega)⟩

/-- There is no margin to be taken off. -/
theorem IsSigned.dropMargins (ht : IsSigned t) :
    dropTail Numeral.isMargin (t.dropWhile Numeral.isMargin) = t := by
  have hbegin : t.dropWhile Numeral.isMargin = t := by
    cases t with
    | nil => rfl
    | cons c t =>
      have hc := isMargin_of_isSignedChar (ht c (List.mem_cons_self ..))
      exact List.dropWhile_cons_of_neg (by rw [hc]; exact Bool.false_ne_true)
  rw [hbegin]
  exact dropTail_eq_self fun c hc => isMargin_of_isSignedChar (ht c (List.mem_of_mem_getLast? hc))

theorem IsSigned.withoutLowLines? (ht : IsSigned t) (afterDigit : Bool) :
    Numeral.withoutLowLines? afterDigit t = some t := by
  induction t generalizing afterDigit with
  | nil => rfl
  | cons c t ih =>
    obtain ⟨hc, ht⟩ := List.forall_mem_cons.1 ht
    have hne : c ≠ '_' := ne_of_isSignedChar hc (by decide)
    have hcons : Numeral.withoutLowLines? afterDigit (c :: t) =
        (Numeral.withoutLowLines? (isAsciiDigit c) t).map (c :: ·) := by
      rw [Numeral.withoutLowLines?.eq_def]
      split
      · rename_i h
        cases h
      · rename_i h
        exact absurd (List.cons.inj h).1 hne
      · rename_i h
        exact absurd (List.cons.inj h).1 hne
      · rename_i h
        obtain ⟨rfl, rfl⟩ := List.cons.inj h
        rfl
    rw [hcons, ih ht]
    rfl

theorem IsSigned.splitSign (ht : IsSigned t) : IsSigned (Numeral.splitSign t).2 := by
  unfold Numeral.splitSign
  split
  · exact (List.forall_mem_cons.1 ht).2
  · exact (List.forall_mem_cons.1 ht).2
  · exact ht

/-- None of the names of what is not finite is such a text. -/
theorem IsSigned.ofUnsigned? (ht : IsSigned t) (negative : Bool) :
    ofUnsigned? negative t = (Numeral.readDecimal? t).map (ofDecimal negative) := by
  have hlower : t.map Char.toLower = t :=
    (List.map_congr_left fun c hc => toLower_of_isSignedChar (ht c hc)).trans t.map_id
  have hname : ∀ c ∈ t, c ≠ 'i' ∧ c ≠ 'n' := fun c hc =>
    ⟨ne_of_isSignedChar (ht c hc) (by decide), ne_of_isSignedChar (ht c hc) (by decide)⟩
  unfold Binary64.ofUnsigned?
  simp only [hlower]
  rw [if_neg, if_neg]
  · rintro rfl
    exact (hname 'n' (by decide)).2 rfl
  · rintro (rfl | rfl)
    · exact (hname 'i' (by decide)).1 rfl
    · exact (hname 'i' (by decide)).1 rfl

/-- **Of a text of digits, points and hyphens a sign is taken off, and the rest is read as a decimal
fraction.** -/
theorem ofText?_of_isSigned (ht : IsSigned t) :
    ofText? t =
      (Numeral.readDecimal? (Numeral.splitSign t).2).map (ofDecimal (Numeral.splitSign t).1) := by
  simp only [ofText?, ht.mapM_fold?, Option.bind_eq_bind, Option.bind_some, ht.dropMargins,
    ht.withoutLowLines?]
  exact ht.splitSign.ofUnsigned? _

end Signed

/-! ### Numbers that are too large -/

/-- A text denotes a decimal fraction, perhaps after a sign, that is so large that it is read as an
infinity. -/
def Overflows (t : Text) : Prop :=
  ∃ x, Numeral.readDecimal? (Numeral.splitSign t).2 = some x ∧ (overflowBound : ℚ) ≤ x.toRat

/-- **A text of digits, points and hyphens is read as a finite number unless it is too large.** -/
theorem isFinite_iff_of_ofText? {t : Text} (ht : IsSigned t) {v : Binary64}
    (hv : ofText? t = some v) : v.isFinite = true ↔ ¬ Overflows t := by
  rw [ofText?_of_isSigned ht, Option.map_eq_some_iff] at hv
  obtain ⟨x, hx, rfl⟩ := hv
  rw [isFinite_ofDecimal_iff, Overflows]
  simp only [hx, Option.some.injEq, exists_eq_left', not_le]

theorem exists_ofText?_of_overflows {t : Text} (ht : IsSigned t) (ho : Overflows t) :
    ∃ v, ofText? t = some v ∧ ¬ v.isFinite = true := by
  obtain ⟨x, hx, -⟩ := id ho
  have hv : ofText? t = some (ofDecimal (Numeral.splitSign t).1 x) := by
    rw [ofText?_of_isSigned ht, hx, Option.map_some]
  exact ⟨_, hv, fun hfinite => (isFinite_iff_of_ofText? ht hv).1 hfinite ho⟩

/-! ### The name of not-a-number -/

theorem withoutLowLines?_subset {afterDigit : Bool} {t u : Text}
    (h : Numeral.withoutLowLines? afterDigit t = some u) : u ⊆ t := by
  fun_induction Numeral.withoutLowLines? afterDigit t generalizing u with
  | case1 => cases h; exact List.Subset.refl _
  | case2 => cases h
  | case3 afterDigit d t hd ih =>
    obtain ⟨v, hv, rfl⟩ := Option.map_eq_some_iff.1 h
    exact List.Subset.trans (List.cons_subset_cons d (ih hv)) (List.subset_cons_self ..)
  | case4 => cases h
  | case5 afterDigit c t _ _ ih =>
    obtain ⟨v, hv, rfl⟩ := Option.map_eq_some_iff.1 h
    exact List.cons_subset_cons c (ih hv)

theorem splitSign_subset (t : Text) : (Numeral.splitSign t).2 ⊆ t := by
  unfold Numeral.splitSign
  split
  · exact List.subset_cons_self ..
  · exact List.subset_cons_self ..
  · exact List.Subset.refl t

theorem ofUnsigned?_eq_nan {negative : Bool} {t : Text} (h : ofUnsigned? negative t = some .nan) :
    t.map Char.toLower = "nan".toList := by
  unfold ofUnsigned? at h
  simp only at h
  split_ifs at h with hinf hnan
  · cases h
  · exact hnan
  · obtain ⟨x, -, hx⟩ := Option.map_eq_some_iff.1 h
    exact absurd hx (ofDecimal_ne_nan negative x)

/-- **A text of the keyboard without the second letter of its name is not read as not-a-number.** -/
theorem ofText?_ne_nan {t : Text} (hascii : ∀ c ∈ t, c.toNat < 0x80)
    (ht : ∀ c ∈ t, c.toLower ≠ 'a') : ofText? t ≠ some .nan := by
  intro h
  simp only [ofText?, mapM_fold?_of_lt hascii, Option.bind_eq_bind, Option.bind_some] at h
  obtain ⟨plain, hread, h⟩ := Option.bind_eq_some_iff.1 h
  have hbody := List.Subset.trans (List.rdropWhile_prefix Numeral.isMargin _).subset
    (List.dropWhile_suffix (l := t) Numeral.isMargin).subset
  have hplain := List.Subset.trans (withoutLowLines?_subset hread) hbody
  have hsubset := List.Subset.trans (splitSign_subset plain) hplain
  have hname := ofUnsigned?_eq_nan h
  have ha : 'a' ∈ (Numeral.splitSign plain).2.map Char.toLower := by
    rw [hname]
    decide
  obtain ⟨c, hc, hlower⟩ := List.mem_map.1 ha
  exact ht c (hsubset hc) hlower

/-! ### Signed numerals -/

theorem isSigned_of_isPlain {n : Text} (hn : Numeral.isPlain n = true) : IsSigned n := by
  intro c hc
  rw [isSignedChar, (isNumeralChar_of_isPlain hn).2 c hc, Bool.true_or]

theorem isSigned_signChars_append (negative : Bool) {n : Text} (hn : Numeral.isPlain n = true) :
    IsSigned (signChars negative ++ n) := by
  cases negative with
  | false => exact isSigned_of_isPlain hn
  | true => exact List.forall_mem_cons.2 ⟨rfl, isSigned_of_isPlain hn⟩

theorem readDecimal?_of_isPlain {n : Text} (hn : Numeral.isPlain n = true) :
    Numeral.readDecimal? n = some (.ofPlain n) := by
  obtain ⟨w, hne, hw, rfl | ⟨f, -, hf, rfl⟩⟩ := isPlain_iff.1 hn
  · have htake := List.takeWhile_eq_self_iff.2 hw
    have hdrop := List.dropWhile_eq_nil_iff.2 hw
    simp [Numeral.readDecimal?, Numeral.readExponent?, htake, hdrop, hne, ofPlain_digits hw]
  · have htake := List.takeWhile_eq_self_iff.2 hf
    have hdrop := List.dropWhile_eq_nil_iff.2 hf
    simp [Numeral.readDecimal?, Numeral.readExponent?, takeWhile_digits hw, dropWhile_digits hw,
      htake, hdrop, hne, ofPlain_point hw hf]

theorem splitSign_signChars_append (negative : Bool) {n : Text} (hn : Numeral.isPlain n = true) :
    Numeral.splitSign (signChars negative ++ n) = (negative, n) := by
  cases negative with
  | true => rfl
  | false =>
    obtain ⟨-, hchars⟩ := isNumeralChar_of_isPlain hn
    show Numeral.splitSign n = _
    unfold Numeral.splitSign
    split
    · exact absurd (hchars '-' (List.mem_cons_self ..)) (by decide)
    · exact absurd (hchars '+' (List.mem_cons_self ..)) (by decide)
    · rfl

/-- A plain numeral after a sign is read as the number of that sign. -/
theorem ofText?_signChars_append (negative : Bool) {n : Text} (hn : Numeral.isPlain n = true) :
    ofText? (signChars negative ++ n) = some (ofDecimal negative (.ofPlain n)) := by
  rw [ofText?_of_isSigned (isSigned_signChars_append negative hn),
    splitSign_signChars_append negative hn, readDecimal?_of_isPlain hn]
  rfl

/-! ### The text of a finite number -/

theorem textOfInt_eq (i : ℤ) : Text.ofInt i = signChars (decide (i < 0)) ++ ofNat i.natAbs := by
  cases i with
  | ofNat n => rfl
  | negSucc n =>
    rw [decide_eq_true (Int.negSucc_lt_zero n)]
    rfl

theorem natAbs_truncate (x : Binary64) : x.truncate.natAbs = x.magnitude / unit := by
  rw [truncate, Int.natAbs_tdiv, natAbs_units, Int.natAbs_natCast]
  rfl

theorem lt_overflowBound {n : ℕ} (hn : n ≤ 2 ^ 53) : n < overflowBound := by
  obtain ⟨r, h, hr, -⟩ := exists_ofInt hn
  have hlt := unitsOfRank_lt_overflowBound h
  rw [hr] at hlt
  exact Nat.lt_of_mul_lt_mul_right hlt

/-- A number with a fractional part has few digits before its point. -/
theorem scaled_le_of_not_isWhole {s : Bool} {r : ℕ} (h : r < ranks)
    (hw : ¬ unit ∣ unitsOfRank r) :
    (finite s r h).scaled 10 ≤ 2 ^ 52 * 10 ^ 10 := by
  have hlt : unitsOfRank r < 2 ^ 52 * unit := not_le.1 fun hle => hw (dvd_unitsOfRank dvd_rfl hle)
  refine (roundHalfEven_mem_Icc unit_pos (Nat.zero_mul _ ▸ Nat.zero_le _) ?_).2
  rw [Nat.mul_right_comm]
  exact Nat.mul_le_mul_right _ hlt.le

theorem toRat_of_places {d k m : ℕ} (hk : k ≤ 10) (hd : d * 10 ^ (10 - k) = m) :
    Decimal.toRat ⟨d, -(k : ℕ)⟩ = m / 10 ^ 10 := by
  have hpow : (10 : ℚ) ^ 10 = 10 ^ k * 10 ^ (10 - k) := by rw [← pow_add]; congr 1; omega
  rw [Decimal.toRat, ← hd, hpow, zpow_neg, zpow_natCast]
  push_cast
  field_simp

/-- **The text of a finite number is a plain numeral that is not too large, perhaps after a
sign.** -/
theorem exists_literal_resultText {x : Binary64} (hx : x.isFinite = true) :
    ∃ negative n, resultText x = signChars negative ++ n ∧ Numeral.isPlain n = true ∧
      (Decimal.ofPlain n).toRat < overflowBound := by
  rcases x with _ | _ | ⟨s, r, h⟩
  · cases hx
  · cases hx
  · by_cases hw : unit ∣ unitsOfRank r
    -- a whole number is written in full
    · have htext : resultText (finite s r h) = Text.ofInt (finite s r h).truncate := by
        rw [resultText, if_pos ((isWhole_finite s h).2 hw)]
      have hlt : unitsOfRank r / unit < overflowBound :=
        (Nat.div_lt_iff_lt_mul unit_pos).2 (unitsOfRank_lt_overflowBound h)
      rw [textOfInt_eq, natAbs_truncate] at htext
      refine ⟨_, _, htext, isPlain_iff.2 ⟨_, ofNat_ne_nil _, isDigits_ofNat _, Or.inl rfl⟩, ?_⟩
      rw [ofPlain_digits (isDigits_ofNat _), value_ofNat, Decimal.toRat, zpow_zero, mul_one]
      exact_mod_cast hlt
    -- any other is far below the bound
    · have hscaled := scaled_le_of_not_isWhole (s := s) h hw
      obtain ⟨n, d, k, htext, hplain, hread, hk, hd⟩ :=
        exists_numeral_of_places (signText (finite s r h)) ((finite s r h).scaled 10)
      refine ⟨s, n, ?_, hplain, ?_⟩
      · rw [resultText, if_neg (by rwa [isWhole_finite]), if_pos hx]
        exact htext
      · rw [hread, toRat_of_places hk hd, div_lt_iff₀ (by norm_num)]
        have hbound := Nat.mul_lt_mul_of_pos_right (lt_overflowBound (n := 2 ^ 52) (by decide))
          (show 0 < 10 ^ 10 by decide)
        exact_mod_cast hscaled.trans_lt hbound

/-- A plain numeral, perhaps after a sign, that is read as a finite number. -/
def IsFiniteLiteral (t : Text) : Prop :=
  (∃ negative n, t = signChars negative ++ n ∧ Numeral.isPlain n = true) ∧
    ∃ v, ofText? t = some v ∧ v.isFinite = true

/-- The names of what is not finite share a letter. -/
theorem mem_resultText_of_not_isFinite {x : Binary64} (hx : ¬ x.isFinite = true) :
    'n' ∈ resultText x := by
  rcases x with _ | s | _
  · decide
  · cases s <;> decide
  · exact absurd rfl hx

theorem IsFiniteLiteral.isSigned {t : Text} (h : IsFiniteLiteral t) : IsSigned t := by
  obtain ⟨⟨negative, n, rfl, hn⟩, -⟩ := h
  exact isSigned_signChars_append negative hn

/-- **The text of a number is read as a finite number just if it is finite.** -/
theorem isFiniteLiteral_resultText_iff {x : Binary64} :
    IsFiniteLiteral (resultText x) ↔ x.isFinite = true := by
  constructor
  · intro h
    by_contra hx
    exact absurd (h.isSigned 'n' (mem_resultText_of_not_isFinite hx)) (by decide)
  · intro hx
    obtain ⟨negative, n, htext, hn, hlt⟩ := exists_literal_resultText hx
    refine ⟨⟨negative, n, htext, hn⟩, _, ?_, (isFinite_ofDecimal_iff negative _).2 hlt⟩
    rw [htext, ofText?_signChars_append negative hn]

end SpokenCalculator
