import SpokenCalculator.Proofs.Binary64.Whole
import SpokenCalculator.Proofs.Preferences.Store
import SpokenCalculator.Settings

/-!
# The speed of speech

A speed that is set or loaded is moved to the nearest bound.  This brings every number into the
bounds from a half to two, the infinite ones as well, but not-a-number is on no side of a bound and
stays as it is.  Within the bounds there is a whole number of words per minute.

* `Settings.load_cases`, `Settings.speed_load`: the speed that is loaded;
* `Binary64.IsSpeed`, `isSpeed_clamp`: the numbers within the bounds, and what is moved into them;
* `exists_speechRate`: the words per minute of such a speed;
* `SpeedCall`, `Settings.afterCall`: what is asked about the speed, and what comes of it;
* `hasSpeed_iff_of_calls`: when the speed stays within its bounds.
-/

namespace SpokenCalculator

/-! ### Loading -/

/-- A number of double precision, or an integer that is rounded to a finite one. -/
def Number.InRange : Number → Prop
  | int i => i.natAbs < Binary64.overflowBound
  | float _ => True

theorem Number.exists_toFloat {n : Number} (h : n.InRange) : ∃ x, n.toFloat = .ok x := by
  cases n with
  | int i =>
    rw [toFloat, Binary64.ofInt?, if_pos (Binary64.isFinite_ofInt_iff.2 h)]
    exact ⟨_, rfl⟩
  | float x => exact ⟨x, rfl⟩

theorem Number.toFloat_of_not_inRange {n : Number} (h : ¬ n.InRange) :
    n.toFloat = .error .tooLarge := by
  cases n with
  | int i =>
    rw [toFloat, Binary64.ofInt?, if_neg (mt Binary64.isFinite_ofInt_iff.1 h)]
    rfl
  | float x => exact absurd trivial h

/-- A value is too large for a speed only if it is a number. -/
theorem Json.toSpeed_eq_tooLarge_iff {v : Json} :
    v.toSpeed = .error .tooLarge ↔ ∃ n, v = .number n ∧ ¬ n.InRange := by
  constructor
  · intro h
    cases v with
    | number n =>
      refine ⟨n, rfl, fun hn => ?_⟩
      obtain ⟨x, hx⟩ := n.exists_toFloat hn
      rw [toSpeed, hx] at h
      cases h
    | string t =>
      rw [toSpeed] at h
      rcases hx : t.text?.bind Binary64.ofText? with - | x <;> rw [hx] at h <;> cases h
    | _ => cases h
  · rintro ⟨n, rfl, hn⟩
    exact Number.toFloat_of_not_inRange hn

/-- The stored speed, or the given one where none is stored. -/
def Settings.speedValue (base : Settings) (values : Fields) : Json :=
  (values.get? speedKey).getD (.number base.speed)

/-- The speed of a start: the stored one within its bounds, or the given one where that cannot be
used. -/
def Settings.startSpeed (base : Settings) (values : Fields) : Number :=
  match (base.speedValue values).toSpeed with
  | .ok x => .float (clamp x)
  | .error _ => base.speed

/-- Settings are loaded unless the speed is too large. -/
theorem Settings.load_cases (base : Settings) (values : Fields) :
    (base.speedValue values).toSpeed = .error .tooLarge ∧
        base.load values = (base.withSwitches values, .error .tooLarge) ∨
      (base.speedValue values).toSpeed ≠ .error .tooLarge ∧
        ∃ warnings, base.load values =
          ({ base.withSwitches values with speed := base.startSpeed values }, .ok warnings) := by
  have hvalue : (values.get? speedKey).getD (.number (base.withSwitches values).speed) =
      base.speedValue values := rfl
  rw [load, startSpeed, hvalue, setSpeed]
  rcases (base.speedValue values).toSpeed with e | x
  · cases e with
    | tooLarge => exact Or.inl ⟨rfl, rfl⟩
    | _ => exact Or.inr ⟨by simp, _, rfl⟩
  · exact Or.inr ⟨by simp, _, rfl⟩

theorem Settings.speed_load (base : Settings) (values : Fields) :
    (base.load values).1.speed = base.startSpeed values := by
  rcases base.load_cases values with ⟨hlarge, hload⟩ | ⟨-, warnings, hload⟩
  · rw [hload, startSpeed, hlarge]
    rfl
  · rw [hload]

/-! ### The bounds -/

namespace Binary64

/-- A number from a half to two. -/
structure IsSpeed (x : Binary64) : Prop where
  isFinite : x.isFinite = true
  ge : (unit : ℤ) ≤ 2 * x.units
  le : x.units ≤ 2 * (unit : ℤ)

theorem lt_of_isFinite {x y : Binary64} (hx : x.isFinite = true) (hy : y.isFinite = true) :
    x.lt y = decide (x.units < y.units) := by
  cases x with
  | finite s r h =>
    cases y with
    | finite t q k => rfl
    | _ => cases hy
  | _ => cases hx

theorem lt_infinite_of_isFinite {x : Binary64} (hx : x.isFinite = true) (s : Bool) :
    (infinite s).lt x = s ∧ x.lt (infinite s) = !s := by
  cases x with
  | finite t r h => exact ⟨rfl, rfl⟩
  | _ => cases hx

end Binary64

namespace Settings
open Binary64

theorem isInt_maxSpeed : maxSpeed.IsInt 2 := isInt_ofInt (by decide)

theorem two_mul_units_minSpeed : minSpeed.isFinite = true ∧ 2 * minSpeed.units = unit := by
  obtain ⟨hrank, hmin⟩ : ∃ h : 1021 * binade + 2 ^ 52 < ranks,
      minSpeed = .finite false (1021 * binade + 2 ^ 52) h :=
    ⟨by decide, by decide +kernel⟩
  have hunits : ∀ k, 53 + k = 1074 → 2 * unitsOfRank (k * binade + 2 ^ 52) = unit := by
    intro k hk
    rw [unitsOfRank_grid (by decide) (Or.inr le_rfl), unit_eq, ← hk, Nat.pow_add,
      ← Nat.mul_assoc]
    norm_num
  have hhalf := hunits 1021 rfl
  rw [hmin]
  generalize 1021 * binade + 2 ^ 52 = r at hhalf hrank
  refine ⟨rfl, ?_⟩
  rw [units_eq, if_neg Bool.false_ne_true]
  exact_mod_cast hhalf

theorem clamp_nan : clamp .nan = .nan := by decide +kernel

theorem isSpeed_minSpeed : minSpeed.IsSpeed := by
  obtain ⟨hfinite, hmin⟩ := two_mul_units_minSpeed
  have hunit : (0 : ℤ) < unit := by exact_mod_cast unit_pos
  exact ⟨hfinite, hmin.ge, by omega⟩

theorem isSpeed_maxSpeed : maxSpeed.IsSpeed := by
  have hmax := isInt_maxSpeed.units
  have hunit : (0 : ℤ) < unit := by exact_mod_cast unit_pos
  exact ⟨isInt_maxSpeed.isFinite, by omega, hmax.le⟩

/-- No bound is beyond the other. -/
theorem clamp_of_lt {x : Binary64} (h : x.lt minSpeed = true) : clamp x = minSpeed := by
  have hbounds : maxSpeed.lt minSpeed = false := by decide +kernel
  simp only [clamp, h, if_true, hbounds, Bool.false_eq_true, if_false]

theorem clamp_of_not_lt {x : Binary64} (h : x.lt minSpeed = false) :
    clamp x = if maxSpeed.lt x then maxSpeed else x := by
  simp only [clamp, h, Bool.false_eq_true, if_false]

/-- **Whatever is a number is moved into the bounds.** -/
theorem isSpeed_clamp {x : Binary64} (hx : x ≠ .nan) : (clamp x).IsSpeed := by
  cases hbelow : x.lt minSpeed with
  | true =>
    rw [clamp_of_lt hbelow]
    exact isSpeed_minSpeed
  | false =>
    rw [clamp_of_not_lt hbelow]
    split_ifs with habove
    · exact isSpeed_maxSpeed
    · -- what is on neither side of the bounds is finite, and between them
      obtain ⟨hfmin, hmin⟩ := two_mul_units_minSpeed
      have hfmax := isInt_maxSpeed.isFinite
      have hmax := isInt_maxSpeed.units
      cases x with
      | nan => exact absurd rfl hx
      | infinite s =>
        rw [(lt_infinite_of_isFinite hfmin s).1] at hbelow
        rw [(lt_infinite_of_isFinite hfmax s).2, hbelow] at habove
        exact absurd rfl habove
      | finite s r h =>
        rw [lt_of_isFinite rfl hfmin, decide_eq_false_iff_not] at hbelow
        rw [lt_of_isFinite hfmax rfl, decide_eq_true_eq] at habove
        exact ⟨rfl, by omega, by omega⟩

end Settings

/-! ### Words per minute -/

/-- A number within the bounds is positive. -/
theorem Binary64.IsSpeed.exists_rank {x : Binary64} (hx : x.IsSpeed) :
    ∃ r, ∃ h : r < ranks, x = .finite false r h ∧ unit ≤ 2 * unitsOfRank r ∧
      unitsOfRank r ≤ 2 * unit := by
  obtain ⟨hfinite, hge, hle⟩ := hx
  have hunit := unit_pos
  cases x with
  | finite s r h =>
    rw [units_eq] at hge hle
    cases s with
    | false =>
      rw [if_neg Bool.false_ne_true] at hge hle
      exact ⟨r, h, rfl, by exact_mod_cast hge, by exact_mod_cast hle⟩
    | true =>
      rw [if_pos rfl] at hge
      omega
  | _ => cases hfinite

namespace Settings
open Binary64

/-- The speed is a number from a half to two. -/
def HasSpeed (s : Settings) : Prop := ∃ x : Binary64, s.speed = .float x ∧ x.IsSpeed

theorem hasSpeed_initial : initial.HasSpeed := by
  have hone : (Binary64.ofInt 1).IsInt 1 := isInt_ofInt (by decide)
  have hunit : (0 : ℤ) < unit := by exact_mod_cast unit_pos
  have hunits := hone.units
  exact ⟨_, rfl, hone.isFinite, by omega, by omega⟩

/-- The whole number of words for a product that is rounded to a number between whole numbers. -/
theorem exists_wholeRate {n a b : ℕ} (hb : b ≤ 2 ^ 53) (ha : a * unit * unit ≤ n)
    (hn : n ≤ b * unit * unit) :
    ∃ rate, wholeRate (ofUnits false n unit) = .ok rate ∧ (a : ℤ) ≤ rate ∧ rate ≤ b := by
  obtain ⟨r, hr, hrounded, hlow, hhigh⟩ := exists_ofUnits_mem_Icc false unit_pos hb ha hn
  have htruncate : (Binary64.finite false r hr).truncate = (unitsOfRank r / unit : ℕ) := rfl
  refine ⟨_, by rw [hrounded]; rfl, ?_, ?_⟩
  · rw [htruncate, Int.ofNat_le]
    exact (Nat.le_div_iff_mul_le unit_pos).2 hlow
  · rw [htruncate, Int.ofNat_le]
    exact Nat.div_le_of_le_mul (by rwa [Nat.mul_comm])

theorem toFloat_int {i : ℤ} {x : Binary64} (h : ofInt i = x) (hx : x.isFinite = true) :
    (Number.int i).toFloat = .ok x := by
  rw [Number.toFloat, ofInt?, h, if_pos hx]
  rfl

theorem speechRate_of_toFloat {s : Settings} {rate : ℤ} {x y : Binary64}
    (hbase : s.baseRate = .int rate) (hspeed : s.speed = .float x)
    (hy : (Number.int rate).toFloat = .ok y) : s.speechRate = wholeRate (y * x) := by
  rw [speechRate, hbase, hspeed]
  show (Number.int rate).toFloat.bind _ = _
  rw [hy]
  rfl

/-- **At a speed within the bounds there are from half to twice as many words per minute as at the
speed one.** -/
theorem HasSpeed.exists_speechRate {s : Settings} (hs : s.HasSpeed)
    (hbase : s.baseRate = .int 150) :
    ∃ rate, s.speechRate = .ok rate ∧ 75 ≤ rate ∧ rate ≤ 300 := by
  obtain ⟨x, hspeed, hx⟩ := hs
  obtain ⟨r, hr, rfl, hge, hle⟩ := hx.exists_rank
  obtain ⟨q, hq, hunits, hofInt⟩ := exists_ofInt (n := 150) (by decide)
  rw [speechRate_of_toFloat hbase hspeed (toFloat_int hofInt rfl), mul_finite, Bool.xor_self]
  refine exists_wholeRate (a := 75) (b := 300) (by decide) ?_ ?_
  · calc 75 * unit * unit ≤ 75 * unit * (2 * unitsOfRank r) := Nat.mul_le_mul_left _ hge
      _ = unitsOfRank q * unitsOfRank r := by rw [hunits]; ring
  · calc unitsOfRank q * unitsOfRank r ≤ unitsOfRank q * (2 * unit) := Nat.mul_le_mul_left _ hle
      _ = 300 * unit * unit := by rw [hunits]; ring

/-! ### What is asked about the speed -/

end Settings

/-- What is asked about the speed: to set it to a value, or to load it from the preferences in a
document, which is read where there is some room. -/
inductive SpeedCall
  | set (value : Json)
  | load (room : ℕ) (path : Text) (document : Preferences.Document)

/-- The settings after a call.  One that fails leaves the speed as it is. -/
def Settings.afterCall (s : Settings) : SpeedCall → Settings
  | .set value => (s.setSpeed value).toOption.getD s
  | .load room path document =>
    match Preferences.Store.load room path document with
    | .ok (store, _) => (s.load store.values).1
    | .error _ => s

/-- The value that a call gives to the speed, if it gives one. -/
def SpeedCall.value? : SpeedCall → Option Json
  | .set value => some value
  | .load room _ document => (document.fields room).get? Settings.speedKey

/-- A call gives not-a-number to the speed. -/
def SpeedCall.GivesNaN (c : SpeedCall) : Prop := ∃ v, c.value? = some v ∧ v.toSpeed = .ok .nan

namespace Settings
open Binary64

variable {s : Settings} {c : SpeedCall}

/-- The speed after a value was given to it. -/
def speedAfter (s : Settings) (v : Json) : Number :=
  match v.toSpeed with
  | .ok x => .float (clamp x)
  | .error _ => s.speed

theorem speedAfter_of_nan {v : Json} (h : v.toSpeed = .ok .nan) (s : Settings) :
    s.speedAfter v = .float .nan := by
  rw [speedAfter, h]
  show Number.float (clamp .nan) = _
  rw [clamp_nan]

theorem HasSpeed.speedAfter (hs : s.HasSpeed) {v : Json} (hv : v.toSpeed ≠ .ok .nan) :
    ∃ x, s.speedAfter v = .float x ∧ x.IsSpeed := by
  rw [Settings.speedAfter]
  rcases hx : v.toSpeed with e | x
  · exact hs
  · exact ⟨clamp x, rfl, isSpeed_clamp fun hnan => hv (hnan ▸ hx)⟩

/-! ### One call -/

theorem speed_afterCall_set (s : Settings) (v : Json) :
    (s.afterCall (.set v)).speed = s.speedAfter v := by
  rw [afterCall, setSpeed, Settings.speedAfter]
  rcases v.toSpeed with e | x <;> rfl

theorem afterCall_load_of_isDeep {room : ℕ} {d : Preferences.Document} (h : d.IsDeep room)
    (s : Settings) (path : Text) : s.afterCall (.load room path d) = s := by
  rcases Preferences.valuesOf_cases room path d with ⟨-, e, hvalues⟩ | ⟨hshallow, -⟩
  · rw [afterCall, Preferences.Store.load, hvalues]
    rfl
  · exact absurd h hshallow

theorem afterCall_load {room : ℕ} {d : Preferences.Document} (h : ¬ d.IsDeep room) (s : Settings)
    (path : Text) : s.afterCall (.load room path d) = (s.load (d.fields room)).1 := by
  rcases Preferences.valuesOf_cases room path d with ⟨hdeep, -⟩ | ⟨-, warnings, hvalues⟩
  · exact absurd hdeep h
  · rw [afterCall, Preferences.Store.load, hvalues]
    rfl

theorem baseRate_afterCall (s : Settings) (c : SpeedCall) :
    (s.afterCall c).baseRate = s.baseRate := by
  cases c with
  | set v =>
    rw [afterCall, setSpeed]
    rcases v.toSpeed with e | x <;> rfl
  | load room path d =>
    by_cases hdeep : d.IsDeep room
    · rw [afterCall_load_of_isDeep hdeep]
    · rw [afterCall_load hdeep]
      rcases s.load_cases (d.fields room) with ⟨-, hload⟩ | ⟨-, warnings, hload⟩ <;>
        rw [hload] <;> rfl

/-- A call that does not give not-a-number to the speed leaves it within its bounds. -/
theorem HasSpeed.afterCall (hs : s.HasSpeed) (hc : ¬ c.GivesNaN) : (s.afterCall c).HasSpeed := by
  cases c with
  | set v =>
    rw [HasSpeed, speed_afterCall_set]
    exact hs.speedAfter fun hv => hc ⟨v, rfl, hv⟩
  | load room path d =>
    by_cases hdeep : d.IsDeep room
    · rw [afterCall_load_of_isDeep hdeep]
      exact hs
    · rw [HasSpeed, afterCall_load hdeep, speed_load]
      refine hs.speedAfter (v := s.speedValue (d.fields room)) ?_
      rw [speedValue]
      rcases hv : (d.fields room).get? speedKey with - | v
      -- the document has no speed, so the one that there is is set again
      · obtain ⟨x, hspeed, hx⟩ := hs
        rw [hspeed]
        rintro ⟨⟩
        exact absurd hx.isFinite Bool.false_ne_true
      · exact fun hnan => hc ⟨v, hv, hnan⟩

/-- A call that gives not-a-number to the speed has its way. -/
theorem speed_afterCall_of_givesNaN (hc : c.GivesNaN) (s : Settings) :
    (s.afterCall c).speed = .float .nan := by
  obtain ⟨v, hvalue, hv⟩ := hc
  cases c with
  | set w =>
    obtain rfl : w = v := Option.some.inj hvalue
    rw [speed_afterCall_set, speedAfter_of_nan hv]
  | load room path d =>
    have hdeep : ¬ d.IsDeep room := by
      intro hdeep
      rw [SpeedCall.value?, Preferences.Document.fields_of_isDeep hdeep] at hvalue
      cases hvalue
    have hstored : s.speedValue (d.fields room) = v := by
      rw [speedValue, show (d.fields room).get? speedKey = some v from hvalue]
      rfl
    rw [afterCall_load hdeep, speed_load, ← speedAfter_of_nan hv s, ← hstored]
    rfl

theorem not_hasSpeed_of_nan (h : s.speed = .float .nan) : ¬ s.HasSpeed := by
  rintro ⟨x, hspeed, hx⟩
  obtain rfl := Number.float.inj (h.symm.trans hspeed)
  exact absurd hx.isFinite Bool.false_ne_true

/-! ### Many calls -/

theorem baseRate_afterCalls (s : Settings) (calls : List SpeedCall) :
    (calls.foldl Settings.afterCall s).baseRate = s.baseRate := by
  induction calls generalizing s with
  | nil => rfl
  | cons c calls ih => rw [List.foldl_cons, ih, baseRate_afterCall]

theorem HasSpeed.afterCalls (hs : s.HasSpeed) {calls : List SpeedCall}
    (hcalls : ∀ c ∈ calls, ¬ c.GivesNaN) : (calls.foldl Settings.afterCall s).HasSpeed := by
  induction calls generalizing s with
  | nil => exact hs
  | cons c calls ih =>
    obtain ⟨hc, hcalls⟩ := List.forall_mem_cons.1 hcalls
    exact ih (hs.afterCall hc) hcalls

/-- **The speed stays within its bounds, and there is a number of words per minute, just if no call
gives it not-a-number.**  Which of the calls fail does not matter. -/
theorem hasSpeed_iff_of_calls (calls : List SpeedCall) :
    (∀ made, made <+: calls → (made.foldl Settings.afterCall .initial).HasSpeed ∧
        ∃ rate, (made.foldl Settings.afterCall .initial).speechRate = .ok rate ∧
          75 ≤ rate ∧ rate ≤ 300) ↔
      ∀ c ∈ calls, ¬ c.GivesNaN := by
  constructor
  · intro h c hc hnan
    obtain ⟨before, after, rfl⟩ := List.append_of_mem hc
    have hmade : before ++ [c] <+: before ++ c :: after :=
      ⟨after, by rw [List.append_assoc, List.singleton_append]⟩
    refine not_hasSpeed_of_nan ?_ (h _ hmade).1
    rw [List.foldl_append]
    exact speed_afterCall_of_givesNaN hnan _
  · intro h made hmade
    have hspeed := hasSpeed_initial.afterCalls fun c hc => h c (hmade.subset hc)
    exact ⟨hspeed, hspeed.exists_speechRate (baseRate_afterCalls .initial made)⟩

/-- The name of not-a-number is a text that denotes a number, and it is neither refused nor moved
into the bounds, so that there is no number of words per minute. -/
theorem not_hasSpeed_after_nan :
    initial.setSpeed (.string "nan".toList) = .ok { initial with speed := .float .nan } ∧
      ¬ ([SpeedCall.set (.string "nan".toList)].foldl Settings.afterCall .initial).HasSpeed ∧
      ([SpeedCall.set (.string "nan".toList)].foldl Settings.afterCall .initial).speechRate =
        .error .rateUndefined := by
  have hset : initial.setSpeed (.string "nan".toList) =
      .ok { initial with speed := .float .nan } := by decide +kernel
  have hafter : [SpeedCall.set (.string "nan".toList)].foldl Settings.afterCall .initial =
      { initial with speed := .float .nan } := by
    rw [List.foldl_cons, List.foldl_nil, afterCall, hset]
    rfl
  rw [hafter]
  exact ⟨hset, not_hasSpeed_of_nan rfl, by decide +kernel⟩

end Settings

end SpokenCalculator
