/-!
# Double precision numbers

A number of the binary interchange format with 53 significant digits.  The finite magnitudes form
an increasing sequence, and a magnitude is kept as its place in that sequence, its *rank*: ranks
up to `2 ^ 53` are the multiples of the least magnitude `2 ^ -1074`, and every further block of
`2 ^ 52` ranks doubles the step.

* `Binary64`: a number (a signed rank, an infinity, or not a number);
* `unitsOfRank`, `units`: its exact value as a whole number of units of `2 ^ -1074`;
* `ofBits`, `toBits`: the interchange encoding;
* `lt`: the order in which not-a-number is below nothing.
-/

namespace SpokenCalculator

/-- The number of ranks between which the step stays the same. -/
def Binary64.binade : Nat := Nat.pow 2 52

/-- The number of finite magnitudes; the rank of an infinite one. -/
def Binary64.ranks : Nat := 2047 * binade

/-- A double precision number. -/
inductive Binary64
  | nan
  | infinite (negative : Bool)
  | finite (negative : Bool) (rank : Nat) (rank_lt : rank < Binary64.ranks)
  deriving DecidableEq

namespace Binary64

/-- The number of units in one. -/
@[irreducible]
def unit : Nat := Nat.pow 2 1074

/-- The exponent of the step that follows a rank, in units. -/
def exponentOfRank (r : Nat) : Nat := r / binade - 1

/-- A magnitude as a number of units. -/
def unitsOfRank (r : Nat) : Nat :=
  if r < binade then r else (binade + r % binade) * Nat.pow 2 (exponentOfRank r)

/-- The value of a finite number as a number of units. -/
def units : Binary64 → Int
  | .finite false r _ => unitsOfRank r
  | .finite true r _ => -unitsOfRank r
  | _ => 0

/-- The magnitude of a finite number as a number of units. -/
def magnitude : Binary64 → Nat
  | .finite _ r _ => unitsOfRank r
  | _ => 0

/-- The sign, also of a zero. -/
def isNegative : Binary64 → Bool
  | .nan => false
  | .infinite s => s
  | .finite s _ _ => s

def isFinite : Binary64 → Bool
  | .finite _ _ _ => true
  | _ => false

/-- A zero of a given sign. -/
def signedZero (negative : Bool) : Binary64 := .finite negative 0 (by decide)

/-- Zero without a sign. -/
def zero : Binary64 := signedZero false

/-- Either of the two zeros. -/
def isZero : Binary64 → Bool
  | .finite _ r _ => r == 0
  | _ => false

/-- The opposite number. -/
def neg : Binary64 → Binary64
  | .nan => .nan
  | .infinite s => .infinite !s
  | .finite s r h => .finite (!s) r h

@[simp] theorem neg_neg (x : Binary64) : x.neg.neg = x := by cases x <;> simp [neg]

theorem units_eq (s : Bool) (r : Nat) (h : r < ranks) :
    (finite s r h).units = if s then -(unitsOfRank r : Int) else unitsOfRank r := by
  cases s <;> rfl

@[simp] theorem units_neg (x : Binary64) : x.neg.units = -x.units := by
  rcases x with _ | _ | ⟨s, r, h⟩ <;> try rfl
  cases s <;> simp [neg, units]

theorem natAbs_units (x : Binary64) : x.units.natAbs = x.magnitude := by
  rcases x with _ | _ | ⟨s, r, h⟩ <;> try rfl
  cases s <;> simp [units, magnitude]

@[simp] theorem isZero_signedZero (s : Bool) : (signedZero s).isZero = true := rfl

@[simp] theorem isFinite_signedZero (s : Bool) : (signedZero s).isFinite = true := rfl

/-! ### Order -/

/-- The strict order of values; the two zeros are equal, and not-a-number is comparable to
nothing. -/
def lt : Binary64 → Binary64 → Bool
  | .nan, _ => false
  | _, .nan => false
  | .infinite s, .infinite t => s && !t
  | .infinite s, .finite _ _ _ => s
  | .finite _ _ _, .infinite t => !t
  | x, y => x.units < y.units

/-! ### The interchange encoding -/

/-- The place of the sign in an encoding, above that of every magnitude. -/
def signPlace : Nat := Nat.pow 2 63

/-- The sign, then eleven digits of the exponent and 52 of the fraction: the rank of a finite
magnitude, and `ranks` for an infinite one. -/
def toBits : Binary64 → Nat
  | .nan => ranks + binade / 2
  | .infinite s => s.toNat * signPlace + ranks
  | .finite s r _ => s.toNat * signPlace + r

/-- The number of a given sign and rank; beyond the rank of an infinity there is none. -/
def ofRank (negative : Bool) (r : Nat) : Binary64 :=
  if h : r < ranks then .finite negative r h
  else if r = ranks then .infinite negative
  else .nan

/-- The number with a given encoding of 64 bits. -/
def ofBits (code : Nat) : Binary64 :=
  ofRank (code / signPlace % 2 == 1) (code % signPlace)

@[simp] theorem ofRank_of_lt (s : Bool) {r : Nat} (h : r < ranks) : ofRank s r = .finite s r h :=
  dif_pos h

theorem ofBits_sign_rank (s : Bool) {r : Nat} (h : r < signPlace) :
    ofBits (s.toNat * signPlace + r) = ofRank s r := by
  have hs : (s.toNat * signPlace + r) / signPlace % 2 = s.toNat := by
    rw [Nat.add_comm, Nat.add_mul_div_right _ _ (Nat.zero_lt_of_lt h), Nat.div_eq_of_lt h]
    cases s <;> rfl
  have hm : (s.toNat * signPlace + r) % signPlace = r := by
    rw [Nat.add_comm, Nat.add_mul_mod_self_right, Nat.mod_eq_of_lt h]
  rw [ofBits, hs, hm]
  cases s <;> rfl

/-- Every number is read back from its encoding. -/
theorem ofBits_toBits (x : Binary64) : ofBits x.toBits = x := by
  cases x with
  | nan => decide
  | infinite s => cases s <;> decide
  | finite s r h =>
    exact (ofBits_sign_rank s (Nat.lt_trans h (by decide))).trans (ofRank_of_lt s h)

end Binary64
end SpokenCalculator
