import SpokenCalculator.Binary64.Arithmetic
import SpokenCalculator.Text.Codes

/-!
# Values of documents

* `Number`: an integer of any size or a double precision number, which stay apart;
* `Json`: the values of a document, whose texts may hold lone halves of characters.  An object keeps
  its fields in order of first appearance;
* `Fields.get?`, `Fields.put`, `Fields.remove`: access to the fields of an object;
* `Json.isTrue`: the truth of a value where a switch is expected;
* `Json.kind`: the name of a kind of value;
* `Json.same`: whether two values are the same;
* `Number.isLong`, `Json.TextError`: why a value may have no text.
-/

namespace SpokenCalculator

/-- An integer of any size or a double precision number. -/
inductive Number
  | int (i : Int)
  | float (x : Binary64)
  deriving DecidableEq

/-- A value of a document. -/
inductive Json
  | null
  | bool (b : Bool)
  | number (n : Number)
  | string (t : Codes)
  | array (items : List Json)
  | object (fields : List (Codes × Json))

/-- The fields of an object, in order of first appearance. -/
abbrev Fields := List (Codes × Json)

namespace Fields

/-- The value of a key. -/
def get? (key : Codes) : Fields → Option Json
  | [] => none
  | (k, v) :: rest => if k = key then some v else get? key rest

/-- The fields with a value for a key: a present key keeps its place, a new one goes to the
end. -/
def put (key : Codes) (value : Json) : Fields → Fields
  | [] => [(key, value)]
  | (k, v) :: rest => if k = key then (key, value) :: rest else (k, v) :: put key value rest

/-- The fields without a key. -/
def remove (key : Codes) (fields : Fields) : Fields := fields.filter (fun f => f.1 != key)

/-- The keys in order. -/
def keys (fields : Fields) : List Codes := fields.map Prod.fst

@[simp] theorem get?_put_self (key : Codes) (value : Json) (fields : Fields) :
    (fields.put key value).get? key = some value := by
  induction fields with
  | nil => simp [put, get?]
  | cons f rest ih =>
    by_cases h : f.1 = key <;> simp [put, get?, h, ih]

theorem get?_put_of_ne {key other : Codes} (h : other ≠ key) (value : Json) (fields : Fields) :
    (fields.put key value).get? other = fields.get? other := by
  induction fields with
  | nil => simp [put, get?, h.symm]
  | cons f rest ih =>
    by_cases hk : f.1 = key
    · have : ¬ f.1 = other := fun e => h (e.symm.trans hk)
      simp [put, get?, hk, h.symm]
    · by_cases ho : f.1 = other <;> simp [put, get?, hk, ho, ih, h]

/-- A present key keeps its place, and a new one goes to the end. -/
theorem keys_put (key : Codes) (value : Json) (fields : Fields) :
    (fields.put key value).keys =
      if key ∈ fields.keys then fields.keys else fields.keys ++ [key] := by
  induction fields with
  | nil => simp [put, keys]
  | cons f rest ih =>
    by_cases h : f.1 = key
    · simp [put, keys, h]
    · simp only [put, h, if_false, keys, List.map_cons, List.mem_cons]
      rw [show (put key value rest).map Prod.fst = _ from ih]
      have : ¬ key = f.1 := fun e => h e.symm
      by_cases hm : key ∈ rest.map Prod.fst <;> simp [keys, hm, this]

end Fields

namespace Number

/-- A number other than zero; not-a-number is one. -/
def isNonzero : Number → Bool
  | int i => i != 0
  | float x => !x.isZero

/-- The most digits of an integer in a text. -/
def maxDigits : Nat := 4300

/-- An integer with too many digits for a text. -/
def isLong : Number → Bool
  | int i => decide (Nat.pow 10 maxDigits ≤ i.natAbs)
  | float _ => false

end Number

namespace Json

/-- Why a value has no text: an integer has too many digits, or lists and objects are too deep
within one another. -/
inductive TextError
  | longInteger
  | deep
  deriving DecidableEq

/-- The truth of a value where a switch is expected: zero, what is empty and the absent value are
false. -/
def isTrue : Json → Bool
  | null => false
  | bool b => b
  | number n => n.isNonzero
  | string t => !t.isEmpty
  | array items => !items.isEmpty
  | object fields => !fields.isEmpty

/-- The name of the kind of a value. -/
def kind : Json → Text
  | null => "NoneType".toList
  | bool _ => "bool".toList
  | number (.int _) => "int".toList
  | number (.float _) => "float".toList
  | string _ => "str".toList
  | array _ => "list".toList
  | object _ => "dict".toList

mutual

/-- Two values are the same. -/
def same : Json → Json → Bool
  | null, null => true
  | bool a, bool b => decide (a = b)
  | number m, number n => decide (m = n)
  | string s, string t => decide (s = t)
  | array a, array b => sameItems a b
  | object a, object b => sameFields a b
  | _, _ => false

/-- Two lists hold the same values. -/
def sameItems : List Json → List Json → Bool
  | [], [] => true
  | v :: a, w :: b => same v w && sameItems a b
  | _, _ => false

/-- Two objects hold the same fields. -/
def sameFields : List (Codes × Json) → List (Codes × Json) → Bool
  | [], [] => true
  | (k, v) :: a, (l, w) :: b => decide (k = l) && same v w && sameFields a b
  | _, _ => false

end

end Json
end SpokenCalculator
