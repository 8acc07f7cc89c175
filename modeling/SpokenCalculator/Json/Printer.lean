import SpokenCalculator.Binary64.Printing
import SpokenCalculator.Json.Basic
import SpokenCalculator.Text.Quoted

/-!
# Values as text

* `Json.Style`: the words and quotes of a notation for values;
* `Json.inline`: a value on one line in a style, if it has a text;
* `Json.shown`, `Json.label`: a value as a message shows it, and in a place where a text stands for
  itself;
* `Json.indented`: a value as documents hold it, one item on a line.
-/

namespace SpokenCalculator

/-- Texts in order with a separator between each two. -/
def Text.join {α : Type} (separator : List α) : List (List α) → List α
  | [] => []
  | [t] => t
  | t :: rest => t ++ separator ++ join separator rest

theorem Text.join_cons_cons {α : Type} (separator t u : List α) (rest : List (List α)) :
    join separator (t :: u :: rest) = t ++ separator ++ join separator (u :: rest) := rfl

/-- A number in digits, in a style for those that are not whole. -/
def Number.text (style : Binary64.Style) : Number → Text
  | int i => Text.ofInt i
  | float x => style.text x

namespace Json

/-- The words and quotes of a notation for values. -/
structure Style (α : Type) where
  sign : Char → α
  absent : Text
  yes : Text
  no : Text
  numbers : Binary64.Style
  quote : Codes → List α

/-- The notation of documents. -/
def documentStyle : Style Code where
  sign := .char
  absent := "null".toList
  yes := "true".toList
  no := "false".toList
  numbers := { notANumber := "NaN".toList, infinity := "Infinity".toList }
  quote := Text.Quoted.document

/-- The notation of messages. -/
def messageStyle : Style Char where
  sign := id
  absent := "None".toList
  yes := "True".toList
  no := "False".toList
  numbers := { notANumber := "nan".toList, infinity := "inf".toList }
  quote := Text.Quoted.message

/-- A value that holds no others, in a style. -/
def Style.word {α : Type} (style : Style α) (t : Text) : List α := t.map style.sign

/-! ### On one line -/

section Inline

variable {α : Type} (style : Style α)

mutual

/-- A value on one line, if there is room for its lists and objects within one another. -/
def inline (room : Nat) : Json → Except TextError (List α)
  | .null => .ok (style.word style.absent)
  | .bool b => .ok (style.word (if b then style.yes else style.no))
  | .number n => if n.isLong then .error .longInteger else .ok (style.word (n.text style.numbers))
  | .string t => .ok (style.quote t)
  | .array items =>
    if room = 0 then .error .deep
    else (inlineItems (room - 1) items).map fun ts =>
      style.sign '[' :: Text.join (style.word ", ".toList) ts ++ [style.sign ']']
  | .object fields =>
    if room = 0 then .error .deep
    else (inlineFields (room - 1) fields).map fun ts =>
      style.sign '\x7b' :: Text.join (style.word ", ".toList) ts ++ [style.sign '\x7d']

def inlineItems (room : Nat) : List Json → Except TextError (List (List α))
  | [] => .ok []
  | v :: rest => do
    let t ← inline room v
    return t :: (← inlineItems room rest)

def inlineFields (room : Nat) : List (Codes × Json) → Except TextError (List (List α))
  | [] => .ok []
  | (k, v) :: rest => do
    let t ← inline room v
    return (style.quote k ++ style.word ": ".toList ++ t) :: (← inlineFields room rest)

end

end Inline

/-- A value as a document holds it on one line. -/
def compact (room : Nat) (v : Json) : Except TextError Codes := v.inline documentStyle room

/-- A value as a message shows it. -/
def shown (room : Nat) (v : Json) : Except TextError Text := v.inline messageStyle room

/-- A value where a text stands for itself. -/
def label (room : Nat) : Json → Except TextError Codes
  | .string t => .ok t
  | v => (v.shown room).map Text.codes

/-! ### One item on a line -/

/-- A new line at a depth of nesting. -/
def newLine (depth : Nat) : Text := '\n' :: List.replicate (2 * depth) ' '

/-- Items between brackets, each on a line of its own; none leaves the brackets together. -/
def block (first last : Char) (depth : Nat) (items : List Codes) : Codes :=
  if items.isEmpty then Text.codes [first, last]
  else
    Text.codes (first :: newLine (depth + 1)) ++
      Text.join (Text.codes (',' :: newLine (depth + 1))) items ++
        Text.codes (newLine depth ++ [last])

mutual

/-- A value at a depth of nesting, one item on a line. -/
def indentedAt (depth : Nat) : Json → Codes
  | .array items => block '[' ']' depth (indentedItems (depth + 1) items)
  | .object fields => block '\x7b' '\x7d' depth (indentedFields (depth + 1) fields)
  | .null => documentStyle.absent.codes
  | .bool b => (if b then documentStyle.yes else documentStyle.no).codes
  | .number n => (n.text documentStyle.numbers).codes
  | .string t => documentStyle.quote t

def indentedItems (depth : Nat) : List Json → List Codes
  | [] => []
  | v :: rest => indentedAt depth v :: indentedItems depth rest

def indentedFields (depth : Nat) : List (Codes × Json) → List Codes
  | [] => []
  | (k, v) :: rest =>
    (documentStyle.quote k ++ Text.codes ": ".toList ++ indentedAt depth v) ::
      indentedFields depth rest

end

/-- A value as a document, one item on a line. -/
def indented (v : Json) : Codes := v.indentedAt 0

end Json
end SpokenCalculator
