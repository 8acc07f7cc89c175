import SpokenCalculator.Json.Printer

/-!
# Writing of documents

A value is written piece by piece.  A piece that cannot be encoded, an integer without a text or a
value nested too deeply break it off, and what was written before stays.

* `Json.Piece`, `Json.pieces`: what is written at once, and the pieces of a value;
* `Json.BreakOff`: why a document breaks off;
* `Json.written`, `Json.write`: the text of pieces, and of a value, as far as it comes.
-/

namespace SpokenCalculator.Json

/-- What is written at once, or that it cannot be made. -/
inductive Piece
  | text (t : Codes)
  | stop (e : TextError)
  deriving DecidableEq

/-- The pieces of a value that holds no others, in one with what stands before it. -/
def scalarPiece (before : Codes) (t : Codes) : List Piece := [.text (before ++ t)]

mutual

/-- The pieces of a value at a depth of nesting, if there is room for its lists and objects within
one another.  What stands before it is in one piece with a value that holds no others. -/
def pieces (room depth : Nat) (before : Codes) : Json → List Piece
  | .null => scalarPiece before documentStyle.absent.codes
  | .bool b => scalarPiece before (if b then documentStyle.yes else documentStyle.no).codes
  | .number n =>
    if n.isLong then [.stop .longInteger]
    else scalarPiece before (n.text documentStyle.numbers).codes
  | .string t => scalarPiece before (documentStyle.quote t)
  | .array items =>
    .text before ::
      if room = 0 then [.stop .deep]
      else if items.isEmpty then [.text (Text.codes ['[', ']'])]
      else
        itemPieces (room - 1) (depth + 1) (Text.codes ('[' :: newLine (depth + 1))) items ++
          [.text (newLine depth).codes, .text (Text.codes [']'])]
  | .object fields =>
    .text before ::
      if room = 0 then [.stop .deep]
      else if fields.isEmpty then [.text (Text.codes ['\x7b', '\x7d'])]
      else
        .text (Text.codes ['\x7b']) ::
          fieldPieces (room - 1) (depth + 1) (newLine (depth + 1)).codes fields ++
            [.text (newLine depth).codes, .text (Text.codes ['\x7d'])]

/-- The pieces of items with what stands before the first. -/
def itemPieces (room depth : Nat) (before : Codes) : List Json → List Piece
  | [] => []
  | v :: rest =>
    pieces room depth before v ++
      itemPieces room depth (Text.codes (',' :: newLine depth)) rest

/-- The pieces of fields with what stands before the first. -/
def fieldPieces (room depth : Nat) (before : Codes) : List (Codes × Json) → List Piece
  | [] => []
  | (k, v) :: rest =>
    .text before :: .text (documentStyle.quote k) :: .text (Text.codes ": ".toList) ::
      pieces room depth [] v ++
        fieldPieces room depth (Text.codes (',' :: newLine depth)) rest

end

/-- Why a document breaks off: a piece with a lone half cannot be encoded, or cannot be made. -/
inductive BreakOff
  | half (piece : Codes)
  | piece (e : TextError)
  deriving DecidableEq

/-- The text of pieces up to the first that cannot be written, and why it cannot. -/
def written : List Piece → Text × Option BreakOff
  | [] => ([], none)
  | .stop e :: _ => ([], some (.piece e))
  | .text t :: rest =>
    match t.text? with
    | none => ([], some (.half t))
    | some u =>
      let (text, failure) := written rest
      (u ++ text, failure)

/-- The text of a value in a document as far as it can be written, and why it breaks off if it
does. -/
def write (room : Nat) (v : Json) : Text × Option BreakOff := written (v.pieces room 0 [])

/-! ### In words -/

/-- That a value has no text, in words. -/
def longIntegerMessage : Text :=
  ("Exceeds the limit (4300 digits) for integer string conversion; " ++
    "use sys.set_int_max_str_digits() to increase the limit").toList

/-- Why a value cannot be shown, in words. -/
def TextError.message : TextError → Text
  | .longInteger => longIntegerMessage
  | .deep => "maximum recursion depth exceeded while getting the repr of an object".toList

/-- Where the first lone halves are in a piece, in words. -/
def halfMessage (piece : Codes) : Text :=
  let place := (piece.takeWhile fun x => x.char?.isSome).length
  match (piece.drop place).takeWhile fun x => x.char?.isNone with
  | [x] =>
    "'utf-8' codec can't encode character '".toList ++ Text.Quoted.codeEscape x.toNat ++
      "' in position ".toList ++ Text.ofNat place ++ ": surrogates not allowed".toList
  | halves =>
    "'utf-8' codec can't encode characters in position ".toList ++ Text.ofNat place ++ ['-'] ++
      Text.ofNat (place + halves.length - 1) ++ ": surrogates not allowed".toList

/-- Why a document breaks off, in words. -/
def BreakOff.message : BreakOff → Text
  | .half t => halfMessage t
  | .piece .longInteger => longIntegerMessage
  | .piece .deep => "maximum recursion depth exceeded while calling a Python object".toList

end SpokenCalculator.Json
