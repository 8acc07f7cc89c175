import SpokenCalculator.Text.Codes
import SpokenCalculator.Text.Numeral

/-!
# The console

* `Output`: a line, the bell, or the prompt, as they are printed;
* `Screen`: what was shown and notified last;
* `Screen.display`, `Screen.notify`, `historyLines`: the lines that are printed for it.
-/

namespace SpokenCalculator.Console

/-- What is printed.  Lone halves of characters are printed as they are. -/
inductive Output
  | line (t : Codes)
  | bell
  | prompt
  deriving DecidableEq

/-- What is printed, as characters. -/
def Output.text : Output → Codes
  | line t => t ++ Text.codes ['\n']
  | bell => Text.codes ['\x07']
  | prompt => Text.codes ['>', ' ']

/-- What was shown and notified last. -/
structure Screen where
  display : Text
  notice : Text
  deriving DecidableEq

/-- The screen before anything is typed. -/
def Screen.initial : Screen := ⟨['0'], []⟩

/-- The line for what is shown. -/
def displayLine (t : Text) : Text := "[ ".toList ++ t ++ " ]".toList

/-- The line for a notice. -/
def noticeLine (t : Text) : Text := "» ".toList ++ t

/-- Entries with their numbers, which are set to the right of two columns. -/
def numbered : Nat → List Codes → List Codes
  | _, [] => []
  | n, entry :: rest =>
    (Text.codes ((Text.ofNat n).leftpad 2 ' ' ++ ". ".toList) ++ entry) :: numbered (n + 1) rest

/-- The lines for a history, the most recent entry first. -/
def historyLines (entries : List Codes) : List Codes :=
  if entries.isEmpty then ["(historial vacío)".toList] else numbered 1 entries

end SpokenCalculator.Console
