import SpokenCalculator.Main
import SpokenCalculator.Session.Action
import SpokenCalculator.Proofs.Editor.Sign
import SpokenCalculator.Proofs.Editor.Grammar
import SpokenCalculator.Proofs.Session.Start
import SpokenCalculator.Proofs.Binary64.Whole
import SpokenCalculator.Proofs.Expression.Whole
import SpokenCalculator.Proofs.Binary64.Decimal
import SpokenCalculator.Proofs.Json.Number
import SpokenCalculator.Proofs.History.Codec
import SpokenCalculator.Proofs.History.Log
import SpokenCalculator.Proofs.Json.Value
import SpokenCalculator.Proofs.Editor.Record
import SpokenCalculator.Proofs.Session.Steps
import SpokenCalculator.Proofs.Session.Restart
import SpokenCalculator.Proofs.Editor.Dictation
import SpokenCalculator.Proofs.Session.Agreement
import SpokenCalculator.Proofs.Editor.Restore
import SpokenCalculator.Proofs.Session.Keys
import SpokenCalculator.Proofs.Session.Segments
import SpokenCalculator.Proofs.Session.Answered
import SpokenCalculator.Proofs.Session.Screen
import SpokenCalculator.Proofs.Session.OnFile
import SpokenCalculator.Proofs.Speech.Workers
import SpokenCalculator.Proofs.History.Reference
import SpokenCalculator.Proofs.Speech.Messages
import SpokenCalculator.Proofs.Preferences.Access
import SpokenCalculator.Proofs.Session.Voice
import SpokenCalculator.Proofs.Expression.Trailing
import SpokenCalculator.Proofs.Editor.Points
import SpokenCalculator.Proofs.Editor.Adjacent
import SpokenCalculator.Proofs.Editor.Retraced
import SpokenCalculator.Proofs.Editor.Letters
import SpokenCalculator.Proofs.Editor.Erased
import SpokenCalculator.Proofs.Expression.Signs
import SpokenCalculator.Proofs.Expression.DecimalText
import SpokenCalculator.Proofs.Phrase.Pass
import SpokenCalculator.Proofs.Phrase.WholeWords
import SpokenCalculator.Proofs.Phrase.Blanks
import SpokenCalculator.Proofs.Phrase.Spacing
import SpokenCalculator.Proofs.Expression.Turns
import SpokenCalculator.Proofs.Expression.Lexemes
