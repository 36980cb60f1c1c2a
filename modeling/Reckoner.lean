import Reckoner.Binary64.Bits
import Reckoner.Command.Outcome
import Reckoner.Diagnostic
import Reckoner.Main
import Reckoner.Proofs.Grammar.Unambiguity
import Reckoner.Proofs.Parser.Soundness
import Reckoner.Proofs.Parser.Completeness
import Reckoner.Proofs.Evaluation.Blanks
import Reckoner.Proofs.Evaluation.Kinds
import Reckoner.Proofs.Evaluation.Limit
import Reckoner.Proofs.Evaluation.Meaning
import Reckoner.Proofs.Keypad.Steps
import Reckoner.Proofs.Keypad.Statements
import Reckoner.Proofs.Scan.Readers
import Reckoner.Proofs.Keypad.Buffer
import Reckoner.Proofs.Binary64.Fixed
import Reckoner.Proofs.Binary64.Limits
import Reckoner.Proofs.Evaluation.Numbers
import Reckoner.Proofs.Keypad.Faults
import Reckoner.Proofs.Keypad.Atomicity
import Reckoner.Proofs.Command.Settings
import Reckoner.Proofs.Text.Lines
import Reckoner.Proofs.Keypad.Dialogue
import Reckoner.Proofs.Screen.Paragraph
import Reckoner.Proofs.Text.Quoted
import Reckoner.Proofs.Command.Dialogue
import Reckoner.Proofs.Command.Messages
import Reckoner.Proofs.Binary64.Figures
import Reckoner.Proofs.Command.Evaluation
import Reckoner.Proofs.Command.Agreement
import Reckoner.Proofs.Text.Digits
import Reckoner.Proofs.Binary64.Exact
import Reckoner.Proofs.Binary64.Canonical
import Reckoner.Proofs.Binary64.Representable
import Reckoner.Proofs.Evaluation.Literals
import Reckoner.Proofs.Evaluation.Whole
import Reckoner.Proofs.Keypad.Themes
import Reckoner.Proofs.Binary64.Division
import Reckoner.Proofs.Command.Places
import Reckoner.Proofs.Binary64.Decimals
import Reckoner.Proofs.Evaluation.Raw
import Reckoner.Proofs.Text.Wrapped
import Reckoner.Proofs.Keypad.Displays
import Reckoner.Proofs.Screen.Drawing
import Reckoner.Proofs.Screen.Styles
import Reckoner.Proofs.Text.Spaces
import Reckoner.Proofs.Screen.Markup
import Reckoner.Proofs.Command.Errors
import Reckoner.Proofs.Text.Unquoted
import Reckoner.Proofs.Diagnostic
import Reckoner.Proofs.Text.Blank
import Reckoner.Proofs.Text.Integer
import Reckoner.Proofs.Command.Readers
import Reckoner.Proofs.Text.Case
import Reckoner.Proofs.Command.Environments
import Reckoner.Proofs.Parser.Calls
import Reckoner.Proofs.Parser.Progress
