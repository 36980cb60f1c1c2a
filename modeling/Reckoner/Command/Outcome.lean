import Reckoner.Binary64.Shortest
import Reckoner.Command.Arguments
import Reckoner.Keypad.Dialogue
import Reckoner.Screen.Drawing

/-!
# Outcomes of commands

What a command writes and how it exits. Errors go to the error output, wrapped to the width of a terminal; of several
errors the arguments come first, then the settings, then an option's theme, and the expression last.
-/

namespace Reckoner

structure Outcome where
  exitCode : Nat
  output : String
  errors : String
deriving DecidableEq

variable [EmojiNames]

namespace Outcome

def terminalWidth : Nat := 80

def success (output : String) : Outcome := ⟨0, output, ""⟩

/-- An error text, escaped, on lines that fit the terminal. The colour of its heading is left out; the colon of the heading has
a blank behind it, so that it begins no name of an emoji. -/
def failure (text : String) : Outcome :=
  ⟨1, "", Text.joinLines (Paragraph.lines terminalWidth (Markup.escape text.toList))⟩

/-- What arguments come to that ask for no command. The advice on the use of the program is left out. -/
def misuse : Outcome := ⟨2, "", ""⟩

def badSettings (fault : SettingFault) : Outcome :=
  let message := fault.message
  failure s!"Invalid configuration: {message}"

def badExpression (fault : Fault) : Outcome :=
  let kind := fault.kind.name
  let message := fault.message
  failure s!"{kind}: {message}"

/-- What a number comes to that cannot be written. Nothing deals with it, so the program breaks off, and where it does so is left
out; no number of places that can be set leads here. -/
def unwritable : Outcome := ⟨1, "", ""⟩

end Outcome

namespace Command

/-- Writes the value of an expression. -/
def runEvaluate (settings : Settings) (expression : String) (places : Option Nat) (raw : Bool)
    (limit : Nat := nestingLimit) : Outcome :=
  match Reckoner.evaluate expression limit with
  | .error fault => .badExpression fault
  | .ok value =>
    if raw then .success (value.shortestText ++ "\n")
    else match value.fixedText (places.getD settings.places) with
      | .error _ => .unwritable
      | .ok text => .success (text ++ "\n")

def prompt : String := "keys> "

/-- Holds a dialogue with a session, which is drawn at the start and after every line. -/
def runKeypad (session : Session) (input : String) : Outcome :=
  match session.converse (Text.splitLines input) with
  | .error _ => .unwritable
  | .ok course =>
    ⟨0, String.join ((session :: course.sessions).map Session.plainText),
      String.join (List.replicate course.reads prompt)⟩

/-- The session that a dialogue starts with. -/
def openSession (settings : Settings) (theme : Option String) (places : Option Nat) : Except SettingFault Session := do
  let theme ← match theme with
    | none => .ok settings.theme
    | some raw => readTheme "--theme" raw
  return .new theme (places.getD settings.places)

/-- What a command does; an expression among the arguments may nest as deeply as the limit says. -/
def run (environment : String → Option String) (input : String) (command : Command) (limit : Nat := nestingLimit) : Outcome :=
  match Settings.load environment with
  | .error fault => .badSettings fault
  | .ok settings =>
    match command with
    | evaluate expression places raw => runEvaluate settings expression places raw limit
    | keypad theme places =>
      match openSession settings theme places with
      | .error fault => .failure fault.message
      | .ok session => runKeypad session input

end Command

/-- What the program does when it is given arguments, an environment and an input. -/
def runProgram (arguments : List String) (environment : String → Option String) (input : String)
    (limit : Nat := nestingLimit) : Outcome :=
  match Command.ofArguments arguments with
  | none => .misuse
  | some command => command.run environment input limit

end Reckoner
