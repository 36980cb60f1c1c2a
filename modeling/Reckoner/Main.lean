import Reckoner.Command.Outcome

/-!
# The program

Reads the two environment variables and the lines of a dialogue, and writes what the commands come to.
-/

open Reckoner

def writeOutcome (outcome : Outcome) : IO UInt32 := do
  (← IO.getStdout).putStr outcome.output
  (← IO.getStderr).putStr outcome.errors
  return outcome.exitCode.toUInt32

/-- Draws a session and asks for a line. -/
def present (session : Session) : IO Unit := do
  let output ← IO.getStdout
  output.putStr session.plainText
  output.flush
  (← IO.getStderr).putStr Command.prompt

/-- Goes on with a session that was presented, first from the lines at hand and then from those that are read. -/
partial def converseWith (session : Session) : List (List Char) → IO UInt32
  | [] => do
    let text ← (← IO.getStdin).getLine
    if text.isEmpty then return 0
    converseWith session (Text.splitLines text)
  | line :: more =>
    match session.answer (.ofLine line) with
    | .error _ => writeOutcome .unwritable
    | .ok none => return 0
    | .ok (some next) => do
      present next
      converseWith next more

def main (arguments : List String) : IO UInt32 := do
  let theme ← IO.getEnv Settings.themeVariable
  let places ← IO.getEnv Settings.placesVariable
  let environment (name : String) : Option String :=
    if name = Settings.themeVariable then theme else if name = Settings.placesVariable then places else none
  match Command.ofArguments arguments, Settings.load environment with
  | some (.keypad theme places), .ok settings =>
    match Command.openSession settings theme places with
    | .error fault => writeOutcome (.failure fault.message)
    | .ok session => do
      present session
      converseWith session []
  | _, _ => writeOutcome (runProgram arguments environment "")
