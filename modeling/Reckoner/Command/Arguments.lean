import Reckoner.Settings
import Reckoner.Text.PlainInteger

/-!
# Command line arguments

What the arguments of the program ask for. A command is named first; its options may stand before and behind its
argument. Every option but a flag takes a value: behind an equals sign after a long name, right behind a short name, or
as the next argument, whatever that looks like. A lone `--` ends the options, and of a repeated option the last counts.

Asking for help is not modelled: `--help`, which shows how the program is used and is no misuse, is taken for an option that
no command knows.
-/

namespace Reckoner

inductive OptionName
  | places
  | theme
  | raw
deriving DecidableEq

namespace OptionName

def long : OptionName → String
  | places => "places"
  | theme => "theme"
  | raw => "raw"

def short? : OptionName → Option Char
  | places => some 'p'
  | theme => some 't'
  | raw => none

def isFlag : OptionName → Bool
  | raw => true
  | _ => false

end OptionName

/-- What a single argument says by itself. -/
inductive Argument
  | positional (text : String)
  | endOfOptions
  | flag (name : OptionName)
  | valued (name : OptionName) (value : String)
  | awaiting (name : OptionName)
  | unknown

namespace Argument

/-- An option by its long name, with the value behind an equals sign if there is one. -/
def ofLong (allowed : List OptionName) (body : List Char) : Argument :=
  let name := String.ofList (body.takeWhile (· != '='))
  match allowed.find? (·.long == name), body.dropWhile (· != '=') with
  | none, _ => unknown
  | some option, [] => if option.isFlag then flag option else awaiting option
  | some option, _ :: value => if option.isFlag then unknown else valued option (String.ofList value)

/-- An option by its short name, with the value right behind it if there is one. -/
def ofShort (allowed : List OptionName) (letter : Char) (value : List Char) : Argument :=
  match allowed.find? (·.short? == some letter), value with
  | none, _ => unknown
  | some option, [] => awaiting option
  | some option, value => valued option (String.ofList value)

def ofText (allowed : List OptionName) (text : String) : Argument :=
  match text.toList with
  | ['-', '-'] => endOfOptions
  | '-' :: '-' :: body => ofLong allowed body
  | '-' :: letter :: value => ofShort allowed letter value
  | _ => positional text

end Argument

/-- The options of a command in the order in which they were given, a flag with an empty value, and its arguments. -/
structure Arguments where
  options : List (OptionName × String)
  positional : List String
deriving DecidableEq

namespace Arguments

/-- The last value of an option. -/
def value? (arguments : Arguments) (name : OptionName) : Option String :=
  (arguments.options.reverse.find? (·.1 == name)).map (·.2)

def withOption (name : OptionName) (value : String) (arguments : Arguments) : Arguments :=
  { arguments with options := (name, value) :: arguments.options }

def withPositional (text : String) (arguments : Arguments) : Arguments :=
  { arguments with positional := text :: arguments.positional }

/-- The arguments of a command that knows some options. -/
def read (allowed : List OptionName) : List String → Option Arguments
  | [] => some ⟨[], []⟩
  | text :: rest =>
    match Argument.ofText allowed text with
    | .positional text => (read allowed rest).map (withPositional text)
    | .endOfOptions => some ⟨[], rest⟩
    | .flag name => (read allowed rest).map (withOption name "")
    | .valued name value => (read allowed rest).map (withOption name value)
    | .awaiting name =>
      match rest with
      | [] => none
      | value :: rest => (read allowed rest).map (withOption name value)
    | .unknown => none

/-- The places that an option asks for in plain digits, if it is given; a value out of range is none. -/
def places? (arguments : Arguments) : Option (Option Nat) :=
  match arguments.value? .places with
  | none => some none
  | some raw => ((Text.plainInteger? raw).bind placesInRange?).map some

end Arguments

/-- A command with what it was given. -/
inductive Command
  | evaluate (expression : String) (places : Option Nat) (raw : Bool)
  | keypad (theme : Option String) (places : Option Nat)
deriving DecidableEq

namespace Command

def readEvaluate (rest : List String) : Option Command := do
  let arguments ← Arguments.read [.places, .raw] rest
  let places ← arguments.places?
  match arguments.positional with
  | [expression] => some (evaluate expression places (arguments.value? .raw).isSome)
  | _ => none

def readKeypad (rest : List String) : Option Command := do
  let arguments ← Arguments.read [.theme, .places] rest
  let places ← arguments.places?
  match arguments.positional with
  | [] => some (keypad (arguments.value? .theme) places)
  | _ => none

/-- The command behind its name. -/
def named : List String → Option Command
  | "eval" :: rest => readEvaluate rest
  | "keypad" :: rest => readKeypad rest
  | _ => none

/-- The command that all arguments ask for, if they are in order. One `--` may stand before the name. -/
def ofArguments : List String → Option Command
  | "--" :: rest => named rest
  | arguments => named arguments

end Command

end Reckoner
