import Reckoner.Text.Case
import Reckoner.Text.Integer
import Reckoner.Theme

/-!
# Settings

How many decimal places are shown and in which theme, read from texts whose source an explanation can name. Settings
come from two environment variables; a variable that is unset or blank leaves its setting at the default.
-/

namespace Reckoner

/-- Why a text is no setting. -/
inductive SettingFault
  | notInteger (source raw : String)
  | outOfRange (source : String) (value : Int)
  | noTheme (source raw : String)
deriving DecidableEq

/-- The most decimal places that can be set. -/
def placesLimit : Nat := 15

def SettingFault.message : SettingFault → String
  | notInteger source raw =>
    let shown := Text.quote raw
    s!"{source} must be an integer, got {shown}"
  | outOfRange source value => s!"{source} must be between 0 and {placesLimit}, got {value}"
  | noTheme source raw =>
    let choices := ", ".intercalate (Theme.all.map Theme.name)
    let shown := Text.quote raw
    s!"{source} must be one of: {choices}; got {shown}"

/-- A number of places, if it can be set. -/
def placesInRange? (value : Int) : Option Nat :=
  if 0 ≤ value ∧ value ≤ placesLimit then some value.toNat else none

/-- The number of places that a text denotes. -/
def readPlaces (source raw : String) : Except SettingFault Nat :=
  match Text.integer? raw with
  | none => .error (.notInteger source raw)
  | some value =>
    match placesInRange? value with
    | none => .error (.outOfRange source value)
    | some places => .ok places

/-- The theme that a text names, in any case and with blanks around it. -/
def readTheme (source raw : String) : Except SettingFault Theme :=
  match Theme.ofName (String.ofList (Text.normalized raw.toList)) with
  | .ok theme => .ok theme
  | .error _ => .error (.noTheme source raw)

structure Settings where
  theme : Theme
  places : Nat
deriving DecidableEq

namespace Settings

def defaults : Settings := ⟨.dark, 3⟩

def themeVariable : String := "CALCPAD_THEME"

def placesVariable : String := "CALCPAD_PLACES"

/-- The value of a variable, unless it is unset or blank. -/
def given? (environment : String → Option String) (name : String) : Option String :=
  (environment name).filter fun raw => !raw.toList.all Text.isBlank

/-- The settings of an environment; of two faulty variables the theme is reported. -/
def load (environment : String → Option String) : Except SettingFault Settings := do
  let theme ← match given? environment themeVariable with
    | none => .ok defaults.theme
    | some raw => readTheme themeVariable raw
  let places ← match given? environment placesVariable with
    | none => .ok defaults.places
    | some raw => readPlaces placesVariable raw
  return ⟨theme, places⟩

end Settings

end Reckoner
