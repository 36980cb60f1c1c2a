import Reckoner.Text.Naming

/-!
# Themes

The two colour schemes of the calculator. A theme decides about colours and the caption of the drawing and nothing else.
-/

namespace Reckoner

structure Colour where
  red : Fin 256
  green : Fin 256
  blue : Fin 256
deriving DecidableEq

/-- A colour as six hexadecimal digits behind a number sign. -/
def Colour.hexText (colour : Colour) : String :=
  String.ofList ('#' :: ([colour.red, colour.green, colour.blue].flatMap fun part =>
    (Text.hexadecimal 2 part.val).map Char.toUpper))

/-- The colour of characters. -/
inductive Ink
  | black
  | white
deriving DecidableEq

def Ink.name : Ink → String
  | black => "black"
  | white => "white"

/-- The colours of the drawing: behind everything but the keys, behind the keys, and of the characters. -/
structure Palette where
  background : Colour
  button : Colour
  ink : Ink
deriving DecidableEq

inductive Theme
  | dark
  | lite
deriving DecidableEq

namespace Theme

def name : Theme → String
  | dark => "dark"
  | lite => "lite"

def all : List Theme := [dark, lite]

def ofName (text : String) : Except UnknownName Theme := Text.named "Theme" Theme.name all text

def toggled : Theme → Theme
  | dark => lite
  | lite => dark

@[simp] theorem toggled_toggled (theme : Theme) : theme.toggled.toggled = theme := by
  cases theme <;> rfl

def palette : Theme → Palette
  | dark => ⟨⟨0x33, 0x33, 0x33⟩, ⟨0x44, 0x44, 0x44⟩, .white⟩
  | lite => ⟨⟨0xF5, 0xF5, 0xF5⟩, ⟨0xCC, 0xCC, 0xCC⟩, .black⟩

/-- What the caption calls the theme. -/
def switchLabel : Theme → String
  | dark => "DARK"
  | lite => "LITE"

end Theme

end Reckoner
