import Reckoner.Theme

/-!
# Styled lines

What is drawn is made of lines, and a line of spans that share a style. Dropping the styles gives plain text; with them, each
span that has a style stands between the escape sequences that begin and end it, so no style outlasts its span.
-/

namespace Reckoner

/-- How characters look: their weight, their colour and the colour behind them. -/
structure Style where
  bold : Bool
  ink : Ink
  ground : Colour
deriving DecidableEq

/-- The number that selects a colour for characters. -/
def Ink.code : Ink → Nat
  | black => 30
  | white => 37

namespace Style

/-- The numbers that select a style: 1 for bold, the colour of characters, and a colour by its parts behind `48;2`. -/
def numbers (style : Style) : List Nat :=
  (if style.bold then [1] else []) ++
    [style.ink.code, 48, 2, style.ground.red.val, style.ground.green.val, style.ground.blue.val]

/-- The numbers that select a style, as they are written. -/
def codes (style : Style) : List Char := ((style.numbers.map (Nat.toDigits 10)).intersperse [';']).flatten

/-- The codes that end a style. -/
def closing : List Char := ['0']

end Style

/-- The escape sequence with some codes. -/
def escapeSequence (codes : List Char) : List Char := '\x1B' :: '[' :: (codes ++ ['m'])

/-- Characters in one style, or without any. -/
structure Span where
  style : Option Style
  text : List Char
deriving DecidableEq

namespace Span

def plain (span : Span) : List Char := span.text

/-- The style of a span, if there is anything to show in it. -/
def visible? (span : Span) : Option Style := if span.text = [] then none else span.style

/-- A span between the escape sequences that begin and end its style, for which there are codes. -/
def styled (codes : Style → List Char) (span : Span) : List Char :=
  match span.visible? with
  | none => span.text
  | some style => escapeSequence (codes style) ++ (span.text ++ escapeSequence Style.closing)

end Span

abbrev Line := List Span

namespace Line

def plain (line : Line) : List Char := line.flatMap Span.plain

def styled (codes : Style → List Char) (line : Line) : List Char := line.flatMap (Span.styled codes)

/-- A line in one style. -/
def uniform (style : Style) (text : List Char) : Line := [⟨some style, text⟩]

end Line

end Reckoner
