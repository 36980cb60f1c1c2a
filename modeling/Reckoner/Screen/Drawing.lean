import Reckoner.Keypad.Session
import Reckoner.Screen.Console

/-!
# Drawing a session

The calculator is drawn as an empty line and a table: the display is its title, the keys are its cells, and the caption names the
theme.
-/

namespace Reckoner

namespace Drawing

/-- The look of all that is not a key. -/
def surface (theme : Theme) : Style := ⟨false, theme.palette.ink, theme.palette.background⟩

def titleStyle (theme : Theme) : Style := { surface theme with bold := true }

def keyStyle (theme : Theme) : Style := ⟨true, theme.palette.ink, theme.palette.button⟩

/-- What the title is to show: the display, or zero for an empty one. -/
def shown (display : String) : List Char := if display = "" then ['0'] else display.toList

def captionText (theme : Theme) : List Char := "theme: ".toList ++ theme.switchLabel.toList

/-- The cell of a key. -/
def keyCell (theme : Theme) (key : Key) : Cell := ⟨keyStyle theme, [' ', key.label, ' ']⟩

end Drawing

open Drawing in
/-- The table that a session is drawn as. -/
def Session.table (session : Session) : Table where
  title := shown session.display
  titleStyle := titleStyle session.theme
  columns := (Key.layout.headD []).length
  rows := Key.layout.map fun keys => keys.map (keyCell session.theme)
  style := surface session.theme
  caption := captionText session.theme
  captionStyle := surface session.theme

/-- What is written when a session is drawn in some way of printing tables. -/
def Session.draw (print : Table → List Char) (session : Session) : String := String.ofList ('\n' :: print session.table)

variable [EmojiNames]

/-- The drawing without styles. -/
def Session.plainText (session : Session) : String := session.draw Console.terminal.plain

/-- The drawing with styles. -/
def Session.styledText (session : Session) : String := session.draw Console.terminal.styled

namespace Drawing

/-- The width of the box. -/
def width : Nat := 33

/-- The lines of the display. -/
def title (display : String) : List (List Char) := Table.titleLines width (shown display)

def caption (theme : Theme) : List Char := Table.centred width (captionText theme)

end Drawing

end Reckoner
