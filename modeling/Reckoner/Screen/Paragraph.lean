import Reckoner.Screen.Markup
import Reckoner.Text.Wrapped

/-!
# Paragraphs

Mark-up as lines of limited width. Line feeds end a line, tabs lead to the next stop, and the controls that would move
to another place of the screen are left out.
-/

namespace Reckoner.Paragraph

/-- Bell, backspace, vertical tab, form feed and carriage return. -/
def isLeftOut (c : Char) : Bool := c == '\x07' || c == '\x08' || c == '\x0B' || c == '\x0C' || c == '\r'

/-- The distance of tab stops. -/
def tabWidth : Nat := 8

/-- A text with spaces for its tabs, from a column on. -/
def expandTabs (column : Nat) : List Char → List Char
  | [] => []
  | '\t' :: rest =>
    let spaces := tabWidth - column % tabWidth
    List.replicate spaces ' ' ++ expandTabs (column + spaces) rest
  | c :: rest => c :: expandTabs (column + Text.columnsOf c) rest

/-- The lines of a marked-up text. -/
def lines [EmojiNames] (width : Nat) (markup : List Char) : List (List Char) :=
  (((Markup.shown markup).filter (!isLeftOut ·)).splitOn '\n').flatMap fun line =>
    Text.wrap width (expandTabs 0 line)

end Reckoner.Paragraph
