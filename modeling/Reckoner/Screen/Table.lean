import Reckoner.Screen.Paragraph
import Reckoner.Screen.Span

/-!
# Tables

A table has a title above its box and a caption below it, which are paragraphs of mark-up as wide as the box. The title stands
against the right edge and the caption in the middle. The cells have a border around each, and their texts in the middle.
-/

namespace Reckoner

/-- What stands in a cell, and how it looks. -/
structure Cell where
  style : Style
  text : List Char

structure Table where
  title : List Char
  titleStyle : Style
  columns : Nat
  rows : List (List Cell)
  /-- The look of the borders. -/
  style : Style
  caption : List Char
  captionStyle : Style

namespace Table

/-- The width of a column. -/
def columnWidth : Nat := 5

/-- The width of a cell, which has a space on either side of its column. -/
def cellWidth : Nat := columnWidth + 2

/-- The width of the box: the cells and the borders around them. -/
def width (table : Table) : Nat := table.columns * (cellWidth + 1) + 1

/-- A text behind the spaces that it needs to end at the right edge. -/
def flushRight (width : Nat) (text : List Char) : List Char :=
  List.replicate (width - Text.columns text) ' ' ++ text

/-- A text in the middle of a line of the given width; a space left over goes behind it. -/
def centred (width : Nat) (text : List Char) : List Char :=
  let before := (width - Text.columns text) / 2
  List.replicate before ' ' ++ text ++ List.replicate (width - Text.columns text - before) ' '

def titleLines [EmojiNames] (width : Nat) (title : List Char) : List (List Char) :=
  (Paragraph.lines width title).map fun line => flushRight width (Text.bare line)

def captionLines [EmojiNames] (width : Nat) (caption : List Char) : List (List Char) :=
  (Paragraph.lines width caption).map fun line => centred width (Text.bare line)

/-- A horizontal border with a character at its left end, between cells and at its right end. -/
def border (columns : Nat) (left between right : Char) : List Char :=
  left :: ((List.replicate columns (List.replicate cellWidth '─')).intersperse [between]).flatten ++ [right]

/-- A cell, of which only the text has the style, without the blanks at its end. -/
def cellLine (cell : Cell) : Line :=
  let text := Text.bare cell.text
  let before := 1 + (columnWidth - Text.columns text) / 2
  [⟨none, List.replicate before ' '⟩, ⟨some cell.style, text⟩,
    ⟨none, List.replicate (cellWidth - before - Text.columns text) ' '⟩]

/-- A row of cells between vertical borders. -/
def rowLine (style : Style) (cells : List Cell) : Line :=
  let bar : Span := ⟨some style, ['│']⟩
  bar :: cells.flatMap fun cell => cellLine cell ++ [bar]

/-- The box with the rows and a border between any two of them. -/
def box (table : Table) : List Line :=
  let rule (left between right : Char) : Line := .uniform table.style (border table.columns left between right)
  rule '┌' '┬' '┐' :: ((table.rows.map (rowLine table.style)).intersperse (rule '├' '┼' '┤') ++ [rule '└' '┴' '┘'])

/-- The lines that a table is laid out on. -/
def lines [EmojiNames] (table : Table) : List Line :=
  (titleLines table.width table.title).map (Line.uniform table.titleStyle) ++ table.box ++
    (captionLines table.width table.caption).map (Line.uniform table.captionStyle)

end Table

end Reckoner
