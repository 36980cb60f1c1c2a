import Reckoner.Screen.Table
import Reckoner.Text.Lines

/-!
# Consoles

A console lays a table out on lines of spans and prints it, with its styles or without them.
-/

namespace Reckoner

structure Console where
  layOut : Table → List Line
  /-- What selects a style in an escape sequence. -/
  codes : Style → List Char
  plain : Table → List Char
  styled : Table → List Char

/-- The terminal, which prints the spans of every line and ends the line. -/
def Console.terminal [EmojiNames] : Console where
  layOut := Table.lines
  codes := Style.codes
  plain table := table.lines.flatMap fun line => line.plain ++ ['\n']
  styled table := table.lines.flatMap fun line => line.styled Style.codes ++ ['\n']

end Reckoner
