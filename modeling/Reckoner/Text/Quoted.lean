import Reckoner.Text.Printable

/-!
# Quoted text

How a text is shown inside a message: between apostrophes, or between double quotes when it holds an apostrophe and no
double quote. A backslash and the enclosing mark are escaped by a backslash, tab, line feed and carriage return are
written by letter, and other characters that do not print by their code in hexadecimal. Only printing characters come
out, and a quoted text can be read back.
-/

namespace Reckoner.Text

/-- The mark around a quoted text. -/
def quoteMark (cs : List Char) : Char := if '\'' ∈ cs ∧ '"' ∉ cs then '"' else '\''

/-- A code in lower case hexadecimal, filled up with zeros to a width. -/
def hexadecimal (width code : Nat) : List Char := (Nat.toDigits 16 code).leftpad width '0'

/-- A character as it stands between marks. -/
def escape (mark c : Char) : List Char :=
  if c = '\\' ∨ c = mark then ['\\', c]
  else if c = '\t' then ['\\', 't']
  else if c = '\n' then ['\\', 'n']
  else if c = '\r' then ['\\', 'r']
  else if isPrintable c then [c]
  else if c.toNat < 0x100 then '\\' :: 'x' :: hexadecimal 2 c.toNat
  else if c.toNat < 0x10000 then '\\' :: 'u' :: hexadecimal 4 c.toNat
  else '\\' :: 'U' :: hexadecimal 8 c.toNat

def quoted (cs : List Char) : List Char :=
  let mark := quoteMark cs
  mark :: (cs.flatMap (escape mark) ++ [mark])

def quote (text : String) : String := String.ofList (quoted text.toList)

end Reckoner.Text
