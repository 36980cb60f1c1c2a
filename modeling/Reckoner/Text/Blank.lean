import Reckoner.Text.Trim

/-!
# Blank characters

What counts as white space between the parts of a text, in Unicode 14: the white space controls, the separators U+001C to
U+001F, the space, and the spaces and line separators beyond ASCII. A zero-width space is none.
-/

namespace Reckoner.Text

def isBlank (c : Char) : Bool :=
  let code := c.toNat
  (0x09 ≤ code && code ≤ 0x0D) || (0x1C ≤ code && code ≤ 0x20) || code == 0x85 || code == 0xA0 || code == 0x1680 ||
    (0x2000 ≤ code && code ≤ 0x200A) || code == 0x2028 || code == 0x2029 || code == 0x202F || code == 0x205F ||
    code == 0x3000

/-- A text without the blanks around it. -/
def strip (cs : List Char) : List Char := trim isBlank cs

end Reckoner.Text
