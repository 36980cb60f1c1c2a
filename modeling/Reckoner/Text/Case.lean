import Reckoner.Text.Blank

/-!
# Words in any case

Words that stand for choices are compared in lower case and without the blanks around them.
-/

namespace Reckoner.Text

/-- Lower case of ASCII letters and of the kelvin sign, the only other character whose lower case is an ASCII letter. -/
def lowerCase (c : Char) : Char := if c.toNat = 0x212A then 'k' else c.toLower

/-- A word in lower case without the blanks around it. -/
def normalized (word : List Char) : List Char := (strip word).map lowerCase

end Reckoner.Text
