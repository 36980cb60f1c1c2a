import Reckoner.Text.Blank
import Reckoner.Text.DecimalDigit

/-!
# Integers in any script

Reading an integer the way people write one: blanks around it, one sign, and decimal digits of any scripts, which single
underscores may group. The separators U+001C to U+001F are no blanks here, and the number of digits is limited.
-/

namespace Reckoner.Text

/-- The blanks that may surround an integer. -/
def isMargin (c : Char) : Bool := isBlank c && !(0x1C ≤ c.toNat && c.toNat ≤ 0x1F)

/-- The digits behind a first one, each with at most one underscore before it. -/
def moreDigits? : List Char → Option (List Nat)
  | [] => some []
  | '_' :: c :: rest => do return (← decimalDigit? c) :: (← moreDigits? rest)
  | c :: rest => do return (← decimalDigit? c) :: (← moreDigits? rest)

/-- The digits of a numeral; there is at least one. -/
def digits? : List Char → Option (List Nat)
  | [] => none
  | c :: rest => do return (← decimalDigit? c) :: (← moreDigits? rest)

/-- The most digits that are read, leading zeros included. -/
def integerDigitLimit : Nat := 4300

/-- The number with the given decimal digits. -/
def ofDigits (digits : List Nat) : Nat := digits.foldl (fun value digit => 10 * value + digit) 0

def natural? (cs : List Char) : Option Nat := do
  let digits ← digits? cs
  if digits.length ≤ integerDigitLimit then some (ofDigits digits) else none

def signedInteger? : List Char → Option Int
  | '-' :: rest => (natural? rest).map fun value => -(value : Int)
  | '+' :: rest => (natural? rest).map Int.ofNat
  | cs => (natural? cs).map Int.ofNat

/-- The integer that a text denotes. -/
def integer? (text : String) : Option Int := signedInteger? (trim isMargin text.toList)

end Reckoner.Text
