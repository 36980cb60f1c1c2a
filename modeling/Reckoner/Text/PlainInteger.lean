import Reckoner.Text.Integer

/-!
# Integers in plain digits

Reading an integer from ASCII digits with blanks around them and a sign. A fraction of zeros makes no difference, and
neither do zeros in front, with any underscores among them; behind these single underscores may stand between other
characters. A minus sign may also follow the zeros in front, if no more of them follow it.
-/

namespace Reckoner.Text

/-- What stands before the point of a numeral, if all that follows it is zeros and there is one. -/
def wholePart? (cs : List Char) : Option (List Char) :=
  match cs.dropWhile (· != '.') with
  | [] => some cs
  | _ :: fraction =>
    if fraction ≠ [] ∧ fraction.all (· == '0') then some (cs.takeWhile (· != '.')) else none

/-- A numeral without the zeros and underscores that a first zero begins, but with the last of them if they are all. -/
def withoutLeadingZeros (cs : List Char) : List Char :=
  if cs.head? = some '0' then
    match cs.dropWhile (fun c => c == '0' || c == '_') with
    | [] => cs.getLast?.toList
    | rest => rest
  else cs

/-- A numeral without its underscores, each of which stands alone between other characters. -/
def withoutUnderscores? (cs : List Char) : Option (List Char) :=
  let groups := cs.splitOn '_'
  if [] ∈ groups then none else some groups.flatten

/-- A numeral without all that makes no difference to its value. -/
def bareNumeral? (cs : List Char) : Option (List Char) := do
  withoutUnderscores? (withoutLeadingZeros (← wholePart? cs))

/-- The number that ASCII digits denote with no zero before others. -/
def bareNatural? (cs : List Char) : Option Nat :=
  if cs.all Char.isDigit ∧ (cs.head? = some '0' → cs = ['0']) then natural? cs else none

def bareInteger? : List Char → Option Int
  | '-' :: rest => (bareNatural? rest).map fun value => -(value : Int)
  | cs => (bareNatural? cs).map Int.ofNat

/-- The integer that a text denotes in plain digits; there is no minus sign behind another sign. -/
def plainInteger? (text : String) : Option Int :=
  match trim isMargin text.toList with
  | '+' :: '-' :: _ => none
  | '+' :: rest => (bareNumeral? rest).bind bareInteger?
  | '-' :: rest => ((bareNumeral? rest).bind bareNatural?).map fun value => -(value : Int)
  | cs => (bareNumeral? cs).bind bareInteger?

end Reckoner.Text
