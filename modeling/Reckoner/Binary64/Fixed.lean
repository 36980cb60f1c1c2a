import Reckoner.Binary64.Rounding
import Reckoner.Text.Trim

/-!
# Fixed places

A number written with a limited number of decimal places: the exact value rounded half to even at the last place, then
without superfluous zeros, and never as a negative zero. There is neither an exponent nor a grouping of digits, so the
number of digits is limited instead.
-/

namespace Reckoner

attribute [local instance(high)] instPowNat

/-- Why a number cannot be written with fixed places. -/
inductive FixedFault
  | negativePlaces (places : Int)
  | tooManyDigits
deriving DecidableEq

namespace FixedFault

/-- The explanation of a fault, where there is one. -/
def message? : FixedFault → Option String
  | negativePlaces places => some s!"places must be >= 0, got {places}"
  | tooManyDigits => none

end FixedFault

/-- The most digits of a rounded result, counted from its first digit to its last place. -/
def digitLimit : Nat := 400

/-- The most places at which a zero is still written: twice the sum of the digit limit and the greatest exponent,
999999, of the decimal arithmetic that results are rounded in. -/
def zeroPlacesLimit : Nat := 2 * (999999 + digitLimit)

/-- At this many places even `2 ^ -1074` has more digits than the limit. -/
def crowdedPlaces : Nat := 724

/-- The numeral of `scaled / 10 ^ places`, without zeros at the end of its fraction. -/
def fixedNumeral (scaled places : Nat) : List Char :=
  let whole := Nat.toDigits 10 (scaled / 10 ^ places)
  let digits := (Nat.toDigits 10 (scaled % 10 ^ places)).leftpad places '0'
  match Text.dropTrailing (· == '0') digits with
  | [] => whole
  | first :: more => whole ++ '.' :: first :: more

namespace Magnitude

/-- The number of units in the last of the given places, rounded half to even. -/
def scaled (x : Magnitude) (places : Nat) : Nat := nearestEven (x.quanta * 10 ^ places) quantaPerUnit

/-- The same number, if it keeps to the digit limit; powers of ten beyond any use are not computed. -/
def scaled? (x : Magnitude) (places : Nat) : Option Nat :=
  if x = .zero then
    if places ≤ zeroPlacesLimit then some 0 else none
  else if crowdedPlaces ≤ places then none
  else if x.scaled places < 10 ^ digitLimit then some (x.scaled places)
  else none

end Magnitude

namespace Binary64

/-- A number with at most the given number of decimal places. -/
def fixedText (value : Binary64) (places : Int) : Except FixedFault String :=
  if places < 0 then .error (.negativePlaces places)
  else match value with
    | nan => .ok "NaN"
    | infinity negative => .ok (if negative then "-∞" else "∞")
    | finite negative x =>
      match x.scaled? places.toNat with
      | none => .error .tooManyDigits
      | some 0 => .ok "0"
      | some scaled =>
        let numeral := fixedNumeral scaled places.toNat
        .ok (String.ofList (if negative then '-' :: numeral else numeral))

end Binary64

end Reckoner
