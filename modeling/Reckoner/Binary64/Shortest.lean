import Reckoner.Binary64.Rounding
import Reckoner.Text.Trim

/-!
# Shortest text

A number written with the fewest decimal digits that read back as the same number, and of those the digits nearest to
it. A decimal grid is fine enough when one of the two grid points around the number reads back, so grids are tried from
the coarsest. How the digits are set out is a matter of its own (`Layout`).
-/

namespace Reckoner

attribute [local instance(high)] instPowNat

/-- The number `coefficient * 10 ^ exponent`. -/
structure Decimal where
  coefficient : Nat
  exponent : Int
deriving DecidableEq

/-- The magnitude that a decimal reads as. -/
def Decimal.magnitude? (d : Decimal) : Option Magnitude :=
  Magnitude.nearest (d.coefficient * 10 ^ d.exponent.toNat * Magnitude.quantaPerUnit) (10 ^ (-d.exponent).toNat)

namespace Magnitude

/-- The place of the first decimal digit of a positive quotient: the `e` with `10 ^ e ≤ num / den < 10 ^ (e + 1)`. -/
def leadingPlace (num den : Nat) : Int :=
  if den ≤ num then (Nat.toDigits 10 (num / den)).length - 1
  else -((Nat.toDigits 10 ((den - 1) / num)).length : Int)

/-- The point nearest to a magnitude, among its two neighbours on the grid of multiples of `10 ^ place` that read back
as the magnitude; a tie goes to the even coefficient. -/
def onGrid? (x : Magnitude) (place : Int) : Option Decimal :=
  let num := x.quanta * 10 ^ (-place).toNat
  let den := quantaPerUnit * 10 ^ place.toNat
  let below : Decimal := ⟨num / den, place⟩
  let above : Decimal := ⟨num / den + 1, place⟩
  if below.magnitude? = some x then
    if above.magnitude? = some x then some ⟨nearestEven num den, place⟩ else some below
  else if above.magnitude? = some x then some above
  else none

/-- The whole decimal expansion, for magnitudes that no grid of 17 digits reaches; there are none. -/
def exactDecimal (x : Magnitude) : Decimal := ⟨x.quanta * 5 ^ unitExponent, -(unitExponent : Int)⟩

/-- The decimal with the fewest digits, up to 17, that reads back as a positive magnitude. -/
def shortest (x : Magnitude) : Decimal :=
  let first := leadingPlace x.quanta quantaPerUnit
  ((List.range 17).findSome? fun more : Nat => x.onGrid? (first - more)).getD x.exactDecimal

end Magnitude

/-- How digits are set out: with a point among them while the place of the first digit is from `positionalFrom` to
`positionalTo`, and with an exponent of at least `exponentDigits` digits otherwise. -/
structure Layout where
  positionalFrom : Int
  positionalTo : Int
  exponentDigits : Nat

namespace Layout

/-- Digits with a point after the first `whole` of them, and at least one digit on either side of it. -/
def positional (digits : List Char) (whole : Int) : List Char :=
  if whole ≤ 0 then '0' :: '.' :: (List.replicate (-whole).toNat '0' ++ digits)
  else
    let filled := digits ++ List.replicate (whole.toNat + 1 - digits.length) '0'
    filled.take whole.toNat ++ '.' :: filled.drop whole.toNat

/-- Digits with a point after the first, if more follow, and the place of the first as a signed exponent. -/
def scientific (layout : Layout) (digits : List Char) (place : Int) : List Char :=
  let fraction := digits.drop 1
  digits.take 1 ++ (if fraction = [] then [] else '.' :: fraction) ++
    'e' :: (if place < 0 then '-' else '+') ::
      (Nat.toDigits 10 place.natAbs).leftpad layout.exponentDigits '0'

/-- A positive decimal without superfluous zeros. -/
def write (layout : Layout) (d : Decimal) : List Char :=
  let all := Nat.toDigits 10 d.coefficient
  let digits := Text.dropTrailing (· == '0') all
  let place := (all.length : Int) + d.exponent - 1
  if layout.positionalFrom ≤ place ∧ place ≤ layout.positionalTo then positional digits (place + 1)
  else layout.scientific digits place

end Layout

namespace Binary64

/-- Raw numbers have a point among their digits from `0.0001` up to sixteen whole digits, and an exponent of two or
more digits beyond. -/
def rawLayout : Layout := ⟨-4, 15, 2⟩

/-- The shortest text of a number. -/
def shortestText : Binary64 → String
  | nan => "nan"
  | infinity negative => if negative then "-inf" else "inf"
  | finite negative x =>
    let digits := if x = .zero then ['0', '.', '0'] else rawLayout.write x.shortest
    String.ofList (if negative then '-' :: digits else digits)

end Binary64

end Reckoner
