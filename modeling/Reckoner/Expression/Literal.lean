import Reckoner.Binary64.Rounding

/-!
# Number literals

A number literal is a run of digits with at most one point, before, among or after them. It stands for a decimal
fraction, which is read as the nearest binary64 number whatever its length.
-/

namespace Reckoner

attribute [local instance(high)] instPowNat

/-- The number `coefficient / 10 ^ places`. -/
structure Literal where
  coefficient : Nat
  places : Nat
deriving DecidableEq

namespace Literal

/-- The characters that number literals are made of. -/
def isPart (c : Char) : Bool := c.isDigit || c == '.'

/-- A run of literal characters as a literal: it needs a digit and has room for one point. -/
def ofRun? (run : List Char) : Option Literal :=
  let whole := run.takeWhile Char.isDigit
  let fraction := (run.dropWhile Char.isDigit).drop 1
  let digits := whole ++ fraction
  if digits ≠ [] ∧ fraction.all Char.isDigit then some ⟨Nat.ofDigitChars 10 digits 0, fraction.length⟩ else none

/-- The binary64 number nearest to a literal. -/
def value (literal : Literal) : Binary64 :=
  .ofQuotient false (literal.coefficient * Magnitude.quantaPerUnit) (10 ^ literal.places)

end Literal

end Reckoner
