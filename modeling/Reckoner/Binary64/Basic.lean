/-!
# Binary64 numbers

The values a calculation can have: finite numbers, two infinities and one NaN. A finite absolute value is a whole number
of quanta of `2 ^ -1074`, the least positive value, so every fact about finite numbers is a fact about natural numbers.
-/

namespace Reckoner

-- Where Mathlib is imported too, a power of natural numbers would be the one of a monoid. The instance is local to each file
-- that defines anything with powers, and serves literal exponents only if their type is written out.
attribute [local instance(high)] instPowNat

/-- The absolute value of a finite number, `significand * 2 ^ exponent` quanta of `2 ^ -1074`. The bounds leave each
number of quanta at most one such form: above the first two binades the significand has its full 53 bits. -/
structure Magnitude where
  significand : Nat
  exponent : Nat
  significand_lt : significand < 2 ^ (53 : Nat)
  exponent_le : exponent ≤ 2045
  full : exponent = 0 ∨ 2 ^ (52 : Nat) ≤ significand
deriving DecidableEq

namespace Magnitude

def zero : Magnitude := ⟨0, 0, by decide, by decide, .inl rfl⟩

/-- How many times `2 ^ -1074` goes into the number. -/
def quanta (x : Magnitude) : Nat := x.significand * 2 ^ x.exponent

/-- One is this power of two in quanta. -/
def unitExponent : Nat := 1074

/-- The number of quanta in one. -/
def quantaPerUnit : Nat := 2 ^ unitExponent

theorem quantaPerUnit_pos : 0 < quantaPerUnit := Nat.two_pow_pos unitExponent

theorem quanta_zero : zero.quanta = 0 := rfl

theorem quanta_eq_zero_iff {x : Magnitude} : x.quanta = 0 ↔ x = zero := by
  constructor
  · intro hquanta
    have hsignificand : x.significand = 0 := by
      rcases Nat.mul_eq_zero.1 hquanta with h | h
      · exact h
      · exact absurd h (Nat.ne_of_gt (Nat.two_pow_pos _))
    obtain ⟨significand, exponent, _, _, hfull⟩ := x
    subst hsignificand
    have hexponent : exponent = 0 := hfull.resolve_right (by decide)
    subst hexponent
    rfl
  · rintro rfl
    rfl

end Magnitude

/-- A binary64 number. There is one NaN; it has neither sign nor payload. -/
inductive Binary64
  | nan
  | infinity (negative : Bool)
  | finite (negative : Bool) (magnitude : Magnitude)
deriving DecidableEq

namespace Binary64

def zero : Binary64 := finite false .zero

/-- The number with its sign flipped, zeros and infinities included. -/
def neg : Binary64 → Binary64
  | nan => nan
  | infinity negative => infinity !negative
  | finite negative x => finite (!negative) x

/-- The exact number of quanta of a finite number, with its sign. -/
def signedQuanta (negative : Bool) (x : Magnitude) : Int :=
  if negative then -(x.quanta : Int) else x.quanta

end Binary64

end Reckoner
