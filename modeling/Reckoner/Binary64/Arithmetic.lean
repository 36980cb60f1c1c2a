import Reckoner.Binary64.Rounding

/-!
# Arithmetic

The four operations on binary64 numbers: the exact result of two finite operands, rounded once to nearest. None of them
fails. Dividing by zero gives a signed infinity, and an operation without a meaningful result gives NaN.
-/

namespace Reckoner.Binary64

attribute [local instance(high)] instPowNat

/-- An exact sum of zero is negative only when both operands are. -/
def add : Binary64 → Binary64 → Binary64
  | nan, _ => nan
  | _, nan => nan
  | infinity s, infinity t => if s = t then infinity s else nan
  | infinity s, finite _ _ => infinity s
  | finite _ _, infinity t => infinity t
  | finite s x, finite t y =>
    let total := signedQuanta s x + signedQuanta t y
    if total = 0 then finite (s && t) .zero else ofQuotient (total < 0) total.natAbs 1

def sub (x y : Binary64) : Binary64 := add x (neg y)

/-- The sign of a product is negative when the signs differ; zero times infinity is NaN. -/
def mul : Binary64 → Binary64 → Binary64
  | nan, _ => nan
  | _, nan => nan
  | infinity s, infinity t => infinity (s ^^ t)
  | infinity s, finite t y => if y = .zero then nan else infinity (s ^^ t)
  | finite s x, infinity t => if x = .zero then nan else infinity (s ^^ t)
  | finite s x, finite t y => ofQuotient (s ^^ t) (x.quanta * y.quanta) Magnitude.quantaPerUnit

/-! ### Division

Dividing by zero is dealt with apart, because there is no quotient of numbers that it could be rounded from. -/

theorem two_pow_52_lt : 2 ^ (52 : Nat) < 2 ^ (53 : Nat) := by decide

def one : Binary64 := finite false ⟨2 ^ (52 : Nat), 1022, two_pow_52_lt, by decide, .inr (Nat.le_refl _)⟩

def isZero : Binary64 → Bool
  | finite _ x => x = .zero
  | _ => false

/-- The sign of a number, which zeros and infinities have as well. -/
def isNegative : Binary64 → Bool
  | nan => false
  | infinity negative => negative
  | finite negative _ => negative

/-- A number with the sign of another one. -/
def copySign : Binary64 → Binary64 → Binary64
  | nan, _ => nan
  | infinity _, y => infinity y.isNegative
  | finite _ x, y => finite y.isNegative x

/-- The quotient of two numbers, which there is for every divisor other than zero. The sign of a quotient is negative when
the signs differ; a quotient of two infinities is NaN. -/
def quotient : (x y : Binary64) → y.isZero = false → Binary64
  | nan, _, _ => nan
  | _, nan, _ => nan
  | infinity _, infinity _, _ => nan
  | infinity s, finite t _, _ => infinity (s ^^ t)
  | finite s _, infinity t, _ => finite (s ^^ t) .zero
  | finite s x, finite t y, _ => ofQuotient (s ^^ t) (x.quanta * Magnitude.quantaPerUnit) y.quanta

/-- Division by zero gives an infinity with the sign of a product of the signs, unless zero or NaN is divided. -/
def div (x y : Binary64) : Binary64 :=
  if hzero : y.isZero then
    if x.isZero || x = nan then nan else mul (copySign (infinity false) x) (copySign one y)
  else x.quotient y (Bool.eq_false_iff.2 hzero)

end Reckoner.Binary64
