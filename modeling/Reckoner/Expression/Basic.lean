import Reckoner.Binary64.Arithmetic
import Reckoner.Expression.Literal

/-!
# Expressions

Arithmetic expressions as trees, and the number that a tree stands for.
-/

namespace Reckoner

inductive Operator
  | add
  | sub
  | mul
  | div
deriving DecidableEq

namespace Operator

def apply : Operator → Binary64 → Binary64 → Binary64
  | add => Binary64.add
  | sub => Binary64.sub
  | mul => Binary64.mul
  | div => Binary64.div

/-- The operators that join terms. -/
def additive? (c : Char) : Option Operator :=
  if c = '+' then some add else if c = '-' then some sub else none

/-- The operators that join factors, and so bind tighter. -/
def multiplicative? (c : Char) : Option Operator :=
  if c = '*' then some mul else if c = '/' then some div else none

end Operator

/-- An expression without its parentheses, which the shape of the tree makes superfluous. -/
inductive Expression
  | literal (literal : Literal)
  | signed (negative : Bool) (operand : Expression)
  | binary (operator : Operator) (left right : Expression)
deriving DecidableEq

/-- The value of an expression: every operation is rounded by itself, operands before operators. -/
def Expression.value : Expression → Binary64
  | literal l => l.value
  | signed negative operand => if negative then operand.value.neg else operand.value
  | binary operator left right => operator.apply left.value right.value

end Reckoner
