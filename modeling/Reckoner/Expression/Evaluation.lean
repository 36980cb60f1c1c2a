import Reckoner.Expression.Parser

/-!
# Evaluation

From a text to its value: reading gives a tree, and the tree has a value whatever it is. So a text fails to have a value
only by not being an expression, or by nesting more deeply than is read.
-/

namespace Reckoner

/-- The greatest count of nesting in a text that is evaluated, unless there is room for more or for less. -/
def nestingLimit : Nat := 1000

/-- The value of a text, or what keeps it from being an expression. Where an evaluation is asked for from inside of something
else, less room may be left for nesting. -/
def evaluate (text : String) (limit : Nat := nestingLimit) : Except Fault Binary64 :=
  (Expression.parse (some limit) text).map Expression.value

end Reckoner
