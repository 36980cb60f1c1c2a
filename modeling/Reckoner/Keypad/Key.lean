import Reckoner.Expression.Basic

/-!
# Keys

The sixteen keys of the keypad and their arrangement. Every key has a label of one character.
-/

namespace Reckoner

inductive Key
  | digit (value : Fin 10)
  | point
  | operator (symbol : Operator)
  | equals
deriving DecidableEq

namespace Key

def label : Key → Char
  | digit value => value.val.digitChar
  | point => '.'
  | operator .add => '+'
  | operator .sub => '-'
  | operator .mul => '*'
  | operator .div => '/'
  | equals => '='

/-- The keys row by row, as they are drawn. -/
def layout : List (List Key) := [
  [digit 7, digit 8, digit 9, operator .div],
  [digit 4, digit 5, digit 6, operator .mul],
  [digit 1, digit 2, digit 3, operator .sub],
  [digit 0, point, equals, operator .add]]

def all : List Key := layout.flatten

theorem mem_all (key : Key) : key ∈ all := by
  rcases key with value | _ | symbol | _
  · exact (by decide : ∀ value, digit value ∈ all) value
  · decide
  · cases symbol <;> decide
  · decide

/-- The key with the given label. -/
def ofChar? (c : Char) : Option Key := all.find? (·.label == c)

theorem ofChar?_label (key : Key) : ofChar? key.label = some key := by
  rcases key with value | _ | symbol | _
  · exact (by decide : ∀ value, ofChar? (digit value).label = some (digit value)) value
  · decide
  · cases symbol <;> decide
  · decide

theorem label_of_ofChar? {c : Char} {key : Key} (hkey : ofChar? c = some key) : key.label = c := by
  simpa using List.find?_some hkey

/-- The key that a text names as its label. -/
def ofLabel? (text : String) : Option Key :=
  match text.toList with
  | [c] => ofChar? c
  | _ => none

/-- The keys of which only one can stand in a place: a further one replaces it. The point is one of them. -/
def isJoint : Key → Bool
  | point => true
  | operator _ => true
  | _ => false

/-- Whether a character is the label of a key that a further one replaces. -/
def isJointLabel (c : Char) : Bool := (ofChar? c).any isJoint

end Key

end Reckoner
