import Reckoner.Text.Quoted

/-!
# Names

Values of small types are given by name in requests. A name has to match exactly.
-/

namespace Reckoner

/-- A name that none of the values it could stand for has. -/
structure UnknownName where
  name : String
  noun : String
deriving DecidableEq

def UnknownName.message (unknown : UnknownName) : String :=
  let shown := Text.quote unknown.name
  let noun := unknown.noun
  s!"{shown} is not a valid {noun}"

/-- The value with the given name among some values that a noun comprises. -/
def Text.named {α : Type} (noun : String) (nameOf : α → String) (values : List α) (name : String) :
    Except UnknownName α :=
  match values.find? (nameOf · == name) with
  | some value => .ok value
  | none => .error ⟨name, noun⟩

end Reckoner
