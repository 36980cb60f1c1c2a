import Reckoner.Expression.Fault

/-!
# Diagnostics

The record in which a fault is handed on: its kind, its message, the position and the character there. A diagnostic can
be made of any such parts, and its text shows them all.
-/

namespace Reckoner

structure Diagnostic where
  kind : FaultKind
  message : String
  position : Int
  char : Option String
deriving DecidableEq

namespace Diagnostic

/-- A text in quotes, or the word for its absence. -/
def quote? : Option String → String
  | none => "None"
  | some text => Text.quote text

/-- All parts of a diagnostic by name. -/
def text (diagnostic : Diagnostic) : String :=
  let kind := Text.quote diagnostic.kind.name
  let message := Text.quote diagnostic.message
  let position := diagnostic.position
  let char := quote? diagnostic.char
  s!"ParseError(kind={kind}, message={message}, position={position}, char={char})"

end Diagnostic

/-- The diagnostic of a fault. -/
def Fault.diagnostic (fault : Fault) : Diagnostic :=
  ⟨fault.kind, fault.message, fault.position, fault.char?.map Char.toString⟩

end Reckoner
