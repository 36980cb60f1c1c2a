import Reckoner.Text.Naming

/-!
# Faults

Why a text is no expression. A fault is found at the first character that no expression could have at its place, and
knows nothing of the text behind it. Nesting that is too deep is found at the opening that leads too deep, and is reported with
the character behind that. Positions count characters from zero.
-/

namespace Reckoner

/-- The four names under which faults are reported. -/
inductive FaultKind
  | unexpectedCharacter
  | unbalancedParenthesis
  | malformedNumber
  | emptyOperand
deriving DecidableEq

namespace FaultKind

def name : FaultKind → String
  | unexpectedCharacter => "unexpected-character"
  | unbalancedParenthesis => "unbalanced-parenthesis"
  | malformedNumber => "malformed-number"
  | emptyOperand => "empty-operand"

def all : List FaultKind := [unexpectedCharacter, unbalancedParenthesis, malformedNumber, emptyOperand]

def ofName (name : String) : Except UnknownName FaultKind := Text.named "ErrorKind" FaultKind.name all name

end FaultKind

inductive Fault
  /-- A character that starts no operand, or is left over behind a complete expression. -/
  | unexpected (position : Nat) (found : Char)
  /-- A character other than `)` behind a complete expression in parentheses. -/
  | unclosedBefore (position : Nat) (found : Char)
  /-- The text ends, at its length, inside the parenthesis opened last. -/
  | unclosed (opened length : Nat)
  /-- An operator, `)` or the end of the text in place of an operand. -/
  | missingOperand (position : Nat) (found : Option Char)
  /-- A run of digits and points, given by its first character and the others, that is no number. -/
  | malformedNumber (position : Nat) (first : Char) (others : List Char)
  /-- An opening behind which there are more open parentheses and pending signs than the limit admits. The place to which the
  text has been read is right behind it, where a character is found that has no part in the fault. -/
  | tooDeep (opened : Nat) (found : Option Char)
deriving DecidableEq

namespace Fault

def kind : Fault → FaultKind
  | unexpected .. => .unexpectedCharacter
  | unclosedBefore .. => .unexpectedCharacter
  | unclosed .. => .unbalancedParenthesis
  | missingOperand .. => .emptyOperand
  | malformedNumber .. => .malformedNumber
  | tooDeep .. => .unexpectedCharacter

/-- Where the fault was found. -/
def position : Fault → Nat
  | unexpected position _ => position
  | unclosedBefore position _ => position
  | unclosed _ length => length
  | missingOperand position _ => position
  | malformedNumber position _ _ => position
  | tooDeep opened _ => opened + 1

/-- The character found there, unless it was the end of the text. -/
def char? : Fault → Option Char
  | unexpected _ found => some found
  | unclosedBefore _ found => some found
  | unclosed _ _ => none
  | missingOperand _ found => found
  | malformedNumber _ first _ => some first
  | tooDeep _ found => found

/-- What was found and where, in words. -/
def describe (position : Nat) : Option Char → String
  | none => "end of input"
  | some found =>
    let shown := Text.quote found.toString
    s!"{shown} at position {position}"

def message : Fault → String
  | unexpected position found =>
    let place := describe position (some found)
    s!"Unexpected: {place}"
  | unclosedBefore position found =>
    let place := describe position (some found)
    s!"Expected ')' but found {place}"
  | unclosed opened _ => s!"Missing closing parenthesis for '(' at position {opened}"
  | missingOperand position found =>
    let place := describe position found
    s!"Expected a number, '(' or sign but found {place}"
  | malformedNumber position first others =>
    let shown := Text.quote (String.ofList (first :: others))
    s!"Malformed number {shown} at position {position}"
  | tooDeep opened _ =>
    let position := opened + 1
    s!"Expression nested too deeply at position {position}"

end Fault

end Reckoner
