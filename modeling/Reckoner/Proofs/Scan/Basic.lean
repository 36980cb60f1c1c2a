import Reckoner.Proofs.Grammar.Numeral
import Reckoner.Proofs.Parser.Stops

/-!
# Reading character by character

A text read from left to right by an automaton. Between two characters it knows what encloses the point that it has
reached, innermost first, and what may come next. Every character either leads it on or is a fault, whatever comes
behind. The readers of expressions call each other instead and build a tree; that both find the same faults is shown
elsewhere.
-/

namespace Reckoner

/-- What a point of a text can lie inside of. -/
inductive Enclosure
  | parenthesis (position : Nat)
  | sign
deriving DecidableEq

namespace Enclosure

def isSign : Enclosure → Bool
  | parenthesis _ => false
  | sign => true

def cost : Enclosure → Nat
  | parenthesis _ => 3
  | sign => 1

end Enclosure

def Opening.enclosure (position : Nat) : Opening → Enclosure
  | parenthesis => .parenthesis position
  | sign _ => .sign

/-- The count of what encloses a point: three for a parenthesis and one for a sign. -/
def nesting : List Enclosure → Nat
  | [] => 0
  | enclosure :: outer => nesting outer + enclosure.cost

/-- What encloses the point behind an operand, to which the signs in front of it have been applied. -/
def behindOperand (enclosing : List Enclosure) : List Enclosure := enclosing.dropWhile Enclosure.isSign

inductive Expectation
  | operand
  /-- More of a number, of which this much has been read since a position. -/
  | number (position : Nat) (first : Char) (others : List Char)
  | operator
deriving DecidableEq

/-- A point of a text that has been read as far as this point. -/
structure Scan where
  position : Nat
  enclosing : List Enclosure
  expects : Expectation
deriving DecidableEq

namespace Scan

/-- The point in front of a whole text. -/
def start : Scan := ⟨0, [], .operand⟩

def stepOperand (limit : Option Nat) (position : Nat) (enclosing : List Enclosure) (c : Char) : Except Fault Scan :=
  if Literal.isPart c then .ok ⟨position + 1, enclosing, .number position c []⟩
  else if Text.isBlank c then .ok ⟨position + 1, enclosing, .operand⟩
  else
    match Opening.ofChar? c with
    | some opening =>
      let deeper := opening.enclosure position :: enclosing
      if limit.all (nesting deeper ≤ ·) then .ok ⟨position + 1, deeper, .operand⟩
      else .error (.tooDeep position none)
    | none =>
      .error (if Parser.followsOperand c then .missingOperand position (some c) else .unexpected position c)

/-- The point behind a character that can only be a closing parenthesis. -/
def stepClosing (position : Nat) (c : Char) : List Enclosure → Except Fault Scan
  | .parenthesis _ :: outer =>
    if c = ')' then .ok ⟨position + 1, behindOperand outer, .operator⟩ else .error (.unclosedBefore position c)
  | _ => .error (.unexpected position c)

def stepOperator (position : Nat) (enclosing : List Enclosure) (c : Char) : Except Fault Scan :=
  if Text.isBlank c then .ok ⟨position + 1, enclosing, .operator⟩
  else if (Operator.additive? c).isSome || (Operator.multiplicative? c).isSome then
    .ok ⟨position + 1, enclosing, .operand⟩
  else stepClosing position c enclosing

/-- Whether what has been read of a number is one, now that it ends. -/
def endNumber (position : Nat) (first : Char) (others : List Char) : Except Fault Unit :=
  if (Literal.ofRun? (first :: others)).isSome then .ok () else .error (.malformedNumber position first others)

/-- The point behind one more character, unless the character is a fault. A number ends before the first character that
is none of a literal. -/
def step (limit : Option Nat) (scan : Scan) (c : Char) : Except Fault Scan :=
  match scan.expects with
  | .operand => stepOperand limit scan.position scan.enclosing c
  | .operator => stepOperator scan.position scan.enclosing c
  | .number position first others =>
    if Literal.isPart c then .ok ⟨scan.position + 1, scan.enclosing, .number position first (others ++ [c])⟩
    else do
      endNumber position first others
      stepOperator scan.position (behindOperand scan.enclosing) c

def finishOperator (position : Nat) : List Enclosure → Except Fault Unit
  | .parenthesis opened :: _ => .error (.unclosed opened position)
  | _ => .ok ()

/-- Whether the text may end at a point. -/
def finish (scan : Scan) : Except Fault Unit :=
  match scan.expects with
  | .operand => .error (.missingOperand scan.position none)
  | .operator => finishOperator scan.position scan.enclosing
  | .number position first others => do
    endNumber position first others
    finishOperator scan.position (behindOperand scan.enclosing)

/-- The point behind a text that goes on from a point. -/
def feed (limit : Option Nat) (scan : Scan) (text : List Char) : Except Fault Scan := text.foldlM (step limit) scan

/-- Whether a text may go on from a point to its end. -/
def run (limit : Option Nat) (scan : Scan) (text : List Char) : Except Fault Unit := feed limit scan text >>= finish

section Runs

variable {limit : Option Nat} {scan next : Scan} {c : Char} {text more : List Char}

@[simp] theorem feed_nil : feed limit scan [] = .ok scan := rfl

theorem feed_cons : feed limit scan (c :: text) = step limit scan c >>= fun next => feed limit next text :=
  List.foldlM_cons

theorem feed_append : feed limit scan (text ++ more) = feed limit scan text >>= fun next => feed limit next more :=
  List.foldlM_append

theorem run_cons : run limit scan (c :: text) = step limit scan c >>= fun next => run limit next text := by
  rw [run, feed_cons, bind_assoc]
  rfl

theorem run_append : run limit scan (text ++ more) = feed limit scan text >>= fun next => run limit next more := by
  rw [run, feed_append, bind_assoc]
  rfl

end Runs

end Scan

end Reckoner
