import Reckoner.Expression.Basic
import Reckoner.Expression.Cursor
import Reckoner.Expression.Fault
import Reckoner.Text.Blank

/-!
# Reading expressions

A reader for the grammar

    expression := term (('+' | '-') term)*
    term       := factor (('*' | '/') factor)*
    factor     := '(' expression ')' | ('-' | '+') factor | number

with blanks allowed around every token. It looks one character ahead and never goes back: every reader returns a cursor
with less text to read than it was given, which is why reading ends. How deep parentheses and signs may be nested is
limited by a count of what encloses the current character, three for a parenthesis and one for a sign.
-/

namespace Reckoner

/-- What can open an operand other than a number. -/
inductive Opening
  | parenthesis
  | sign (negative : Bool)

namespace Opening

def ofChar? (c : Char) : Option Opening :=
  if c = '(' then some parenthesis
  else if c = '-' then some (sign true)
  else if c = '+' then some (sign false)
  else none

/-- How much an opening adds to the count of nesting. -/
def cost : Opening → Nat
  | parenthesis => 3
  | sign _ => 1

end Opening

/-- An expression read from the start of some text, and the cursor behind it. -/
structure Parsed (start : Cursor) where
  tree : Expression
  after : Cursor
  shorter : after.rest.length < start.rest.length

namespace Parsed

/-- The same expression with the blanks behind it. -/
def skipBlanks {start : Cursor} (parsed : Parsed start) : Parsed start :=
  ⟨parsed.tree, parsed.after.skip Text.isBlank,
    Nat.lt_of_le_of_lt (parsed.after.length_rest_skip_le _) parsed.shorter⟩

/-- A greater expression from an earlier start, which ends where a part of it ends. -/
def within {start inner : Cursor} (parsed : Parsed inner) (tree : Expression)
    (hinner : inner.rest.length ≤ start.rest.length) : Parsed start :=
  ⟨tree, parsed.after, Nat.lt_of_lt_of_le parsed.shorter hinner⟩

/-- Two operands joined by an operator between them. -/
def join {start next : Cursor} (left : Parsed start) (operator : Operator) (right : Parsed next)
    (hnext : next.rest.length + 1 = left.after.rest.length) : Parsed start :=
  right.within (.binary operator left.tree right.tree) (by have := left.shorter; omega)

end Parsed

namespace Parser

/-- The count of nesting behind an opening with some character behind it, if the limit admits it. -/
def deepen (limit : Option Nat) (nesting : Nat) (opening : Opening) (opened : Nat) (found : Option Char) :
    Except Fault Nat :=
  let deeper := nesting + opening.cost
  if limit.all (deeper ≤ ·) then .ok deeper else .error (.tooDeep opened found)

/-- Whether a character shows that an operand was left out. -/
def followsOperand (c : Char) : Bool :=
  c == ')' || (Operator.additive? c).isSome || (Operator.multiplicative? c).isSome

/-- Reads the number at the cursor, to the end of its run of digits and points. -/
def number (start : Cursor) : Except Fault (Parsed start) :=
  match hrun : start.rest.takeWhile Literal.isPart with
  | first :: others =>
    match Literal.ofRun? (first :: others) with
    | none => .error (.malformedNumber start.position first others)
    | some literal =>
      .ok ⟨.literal literal, start.skip Literal.isPart, by
        have hlength := start.length_rest_skip Literal.isPart
        rw [hrun, List.length_cons] at hlength
        omega⟩
  | [] =>
    match start.rest with
    | [] => .error (.missingOperand start.position none)
    | found :: _ =>
      if followsOperand found then .error (.missingOperand start.position (some found))
      else .error (.unexpected start.position found)

/-- Reads the `)` behind an expression whose `(` stands at `opened`. -/
def close {start : Cursor} (opened : Nat) (inner : Parsed start) : Except Fault (Parsed start) :=
  match hrest : inner.after.rest with
  | [] => .error (.unclosed opened inner.after.position)
  | found :: rest =>
    if found = ')' then
      .ok ⟨inner.tree, ⟨inner.after.position + 1, rest⟩, by
        have hshorter := inner.shorter
        rw [hrest, List.length_cons] at hshorter
        dsimp only
        omega⟩
    else .error (.unclosedBefore inner.after.position found)

mutual

/-- Reads terms joined by `+` and `-`, and the blanks behind them. -/
def expression (limit : Option Nat) (nesting : Nat) (start : Cursor) : Except Fault (Parsed start) := do
  let first ← term limit nesting start
  sums limit nesting first
termination_by 5 * start.rest.length + 4
decreasing_by
  · omega
  · have := first.shorter
    omega

/-- Joins further terms to what has been read, from left to right. -/
def sums (limit : Option Nat) (nesting : Nat) {start : Cursor} (left : Parsed start) :
    Except Fault (Parsed start) :=
  match hnext : left.skipBlanks.after.take? Operator.additive? with
  | none => .ok left.skipBlanks
  | some (operator, next) => do
    let right ← term limit nesting next
    sums limit nesting (left.skipBlanks.join operator right (Cursor.length_rest_of_take? hnext))
termination_by 5 * left.after.rest.length + 4
decreasing_by
  all_goals
    have hlength := Cursor.length_rest_of_take? hnext
    have hblanks := left.after.length_rest_skip_le Text.isBlank
    dsimp only [Parsed.skipBlanks, Parsed.join, Parsed.within] at hlength ⊢
  · omega
  · have := right.shorter
    omega

/-- Reads factors joined by `*` and `/`, and the blanks behind them. -/
def term (limit : Option Nat) (nesting : Nat) (start : Cursor) : Except Fault (Parsed start) := do
  let first ← factor limit nesting start
  products limit nesting first
termination_by 5 * start.rest.length + 3
decreasing_by
  · omega
  · have := first.shorter
    omega

/-- Joins further factors to what has been read, from left to right. -/
def products (limit : Option Nat) (nesting : Nat) {start : Cursor} (left : Parsed start) :
    Except Fault (Parsed start) :=
  match hnext : left.skipBlanks.after.take? Operator.multiplicative? with
  | none => .ok left.skipBlanks
  | some (operator, next) => do
    let right ← factor limit nesting next
    products limit nesting (left.skipBlanks.join operator right (Cursor.length_rest_of_take? hnext))
termination_by 5 * left.after.rest.length + 4
decreasing_by
  all_goals
    have hlength := Cursor.length_rest_of_take? hnext
    have hblanks := left.after.length_rest_skip_le Text.isBlank
    dsimp only [Parsed.skipBlanks, Parsed.join, Parsed.within] at hlength ⊢
  · omega
  · have := right.shorter
    omega

/-- Reads an operand: an expression in parentheses, a signed operand or a number. -/
def factor (limit : Option Nat) (nesting : Nat) (start : Cursor) : Except Fault (Parsed start) :=
  let here := start.skip Text.isBlank
  have hhere : here.rest.length ≤ start.rest.length := start.length_rest_skip_le Text.isBlank
  match hnext : here.take? Opening.ofChar? with
  | none => do
    let operand ← number here
    return operand.within operand.tree hhere
  | some (.parenthesis, next) => do
    let deeper ← deepen limit nesting .parenthesis here.position next.rest.head?
    let inner ← expression limit deeper next
    let closed ← close here.position inner
    return closed.within closed.tree (by have := Cursor.length_rest_of_take? hnext; omega)
  | some (.sign negative, next) => do
    let deeper ← deepen limit nesting (.sign negative) here.position next.rest.head?
    let operand ← factor limit deeper next
    return operand.within (.signed negative operand.tree) (by have := Cursor.length_rest_of_take? hnext; omega)
termination_by 5 * start.rest.length + 2
decreasing_by
  all_goals
    have := Cursor.length_rest_of_take? hnext
    omega

end

end Parser

/-- Reads a whole text as an expression, with a limit to its nesting or without any. -/
def Expression.parse (limit : Option Nat) (text : String) : Except Fault Expression := do
  let parsed ← Parser.expression limit 0 (.ofText text)
  match parsed.after.rest with
  | [] => return parsed.tree
  | found :: _ => throw (.unexpected parsed.after.position found)

end Reckoner
