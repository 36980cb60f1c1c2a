import Mathlib.Logic.Relation
import Reckoner.Proofs.Parser.Equations
import Reckoner.Proofs.Sequencing

/-!
# Calls of the readers

The readers hand cursors on to each other, and the cursor of a reader that fails is gone. Here a call of a reader is told by what
it does, one thing after the other: it consumes single characters and calls other readers, as far as the results of these let it
go. Which calls a call can make is read off that, and a call that fails lets down the call that made it.
-/

namespace Reckoner

namespace Cursor

/-- A cursor in front of the rest of a text. -/
structure On (text : List Char) (cursor : Cursor) : Prop where
  position_le : cursor.position ≤ text.length
  rest_eq : cursor.rest = text.drop cursor.position

/-- A cursor has moved on over some characters. -/
def Passes (start : Cursor) (passed : List Char) (stop : Cursor) : Prop :=
  start.rest = passed ++ stop.rest ∧ stop.position = start.position + passed.length

variable {text passed more : List Char} {start middle stop next : Cursor}

theorem On.head?_rest (hon : start.On text) : start.rest.head? = text[start.position]? := by
  rw [hon.rest_eq, List.head?_drop]

theorem Passes.refl (cursor : Cursor) : cursor.Passes [] cursor := ⟨rfl, rfl⟩

theorem Passes.trans (hfirst : start.Passes passed middle) (hsecond : middle.Passes more stop) :
    start.Passes (passed ++ more) stop := by
  refine ⟨by rw [hfirst.1, hsecond.1, List.append_assoc], ?_⟩
  rw [hsecond.2, hfirst.2, List.length_append, Nat.add_assoc]

theorem Passes.length_rest (hpasses : start.Passes passed stop) :
    start.rest.length = passed.length + stop.rest.length := by
  rw [hpasses.1, List.length_append]

theorem On.of_passes (hon : start.On text) (hpasses : start.Passes passed stop) : stop.On text where
  position_le := by
    have hlength := hpasses.length_rest
    have hstart := hon.position_le
    rw [hon.rest_eq, List.length_drop] at hlength
    rw [hpasses.2]
    omega
  rest_eq := by
    rw [hpasses.2, ← List.drop_drop, ← hon.rest_eq, hpasses.1, List.drop_left]

theorem passes_skip (p : Char → Bool) (cursor : Cursor) : cursor.Passes (cursor.rest.takeWhile p) (cursor.skip p) :=
  ⟨(takeWhile_append_rest_skip p cursor).symm, rfl⟩

theorem passes_cons (position : Nat) (c : Char) (rest : List Char) :
    Passes ⟨position, c :: rest⟩ [c] ⟨position + 1, rest⟩ :=
  ⟨rfl, rfl⟩

theorem exists_passes_of_take? {α : Type} {classify : Char → Option α} {item : α}
    (htake : start.take? classify = some (item, next)) : ∃ c, start.Passes [c] next := by
  obtain ⟨c, hrest, -, hposition⟩ := rest_eq_cons_of_take? htake
  exact ⟨c, hrest, hposition⟩

end Cursor

namespace Parser

inductive Reader
  | expression
  | sums
  | term
  | products
  | factor
  | number
deriving DecidableEq

/-- Whether a call of a reader is a turn of a loop. -/
def Reader.isLoop : Reader → Bool
  | sums | products => true
  | _ => false

/-- A call of a reader. A turn of a loop is a call too, with what has been read before it. -/
inductive Call
  | expression (nesting : Nat) (start : Cursor)
  | sums (nesting : Nat) {start : Cursor} (left : Parsed start)
  | term (nesting : Nat) (start : Cursor)
  | products (nesting : Nat) {start : Cursor} (left : Parsed start)
  | factor (nesting : Nat) (start : Cursor)
  | number (start : Cursor)

namespace Call

def reader : Call → Reader
  | expression .. => .expression
  | sums .. => .sums
  | term .. => .term
  | products .. => .products
  | factor .. => .factor
  | number .. => .number

/-- Where a call finds the cursor. -/
def start : Call → Cursor
  | expression _ start => start
  | sums _ left => left.after
  | term _ start => start
  | products _ left => left.after
  | factor _ start => start
  | number start => start

/-- What a call comes to: a fault, or the cursor behind what has been read. -/
def result (limit : Option Nat) : Call → Except Fault Cursor
  | expression nesting start => (Parser.expression limit nesting start).map Parsed.after
  | sums nesting left => (Parser.sums limit nesting left).map Parsed.after
  | term nesting start => (Parser.term limit nesting start).map Parsed.after
  | products nesting left => (Parser.products limit nesting left).map Parsed.after
  | factor nesting start => (Parser.factor limit nesting start).map Parsed.after
  | number start => (Parser.number start).map Parsed.after

end Call

inductive Action
  | consume (position : Nat)
  | call (call : Call)

/-- The consumption of some characters in a row, of which the first is at the cursor. -/
def consuming (cursor : Cursor) (count : Nat) : List Action := (List.range' cursor.position count).map .consume

/-- What is done next with a result, unless there is a fault. -/
def unlessFault {α : Type} (next : α → List Action) : Except Fault α → List Action
  | .error _ => []
  | .ok value => next value

/-- An operand is read, and then a loop is entered. -/
def operandActions {start : Cursor} (operand : Call) (read : Except Fault (Parsed start)) (loop : Parsed start → Call) :
    List Action :=
  .call operand :: unlessFault (fun parsed => [.call (loop parsed)]) read

/-- In a turn of a loop an operator is looked for behind any blanks, and if there is one, an operand is read behind it. -/
def loopActions {start : Cursor} (left : Parsed start) (classify : Char → Option Operator) (operand : Cursor → Call)
    (read : (next : Cursor) → Except Fault (Parsed next)) (loop : Parsed start → Call) : List Action :=
  consuming left.after (left.after.rest.takeWhile Text.isBlank).length ++
    match hnext : left.skipBlanks.after.take? classify with
    | none => []
    | some (operator, next) =>
      consuming left.skipBlanks.after 1 ++ operandActions (operand next) (read next) fun right =>
        loop (left.skipBlanks.join operator right (Cursor.length_rest_of_take? hnext))

/-- Behind an opening comes what it encloses, and behind that a closing parenthesis if it was a parenthesis. -/
def enclosedActions (limit : Option Nat) (opened deeper : Nat) (next : Cursor) : Opening → List Action
  | .parenthesis =>
    .call (.expression deeper next) :: unlessFault
      (fun inner => unlessFault (fun _ => consuming inner.after 1) (close opened inner)) (expression limit deeper next)
  | .sign _ => [.call (.factor deeper next)]

def factorActions (limit : Option Nat) (nesting : Nat) (start : Cursor) : List Action :=
  let here := start.skip Text.isBlank
  consuming start (start.rest.takeWhile Text.isBlank).length ++
    match here.take? Opening.ofChar? with
    | none => [.call (.number here)]
    | some (opening, next) => consuming here 1 ++
      unlessFault (fun deeper => enclosedActions limit here.position deeper next opening)
        (deepen limit nesting opening here.position next.rest.head?)

/-- What a call does itself, in order. -/
def Call.actions (limit : Option Nat) : Call → List Action
  | .expression nesting start => operandActions (.term nesting start) (Parser.term limit nesting start) (.sums nesting)
  | .sums nesting left =>
    loopActions left Operator.additive? (.term nesting) (Parser.term limit nesting) (.sums nesting)
  | .term nesting start =>
    operandActions (.factor nesting start) (Parser.factor limit nesting start) (.products nesting)
  | .products nesting left =>
    loopActions left Operator.multiplicative? (.factor nesting) (Parser.factor limit nesting) (.products nesting)
  | .factor nesting start => factorActions limit nesting start
  | .number start => consuming start (start.rest.takeWhile Literal.isPart).length

/-- One of the calls that a call makes itself. -/
def Calls (limit : Option Nat) (outer inner : Call) : Prop := .call inner ∈ outer.actions limit

variable {limit : Option Nat} {nesting : Nat} {start next : Cursor} {fault : Fault} {actions : List Action}
  {outer inner : Call}

theorem call_not_mem_consuming {cursor : Cursor} {count : Nat} : .call inner ∉ consuming cursor count := by
  simp [consuming]

theorem call_mem_consuming_append {cursor : Cursor} {count : Nat} :
    .call inner ∈ consuming cursor count ++ actions ↔ .call inner ∈ actions := by
  rw [List.mem_append, or_iff_right call_not_mem_consuming]

theorem mem_unlessFault {α : Type} {action : Action} {next : α → List Action} {read : Except Fault α} :
    action ∈ unlessFault next read ↔ ∃ value, read = .ok value ∧ action ∈ next value := by
  cases read <;> simp [unlessFault]

theorem call_mem_operandActions {read : Except Fault (Parsed start)} {operand : Call} {loop : Parsed start → Call}
    (hmem : .call inner ∈ operandActions operand read loop) :
    inner = operand ∨ ∃ parsed, read = .ok parsed ∧ inner = loop parsed := by
  rcases List.mem_cons.1 hmem with hoperand | hothers
  · exact .inl (Action.call.inj hoperand)
  · obtain ⟨parsed, hread, hloop⟩ := mem_unlessFault.1 hothers
    exact .inr ⟨parsed, hread, Action.call.inj (List.mem_singleton.1 hloop)⟩

section Loops

variable {left : Parsed start} {classify : Char → Option Operator} {operator : Operator} {operand : Cursor → Call}
  {read : (next : Cursor) → Except Fault (Parsed next)} {loop : Parsed start → Call}

theorem loopActions_of_none (hnext : left.skipBlanks.after.take? classify = none) :
    loopActions left classify operand read loop =
      consuming left.after (left.after.rest.takeWhile Text.isBlank).length := by
  unfold loopActions
  split
  · rw [List.append_nil]
  · rename_i hsome
    rw [hnext] at hsome
    exact absurd hsome (by simp)

theorem loopActions_of_some (hnext : left.skipBlanks.after.take? classify = some (operator, next)) :
    loopActions left classify operand read loop =
      consuming left.after (left.after.rest.takeWhile Text.isBlank).length ++ (consuming left.skipBlanks.after 1 ++
        operandActions (operand next) (read next) fun right =>
          loop (left.skipBlanks.join operator right (Cursor.length_rest_of_take? hnext))) := by
  unfold loopActions
  split
  · rename_i hnone
    rw [hnext] at hnone
    exact absurd hnone (by simp)
  · rename_i hsome
    obtain ⟨rfl, rfl⟩ := Prod.mk.inj (Option.some.inj (hnext.symm.trans hsome))
    rfl

theorem call_mem_loopActions (hmem : .call inner ∈ loopActions left classify operand read loop) :
    ∃ operator next, ∃ hnext : left.skipBlanks.after.take? classify = some (operator, next),
      .call inner ∈ operandActions (operand next) (read next) fun right =>
        loop (left.skipBlanks.join operator right (Cursor.length_rest_of_take? hnext)) := by
  obtain hnext | ⟨⟨operator, next⟩, hnext⟩ := Option.eq_none_or_eq_some (left.skipBlanks.after.take? classify)
  · rw [loopActions_of_none hnext] at hmem
    exact absurd hmem call_not_mem_consuming
  · rw [loopActions_of_some hnext, call_mem_consuming_append, call_mem_consuming_append] at hmem
    exact ⟨operator, next, hnext, hmem⟩

end Loops

theorem factorActions_of_none (hnext : (start.skip Text.isBlank).take? Opening.ofChar? = none) :
    factorActions limit nesting start = consuming start (start.rest.takeWhile Text.isBlank).length ++
      [.call (.number (start.skip Text.isBlank))] := by
  unfold factorActions
  dsimp only
  rw [hnext]

theorem factorActions_of_some {opening : Opening}
    (hnext : (start.skip Text.isBlank).take? Opening.ofChar? = some (opening, next)) :
    factorActions limit nesting start = consuming start (start.rest.takeWhile Text.isBlank).length ++
      (consuming (start.skip Text.isBlank) 1 ++
        unlessFault (fun deeper => enclosedActions limit (start.skip Text.isBlank).position deeper next opening)
          (deepen limit nesting opening (start.skip Text.isBlank).position next.rest.head?)) := by
  unfold factorActions
  dsimp only
  rw [hnext]

theorem call_mem_enclosedActions {opened deeper : Nat} {opening : Opening}
    (hmem : .call inner ∈ enclosedActions limit opened deeper next opening) :
    opening = .parenthesis ∧ inner = .expression deeper next ∨
      ∃ negative, opening = .sign negative ∧ inner = .factor deeper next := by
  cases opening with
  | sign negative => exact .inr ⟨negative, rfl, Action.call.inj (List.mem_singleton.1 hmem)⟩
  | parenthesis =>
    rcases List.mem_cons.1 hmem with hexpression | hothers
    · exact .inl ⟨rfl, Action.call.inj hexpression⟩
    · -- behind what a parenthesis encloses, nothing is called
      obtain ⟨_, -, hclose⟩ := mem_unlessFault.1 hothers
      obtain ⟨_, -, hconsuming⟩ := mem_unlessFault.1 hclose
      exact absurd hconsuming call_not_mem_consuming

theorem call_mem_factorActions (hmem : .call inner ∈ factorActions limit nesting start) :
    (start.skip Text.isBlank).take? Opening.ofChar? = none ∧ inner = .number (start.skip Text.isBlank) ∨
      ∃ opening next deeper, (start.skip Text.isBlank).take? Opening.ofChar? = some (opening, next) ∧
        deepen limit nesting opening (start.skip Text.isBlank).position next.rest.head? = .ok deeper ∧
        (opening = .parenthesis ∧ inner = .expression deeper next ∨
          ∃ negative, opening = .sign negative ∧ inner = .factor deeper next) := by
  cases hnext : (start.skip Text.isBlank).take? Opening.ofChar? with
  | none =>
    rw [factorActions_of_none hnext, call_mem_consuming_append] at hmem
    exact .inl ⟨rfl, Action.call.inj (List.mem_singleton.1 hmem)⟩
  | some taken =>
    obtain ⟨opening, next⟩ := taken
    rw [factorActions_of_some hnext, call_mem_consuming_append, call_mem_consuming_append] at hmem
    obtain ⟨deeper, hdeepen, henclosed⟩ := mem_unlessFault.1 hmem
    exact .inr ⟨opening, next, deeper, rfl, hdeepen, call_mem_enclosedActions henclosed⟩

/-! ### Faults -/

theorem bind_eq_error_of_operandActions {read : Except Fault (Parsed start)} {operand : Call} {loop : Parsed start → Call}
    (hmem : .call inner ∈ operandActions operand read loop) (hresult : operand.result limit = read.map Parsed.after)
    (hfault : inner.result limit = .error fault) :
    (read >>= fun parsed => (loop parsed).result limit) = .error fault := by
  rw [bind_eq_error_iff]
  rcases call_mem_operandActions hmem with rfl | ⟨parsed, hread, rfl⟩
  · rw [hresult, map_eq_error_iff] at hfault
    exact .inl hfault
  · exact .inr ⟨parsed, hread, hfault⟩

/-- What goes wrong in a call goes wrong in the same way in the call that made it. -/
theorem result_eq_error_of_calls (hcalls : Calls limit outer inner) (hfault : inner.result limit = .error fault) :
    outer.result limit = .error fault := by
  cases outer with
  | expression nesting start =>
    change (expression limit nesting start).map Parsed.after = _
    rw [expression_eq, map_bind_eq]
    exact bind_eq_error_of_operandActions hcalls rfl hfault
  | sums nesting left =>
    obtain ⟨operator, next, hnext, hmem⟩ := call_mem_loopActions hcalls
    change (sums limit nesting left).map Parsed.after = _
    rw [sums_of_some hnext, map_bind_eq]
    exact bind_eq_error_of_operandActions hmem rfl hfault
  | term nesting start =>
    change (term limit nesting start).map Parsed.after = _
    rw [term_eq, map_bind_eq]
    exact bind_eq_error_of_operandActions hcalls rfl hfault
  | products nesting left =>
    obtain ⟨operator, next, hnext, hmem⟩ := call_mem_loopActions hcalls
    change (products limit nesting left).map Parsed.after = _
    rw [products_of_some hnext, map_bind_eq]
    exact bind_eq_error_of_operandActions hmem rfl hfault
  | factor nesting start =>
    change (factor limit nesting start).map Parsed.after = _
    rw [map_eq_error_iff]
    obtain ⟨hnext, rfl⟩ | ⟨opening, next, deeper, hnext, hdeepen, hopening⟩ := call_mem_factorActions hcalls
    · rw [factor_of_none hnext, map_eq_error_iff.1 hfault, error_bind]
    · obtain ⟨rfl, rfl⟩ | ⟨negative, rfl, rfl⟩ := hopening
      · rw [factor_of_parenthesis hnext, hdeepen, ok_bind, map_eq_error_iff.1 hfault, error_bind]
      · rw [factor_of_sign hnext, hdeepen, ok_bind, map_eq_error_iff.1 hfault, error_bind]
  | number start => exact absurd hcalls call_not_mem_consuming

/-- No fault is recovered from, however deep in a call it is found. -/
theorem result_eq_error_of_transGen (hcalls : Relation.TransGen (Calls limit) outer inner)
    (hfault : inner.result limit = .error fault) : outer.result limit = .error fault := by
  induction hcalls with
  | single hcalls => exact result_eq_error_of_calls hcalls hfault
  | tail _ hcalls ih => exact ih (result_eq_error_of_calls hcalls hfault)

end Parser

end Reckoner
