import Reckoner.Proofs.Parser.Calls
import Reckoner.Proofs.Parser.Stops

/-!
# Runs of the calls

Everything that a call does, and that is done by the calls it makes, is done with one cursor, which nothing moves but the
consumption of the character at it. Every call has such a run, so the readers get along with one cursor. The run ends behind what
has been read, or where the fault was found.
-/

namespace Reckoner

/-- A fault leaves the cursor at the character that it names, or behind the run of digits and points that is no number. -/
def Fault.LeftAt (stop : Cursor) : Fault → Prop
  | .malformedNumber position _ others => stop.position = position + (others.length + 1)
  | fault => fault.position = stop.position ∧ fault.char? = stop.rest.head?

namespace Parser

/-- Some actions are done with one cursor, by which they consume the characters at some positions. A call does its own actions
with the cursor as it finds it. -/
inductive Runs (limit : Option Nat) : Cursor → List Action → List Nat → Cursor → Prop
  | done {cursor : Cursor} : Runs limit cursor [] [] cursor
  | consume {position : Nat} {c : Char} {rest : List Char} {actions : List Action} {consumed : List Nat} {stop : Cursor}
      (hrest : Runs limit ⟨position + 1, rest⟩ actions consumed stop) :
      Runs limit ⟨position, c :: rest⟩ (.consume position :: actions) (position :: consumed) stop
  | call {start middle stop : Cursor} {call : Call} {actions : List Action} {inner consumed : List Nat}
      (hstart : call.start = start) (hcall : Runs limit start (call.actions limit) inner middle)
      (hrest : Runs limit middle actions consumed stop) :
      Runs limit start (.call call :: actions) (inner ++ consumed) stop

variable {limit : Option Nat} {start middle stop last next : Cursor} {passed : List Char} {actions others : List Action}
  {consumed more : List Nat} {result : Except Fault Cursor} {outer inner : Call}

theorem Runs.append (hfirst : Runs limit start actions consumed middle) (hothers : Runs limit middle others more stop) :
    Runs limit start (actions ++ others) (consumed ++ more) stop := by
  induction hfirst with
  | done => exact hothers
  | consume _ ih => exact .consume (ih hothers)
  | call hstart hcall _ _ ih =>
    rw [List.append_assoc]
    exact .call hstart hcall (ih hothers)

/-- A run passes the characters that it consumes, in their order and without a gap. -/
theorem Runs.exists_passes (hruns : Runs limit start actions consumed stop) :
    ∃ passed, start.Passes passed stop ∧ consumed = List.range' start.position passed.length := by
  induction hruns with
  | done => exact ⟨[], .refl _, rfl⟩
  | @consume position c _ _ _ _ _ ih =>
    obtain ⟨passed, hpasses, hconsumed⟩ := ih
    refine ⟨c :: passed, (Cursor.passes_cons position c _).trans hpasses, ?_⟩
    rw [hconsumed, List.length_cons, List.range'_succ]
  | call _ _ _ ihcall ihrest =>
    obtain ⟨passed, hcall, hinner⟩ := ihcall
    obtain ⟨more, hrest, hconsumed⟩ := ihrest
    refine ⟨passed ++ more, hcall.trans hrest, ?_⟩
    rw [hinner, hconsumed, hcall.2, List.length_append, List.range'_append_1]

theorem Runs.stop_unique (hruns : Runs limit start actions consumed stop) (hother : Runs limit start actions more last) :
    last = stop := by
  induction hruns generalizing more last with
  | done =>
    cases hother
    rfl
  | consume _ ih =>
    cases hother with
    | consume hrest => exact ih hrest
  | call _ _ _ ihcall ihrest =>
    cases hother with
    | call _ hcall hrest =>
      obtain rfl := ihcall hcall
      exact ihrest hrest

theorem Runs.exists_passes_of_mem (hruns : Runs limit start actions consumed stop) (hmem : .call inner ∈ actions) :
    ∃ passed, start.Passes passed inner.start := by
  induction hruns with
  | done => exact absurd hmem List.not_mem_nil
  | @consume position c _ _ _ _ _ ih =>
    obtain ⟨passed, hpasses⟩ := ih ((List.mem_cons.1 hmem).resolve_left nofun)
    exact ⟨_, (Cursor.passes_cons position c _).trans hpasses⟩
  | call hstart hcall _ _ ihrest =>
    rcases List.mem_cons.1 hmem with hhead | htail
    · obtain rfl := Action.call.inj hhead
      exact ⟨[], hstart ▸ .refl _⟩
    · obtain ⟨_, hfirst, -⟩ := hcall.exists_passes
      obtain ⟨_, hpasses⟩ := ihrest htail
      exact ⟨_, hfirst.trans hpasses⟩

theorem runs_consuming (limit : Option Nat) (hpasses : start.Passes passed stop) :
    Runs limit start (consuming start passed.length) (List.range' start.position passed.length) stop := by
  induction passed generalizing start with
  | nil =>
    have hsame : start = stop := by
      obtain ⟨position, rest⟩ := start
      obtain ⟨rfl, rfl⟩ : rest = stop.rest ∧ stop.position = position := hpasses
      rfl
    exact hsame ▸ .done
  | cons c passed ih =>
    obtain ⟨position, rest⟩ := start
    obtain ⟨rfl, hposition⟩ : rest = c :: (passed ++ stop.rest) ∧ stop.position = position + (c :: passed).length := hpasses
    have hrest : Cursor.Passes ⟨position + 1, passed ++ stop.rest⟩ passed stop :=
      ⟨rfl, by rw [hposition, List.length_cons, Nat.add_right_comm, Nat.add_assoc]⟩
    exact .consume (ih hrest)

/-! ### Every call has a run -/

/-- The cursor stands where a result says. -/
def StopsAt (stop : Cursor) : Except Fault Cursor → Prop
  | .ok after => after = stop
  | .error fault => fault.LeftAt stop

/-- Some actions can be run with the cursor as it stands, up to where a result says. -/
def Finishes (limit : Option Nat) (start : Cursor) (actions : List Action) (result : Except Fault Cursor) : Prop :=
  ∃ consumed stop, Runs limit start actions consumed stop ∧ StopsAt stop result

def Call.Finishes (limit : Option Nat) (call : Call) : Prop :=
  Parser.Finishes limit call.start (call.actions limit) (call.result limit)

theorem finishes_nil (hstops : StopsAt start result) : Finishes limit start [] result := ⟨[], start, .done, hstops⟩

theorem finishes_consuming (hpasses : start.Passes passed stop) (hstops : StopsAt stop result) :
    Finishes limit start (consuming start passed.length) result :=
  ⟨_, stop, runs_consuming limit hpasses, hstops⟩

theorem Finishes.consuming_append (hpasses : start.Passes passed middle) (hrest : Finishes limit middle actions result) :
    Finishes limit start (consuming start passed.length ++ actions) result := by
  obtain ⟨_, stop, hruns, hstops⟩ := hrest
  exact ⟨_, stop, (runs_consuming limit hpasses).append hruns, hstops⟩

/-- A call is followed by what is done with its result. -/
theorem Call.Finishes.append {α : Type} {call : Call} {read : Except Fault α} {after : α → Cursor} {next : α → List Action}
    {rest : α → Except Fault Cursor} (hcall : call.Finishes limit) (hresult : call.result limit = read.map after)
    (hnext : ∀ value, Parser.Finishes limit (after value) (next value) (rest value)) :
    Parser.Finishes limit call.start (.call call :: unlessFault next read) (read >>= rest) := by
  obtain ⟨_, middle, hruns, hstops⟩ := hcall
  rw [hresult] at hstops
  cases read with
  | error fault => exact ⟨_, middle, .call rfl hruns .done, hstops⟩
  | ok value =>
    obtain rfl : after value = middle := hstops
    obtain ⟨_, stop, hrest, hstop⟩ := hnext value
    exact ⟨_, stop, .call rfl hruns hrest, hstop⟩

theorem Call.Finishes.singleton {call : Call} (hcall : call.Finishes limit) :
    Parser.Finishes limit call.start [.call call] (call.result limit) := by
  obtain ⟨_, stop, hruns, hstops⟩ := hcall
  exact ⟨_, stop, .call rfl hruns .done, hstops⟩

theorem finishes_operandActions {operand : Call} {read : Except Fault (Parsed start)} {loop : Parsed start → Call}
    (hoperand : operand.Finishes limit) (hresult : operand.result limit = read.map Parsed.after)
    (hloop : ∀ parsed, (loop parsed).start = parsed.after ∧ (loop parsed).Finishes limit) :
    Finishes limit operand.start (operandActions operand read loop) (read >>= fun parsed => (loop parsed).result limit) :=
  hoperand.append hresult fun parsed => (hloop parsed).1 ▸ (hloop parsed).2.singleton

section Loops

variable {left : Parsed start} {classify : Char → Option Operator} {operator : Operator} {operand : Cursor → Call}
  {read : (next : Cursor) → Except Fault (Parsed next)} {loop : Parsed start → Call}

theorem finishes_loopActions_of_none (hnext : left.skipBlanks.after.take? classify = none) :
    Finishes limit left.after (loopActions left classify operand read loop) (.ok left.skipBlanks.after) := by
  rw [loopActions_of_none hnext]
  exact finishes_consuming (left.after.passes_skip Text.isBlank) rfl

theorem finishes_loopActions_of_some (hnext : left.skipBlanks.after.take? classify = some (operator, next))
    (hfinishes : Finishes limit next (operandActions (operand next) (read next) fun right =>
      loop (left.skipBlanks.join operator right (Cursor.length_rest_of_take? hnext))) result) :
    Finishes limit left.after (loopActions left classify operand read loop) result := by
  obtain ⟨c, hpasses⟩ := Cursor.exists_passes_of_take? hnext
  rw [loopActions_of_some hnext]
  exact (hfinishes.consuming_append hpasses).consuming_append (left.after.passes_skip Text.isBlank)

end Loops

theorem finishes_number (limit : Option Nat) (start : Cursor) : (Call.number start).Finishes limit := by
  have hpasses := start.passes_skip Literal.isPart
  refine finishes_consuming hpasses ?_
  change StopsAt (start.skip Literal.isPart) ((number start).map Parsed.after)
  cases hrun : start.rest.takeWhile Literal.isPart with
  | cons first others =>
    rw [hrun] at hpasses
    cases hread : Literal.ofRun? (first :: others) with
    | none =>
      rw [number_of_malformed hrun hread]
      exact hpasses.2
    | some literal =>
      obtain ⟨parsed, hnumber, -, hafter⟩ := number_of_literal hrun hread
      rw [hnumber]
      exact hafter
  | nil =>
    have hhead := Cursor.head_of_takeWhile_eq_nil hrun
    rw [Cursor.skip_of_head hhead]
    cases hrest : start.rest with
    | nil =>
      rw [number_of_end hrest]
      exact ⟨rfl, by rw [hrest]; rfl⟩
    | cons found rest =>
      rw [number_of_other hrest (hhead found (by rw [hrest]; rfl))]
      split
      · exact ⟨rfl, by rw [hrest]; rfl⟩
      · exact ⟨rfl, by rw [hrest]; rfl⟩

theorem finishes_close (opened : Nat) (inner : Parsed start) :
    Finishes limit inner.after (unlessFault (fun _ => consuming inner.after 1) (close opened inner))
      ((close opened inner).map Parsed.after) := by
  cases hrest : inner.after.rest with
  | nil =>
    rw [close_of_end hrest]
    exact finishes_nil ⟨rfl, by rw [hrest]; rfl⟩
  | cons found rest =>
    by_cases hfound : found = ')'
    · subst hfound
      obtain ⟨closed, hclose, -, hafter⟩ := close_of_closing opened hrest
      rw [hclose]
      have hpasses : inner.after.Passes [')'] ⟨inner.after.position + 1, rest⟩ := ⟨hrest, rfl⟩
      exact finishes_consuming hpasses hafter
    · rw [close_of_other hrest hfound]
      exact finishes_nil ⟨rfl, by rw [hrest]; rfl⟩

/-- Behind an opening the actions of a factor come to its result if what is enclosed does. -/
theorem finishes_factor_of_some {nesting : Nat} {opening : Opening} {enclosed : Nat → Except Fault Cursor}
    (hnext : (start.skip Text.isBlank).take? Opening.ofChar? = some (opening, next))
    (henclosed : ∀ deeper, Finishes limit next
      (enclosedActions limit (start.skip Text.isBlank).position deeper next opening) (enclosed deeper)) :
    Finishes limit start (factorActions limit nesting start)
      (deepen limit nesting opening (start.skip Text.isBlank).position next.rest.head? >>= enclosed) := by
  obtain ⟨c, hpasses⟩ := Cursor.exists_passes_of_take? hnext
  rw [factorActions_of_some hnext]
  refine Finishes.consuming_append (start.passes_skip Text.isBlank) (Finishes.consuming_append hpasses ?_)
  cases hdeepen : deepen limit nesting opening (start.skip Text.isBlank).position next.rest.head? with
  | error fault =>
    obtain rfl := deepen_eq_error hdeepen
    exact finishes_nil ⟨hpasses.2.symm, rfl⟩
  | ok deeper => exact henclosed deeper

theorem calls_finish (limit : Option Nat) :
    (∀ nesting start, (Call.expression nesting start).Finishes limit) ∧
    (∀ nesting start (left : Parsed start), (Call.sums nesting left).Finishes limit) ∧
    (∀ nesting start, (Call.term nesting start).Finishes limit) ∧
    (∀ nesting start (left : Parsed start), (Call.products nesting left).Finishes limit) ∧
    ∀ nesting start, (Call.factor nesting start).Finishes limit := by
  -- in order: an expression, its loop at the end and at an operator, a term, its loop likewise, and the three factors
  apply expression.mutual_induct
  case case1 =>
    intro nesting start hterm hsums
    change Finishes limit start (operandActions _ _ _) ((expression limit nesting start).map Parsed.after)
    rw [expression_eq, map_bind_eq]
    exact finishes_operandActions hterm rfl fun first => ⟨rfl, hsums first⟩
  case case2 =>
    intro nesting start left hnext
    change Finishes limit left.after (loopActions _ _ _ _ _) ((sums limit nesting left).map Parsed.after)
    rw [sums_of_none hnext]
    exact finishes_loopActions_of_none hnext
  case case3 =>
    intro nesting start left operator next hnext hterm hsums
    change Finishes limit left.after (loopActions _ _ _ _ _) ((sums limit nesting left).map Parsed.after)
    rw [sums_of_some hnext, map_bind_eq]
    exact finishes_loopActions_of_some hnext (finishes_operandActions hterm rfl fun right => ⟨rfl, hsums right⟩)
  case case4 =>
    intro nesting start hfactor hproducts
    change Finishes limit start (operandActions _ _ _) ((term limit nesting start).map Parsed.after)
    rw [term_eq, map_bind_eq]
    exact finishes_operandActions hfactor rfl fun first => ⟨rfl, hproducts first⟩
  case case5 =>
    intro nesting start left hnext
    change Finishes limit left.after (loopActions _ _ _ _ _) ((products limit nesting left).map Parsed.after)
    rw [products_of_none hnext]
    exact finishes_loopActions_of_none hnext
  case case6 =>
    intro nesting start left operator next hnext hfactor hproducts
    change Finishes limit left.after (loopActions _ _ _ _ _) ((products limit nesting left).map Parsed.after)
    rw [products_of_some hnext, map_bind_eq]
    exact finishes_loopActions_of_some hnext (finishes_operandActions hfactor rfl fun right => ⟨rfl, hproducts right⟩)
  case case7 =>
    intro nesting start here _ hnext
    change Finishes limit start (factorActions limit nesting start) ((factor limit nesting start).map Parsed.after)
    rw [factor_of_none hnext, map_bind_eq, factorActions_of_none hnext]
    exact (finishes_number limit here).singleton.consuming_append (start.passes_skip Text.isBlank)
  case case8 =>
    intro nesting start here _ next hnext hexpression
    change Finishes limit start (factorActions limit nesting start) ((factor limit nesting start).map Parsed.after)
    rw [factor_of_parenthesis hnext, map_bind_eq]
    refine finishes_factor_of_some hnext fun deeper => ?_
    rw [map_bind_eq]
    refine (hexpression deeper).append rfl fun inner => ?_
    rw [map_bind_eq]
    exact finishes_close here.position inner
  case case9 =>
    intro nesting start here _ negative next hnext hfactor
    change Finishes limit start (factorActions limit nesting start) ((factor limit nesting start).map Parsed.after)
    rw [factor_of_sign hnext, map_bind_eq]
    refine finishes_factor_of_some hnext fun deeper => ?_
    rw [map_bind_eq]
    exact (hfactor deeper).singleton

theorem call_finishes (limit : Option Nat) : ∀ call : Call, call.Finishes limit
  | .expression nesting start => (calls_finish limit).1 nesting start
  | .sums nesting left => (calls_finish limit).2.1 nesting _ left
  | .term nesting start => (calls_finish limit).2.2.1 nesting start
  | .products nesting left => (calls_finish limit).2.2.2.1 nesting _ left
  | .factor nesting start => (calls_finish limit).2.2.2.2 nesting start
  | .number start => finishes_number limit start

theorem stopsAt_of_runs (hruns : Runs limit outer.start (outer.actions limit) consumed stop) :
    StopsAt stop (outer.result limit) := by
  obtain ⟨_, last, hlast, hstops⟩ := call_finishes limit outer
  obtain rfl := hruns.stop_unique hlast
  exact hstops

end Parser

end Reckoner
