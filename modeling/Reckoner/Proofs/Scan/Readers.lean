import Reckoner.Expression.Evaluation
import Reckoner.Proofs.Scan.Steps

/-!
# The automaton finds what the readers find

What is left of a text may be read by the automaton, or by a reader first and by the automaton from where the reader
stops: the outcome is the same. So a whole text is an expression exactly if the automaton gets through it, and otherwise
both report the same fault. The induction is on the calls of the readers; a reader at some count of nesting stands at
any point that is enclosed by as much.

The automaton never looks ahead. So it knows of nesting that is too deep when it has seen the opening, but not which character
is behind it.
-/

namespace Reckoner

/-- What is known of a fault without looking at the character behind an opening. -/
def Fault.withoutNext : Fault → Fault
  | tooDeep opened _ => tooDeep opened none
  | fault => fault

namespace Parser

open Scan

variable {limit : Option Nat} {enclosing : List Enclosure}

/-- The automaton goes on from a point as a reader does, and then from where the reader stops. -/
def Agrees {start : Cursor} (limit : Option Nat) (point behind : List Enclosure) (expects : Expectation)
    (cursor : Cursor) (outcome : Except Fault (Parsed start)) : Prop :=
  run limit ⟨cursor.position, point, expects⟩ cursor.rest =
    outcome.mapError Fault.withoutNext >>= fun parsed => run limit ⟨parsed.after.position, behind, .operator⟩ parsed.after.rest

theorem number_agrees (start : Cursor) (hblank : ∀ c ∈ start.rest.head?, Text.isBlank c = false)
    (hopening : start.take? Opening.ofChar? = none) :
    Agrees limit enclosing (behindOperand enclosing) .operand start (number start) := by
  unfold Agrees
  cases hrun : start.rest.takeWhile Literal.isPart with
  | nil =>
    cases hrest : start.rest with
    | nil =>
      rw [number_of_end hrest]
      rfl
    | cons found rest =>
      have hpart := Cursor.head_of_takeWhile_eq_nil hrun found (by rw [hrest]; rfl)
      rw [hrest] at hblank
      have hnone : Opening.ofChar? found = none := Cursor.take?_eq_none_iff.1 hopening found (by rw [hrest]; rfl)
      rw [run_cons, step_operand_other hpart (hblank found rfl) hnone, number_of_other hrest hpart]
      split <;> rfl
  | cons first others =>
    have hsplit := start.takeWhile_append_rest_skip Literal.isPart
    rw [hrun, List.cons_append] at hsplit
    have hpart : Literal.isPart first := List.mem_takeWhile_imp (hrun ▸ List.mem_cons_self)
    have hothers : (others ++ (start.skip Literal.isPart).rest).takeWhile Literal.isPart = others ∧
        (others ++ (start.skip Literal.isPart).rest).dropWhile Literal.isPart = (start.skip Literal.isPart).rest := by
      have htake := hrun
      have hdrop : start.rest.dropWhile Literal.isPart = (start.skip Literal.isPart).rest := rfl
      rw [← hsplit, List.takeWhile_cons_of_pos hpart] at htake
      rw [← hsplit, List.dropWhile_cons_of_pos hpart] at hdrop
      exact ⟨(List.cons.inj htake).2, hdrop⟩
    have hstop := start.head_skip Literal.isPart
    rw [← hsplit, run_cons, step_operand_part hpart, ok_bind, run_number, hothers.1, hothers.2, List.nil_append]
    cases hread : Literal.ofRun? (first :: others) with
    | none =>
      rw [run_malformed hstop hread, number_of_malformed hrun hread]
      rfl
    | some literal =>
      obtain ⟨parsed, hnumber, -, hafter⟩ := number_of_literal hrun hread
      rw [run_complete hstop (Option.isSome_of_eq_some hread), hnumber, mapError_ok, ok_bind, hafter, Cursor.skip, hrun,
        List.length_cons, Nat.add_right_comm, Nat.add_assoc]

/-- Behind an expression in parentheses the automaton takes what the reader takes for the closing one. -/
theorem close_agrees {start : Cursor} {opened : Nat} {inner : Parsed start}
    (hends : ∀ c ∈ inner.after.rest.head?, EndsExpression c) :
    Agrees limit (.parenthesis opened :: enclosing) (behindOperand enclosing) .operator inner.after
      (close opened inner) := by
  unfold Agrees
  cases hrest : inner.after.rest with
  | nil =>
    rw [close_of_end hrest]
    rfl
  | cons found rest =>
    rw [hrest] at hends
    by_cases hfound : found = ')'
    · subst hfound
      obtain ⟨closed, hclose, -, hafter⟩ := close_of_closing opened hrest
      rw [run_cons, step_operator_closing, hclose, mapError_ok, ok_bind, ok_bind, hafter]
    · rw [run_cons, step_operator_unclosed (hends found rfl) hfound, close_of_other hrest hfound]
      rfl

theorem mapError_deepen (limit : Option Nat) (nesting : Nat) (opening : Opening) (opened : Nat) (found : Option Char) :
    (deepen limit nesting opening opened found).mapError Fault.withoutNext = deepen limit nesting opening opened none := by
  unfold deepen
  dsimp only
  split <;> rfl

theorem run_opening {start next : Cursor} {opening : Opening}
    (hnext : (start.skip Text.isBlank).take? Opening.ofChar? = some (opening, next)) :
    run limit ⟨(start.skip Text.isBlank).position, enclosing, .operand⟩ (start.skip Text.isBlank).rest =
      deepen limit (nesting enclosing) opening (start.skip Text.isBlank).position none >>= fun _ =>
        run limit ⟨next.position, opening.enclosure (start.skip Text.isBlank).position :: enclosing, .operand⟩
          next.rest := by
  obtain ⟨c, hrest, hopening, hposition⟩ := Cursor.rest_eq_cons_of_take? hnext
  have hblank := start.isBlank_of_head_skip c (by rw [hrest]; rfl)
  have hpart := Opening.not_isPart_of_ofChar? hopening
  rw [hrest, run_cons, step_operand_opening hpart hblank hopening, bind_assoc, hposition]
  rfl

theorem run_joining {start next : Cursor} {left : Parsed start} {classify : Char → Option Operator}
    {operator : Operator} (hnext : left.skipBlanks.after.take? classify = some (operator, next))
    (hoperator : ∀ c operator, classify c = some operator →
      (Operator.additive? c).isSome ∨ (Operator.multiplicative? c).isSome) :
    run limit ⟨left.after.position, enclosing, .operator⟩ left.after.rest =
      run limit ⟨next.position, enclosing, .operand⟩ next.rest := by
  obtain ⟨c, hrest, hclassify, hposition⟩ := Cursor.rest_eq_cons_of_take? hnext
  change (left.after.skip Text.isBlank).rest = c :: next.rest at hrest
  change next.position = (left.after.skip Text.isBlank).position + 1 at hposition
  have hblank := left.after.isBlank_of_head_skip c (by rw [hrest]; rfl)
  rw [run_skip_operator, hrest, run_cons, step_operator_operator hblank (hoperator c operator hclassify), ok_bind,
    hposition]

theorem readers_agree (limit : Option Nat) :
    (∀ nesting start, ∀ enclosing, behindOperand enclosing = enclosing → Reckoner.nesting enclosing = nesting →
      Agrees limit enclosing enclosing .operand start (expression limit nesting start)) ∧
    (∀ nesting start (left : Parsed start), ∀ enclosing, behindOperand enclosing = enclosing →
      Reckoner.nesting enclosing = nesting →
        Agrees limit enclosing enclosing .operator left.after (sums limit nesting left)) ∧
    (∀ nesting start, ∀ enclosing, behindOperand enclosing = enclosing → Reckoner.nesting enclosing = nesting →
      Agrees limit enclosing enclosing .operand start (term limit nesting start)) ∧
    (∀ nesting start (left : Parsed start), ∀ enclosing, behindOperand enclosing = enclosing →
      Reckoner.nesting enclosing = nesting →
        Agrees limit enclosing enclosing .operator left.after (products limit nesting left)) ∧
    ∀ nesting start, ∀ enclosing, Reckoner.nesting enclosing = nesting →
      Agrees limit enclosing (behindOperand enclosing) .operand start (factor limit nesting start) := by
  -- in order: an expression, its loop at the end and at an operator, a term, its loop likewise, and the three factors
  apply expression.mutual_induct
  case case1 =>
    intro nesting start hterm hsums enclosing hsigns hnesting
    rw [Agrees, hterm enclosing hsigns hnesting, expression_eq, mapError_bind, bind_assoc]
    exact congrArg _ (funext fun first => hsums first enclosing hsigns hnesting)
  case case2 =>
    intro nesting start left hnext enclosing hsigns hnesting
    rw [Agrees, sums_of_none hnext, run_skip_operator]
    rfl
  case case3 =>
    intro nesting start left operator next hnext hterm hsums enclosing hsigns hnesting
    rw [Agrees, run_joining hnext fun c operator hc => .inl (by rw [hc]; rfl), sums_of_some hnext, mapError_bind, bind_assoc,
      hterm enclosing hsigns hnesting]
    exact congrArg _ (funext fun right => hsums right enclosing hsigns hnesting)
  case case4 =>
    intro nesting start hfactor hproducts enclosing hsigns hnesting
    rw [Agrees, hfactor enclosing hnesting, term_eq, mapError_bind, bind_assoc, hsigns]
    exact congrArg _ (funext fun first => hproducts first enclosing hsigns hnesting)
  case case5 =>
    intro nesting start left hnext enclosing hsigns hnesting
    rw [Agrees, products_of_none hnext, run_skip_operator]
    rfl
  case case6 =>
    intro nesting start left operator next hnext hfactor hproducts enclosing hsigns hnesting
    rw [Agrees, run_joining hnext fun c operator hc => .inr (by rw [hc]; rfl), products_of_some hnext, mapError_bind, bind_assoc,
      hfactor enclosing hnesting, hsigns]
    exact congrArg _ (funext fun right => hproducts right enclosing hsigns hnesting)
  case case7 =>
    intro nesting start here _ hnext enclosing hnesting
    rw [Agrees, run_skip_operand, factor_of_none hnext, mapError_bind, bind_assoc]
    exact number_agrees here start.isBlank_of_head_skip hnext
  case case8 =>
    intro nesting start here _ next hnext hexpression enclosing hnesting
    subst hnesting
    rw [Agrees, run_skip_operand, run_opening hnext, factor_of_parenthesis hnext, mapError_bind, bind_assoc,
      mapError_deepen]
    cases hdeepen : deepen limit (Reckoner.nesting enclosing) .parenthesis here.position none with
    | error fault => rfl
    | ok deeper =>
      have hdeeper := deepen_eq_ok hdeepen
      rw [ok_bind, ok_bind, Opening.enclosure]
      rw [hexpression deeper (.parenthesis here.position :: enclosing) rfl (by rw [nesting_cons, hdeeper]; rfl),
        mapError_bind, bind_assoc]
      cases hread : expression limit deeper next with
      | error fault => rfl
      | ok inner =>
        rw [mapError_ok, ok_bind, ok_bind, mapError_bind, bind_assoc]
        exact close_agrees (endsExpression_of_expression hread)
  case case9 =>
    intro nesting start here _ negative next hnext hfactor enclosing hnesting
    subst hnesting
    rw [Agrees, run_skip_operand, run_opening hnext, factor_of_sign hnext, mapError_bind, bind_assoc,
      mapError_deepen]
    cases hdeepen : deepen limit (Reckoner.nesting enclosing) (.sign negative) here.position none with
    | error fault => rfl
    | ok deeper =>
      have hdeeper := deepen_eq_ok hdeepen
      rw [ok_bind, ok_bind, Opening.enclosure]
      rw [hfactor deeper (.sign :: enclosing) (by rw [nesting_cons, hdeeper]; rfl), mapError_bind, bind_assoc]
      rfl

end Parser

/-- The automaton gets through a text exactly if it is read as an expression, and otherwise it finds the same fault. -/
theorem Scan.run_start (limit : Option Nat) (text : String) :
    run limit start text.toList = (Expression.parse limit text).mapError Fault.withoutNext >>= fun _ => .ok () := by
  have hagrees := (Parser.readers_agree limit).1 0 (.ofText text) [] rfl rfl
  change run limit start text.toList = _ at hagrees
  rw [hagrees, Expression.parse, mapError_bind, bind_assoc]
  cases hread : Parser.expression limit 0 (.ofText text) with
  | error fault => rfl
  | ok parsed =>
    rw [mapError_ok, ok_bind, ok_bind]
    cases hrest : parsed.after.rest with
    | nil => rfl
    | cons found rest =>
      have hends := Parser.endsExpression_of_expression hread found (by rw [hrest]; rfl)
      rw [run_cons, step_operator_ends hends]
      rfl

end Reckoner
