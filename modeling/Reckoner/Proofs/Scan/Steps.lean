import Reckoner.Proofs.Scan.Basic

/-!
# Steps

What one character does at each kind of point, as equations, and what runs of blanks and of literal characters do.
-/

namespace Reckoner

theorem nesting_cons (enclosure : Enclosure) (enclosing : List Enclosure) :
    nesting (enclosure :: enclosing) = nesting enclosing + enclosure.cost := rfl

theorem Opening.cost_enclosure (opening : Opening) (position : Nat) :
    (opening.enclosure position).cost = opening.cost := by
  cases opening <;> rfl

theorem behindOperand_sign (enclosing : List Enclosure) :
    behindOperand (.sign :: enclosing) = behindOperand enclosing := rfl

theorem behindOperand_behindOperand (enclosing : List Enclosure) :
    behindOperand (behindOperand enclosing) = behindOperand enclosing := by
  induction enclosing with
  | nil => rfl
  | cons enclosure enclosing ih =>
    cases enclosure with
    | parenthesis position => rfl
    | sign => exact ih

namespace Scan

variable {limit : Option Nat} {position start : Nat} {enclosing : List Enclosure} {first c : Char}
  {others : List Char}

theorem endNumber_of_none (hread : Literal.ofRun? (first :: others) = none) :
    endNumber start first others = .error (.malformedNumber start first others) := by
  rw [endNumber, if_neg (by simp [hread])]

theorem endNumber_of_isSome (hread : (Literal.ofRun? (first :: others)).isSome) :
    endNumber start first others = .ok () := by
  rw [endNumber, if_pos hread]

theorem step_operand_part (hpart : Literal.isPart c) :
    step limit ⟨position, enclosing, .operand⟩ c = .ok ⟨position + 1, enclosing, .number position c []⟩ := by
  simp only [step, stepOperand, hpart, if_true]

theorem step_operand_blank (hblank : Text.isBlank c) :
    step limit ⟨position, enclosing, .operand⟩ c = .ok ⟨position + 1, enclosing, .operand⟩ := by
  simp only [step, stepOperand, Literal.isPart_of_isBlank hblank, Bool.false_eq_true, if_false, hblank, if_true]

/-- An opening leads deeper as far as the reader of operands goes. What stands behind it has not been seen. -/
theorem step_operand_opening {opening : Opening} (hpart : Literal.isPart c = false) (hblank : Text.isBlank c = false)
    (hopening : Opening.ofChar? c = some opening) :
    step limit ⟨position, enclosing, .operand⟩ c = Parser.deepen limit (nesting enclosing) opening position none >>= fun _ =>
      .ok ⟨position + 1, opening.enclosure position :: enclosing, .operand⟩ := by
  simp only [step, stepOperand, hpart, hblank, hopening, Bool.false_eq_true, if_false, nesting_cons,
    Opening.cost_enclosure, Parser.deepen]
  split <;> rfl

theorem step_operand_other (hpart : Literal.isPart c = false) (hblank : Text.isBlank c = false)
    (hopening : Opening.ofChar? c = none) :
    step limit ⟨position, enclosing, .operand⟩ c =
      .error (if Parser.followsOperand c then .missingOperand position (some c) else .unexpected position c) := by
  simp only [step, stepOperand, hpart, hblank, hopening, Bool.false_eq_true, if_false]

theorem step_number_part (hpart : Literal.isPart c) :
    step limit ⟨position, enclosing, .number start first others⟩ c =
      .ok ⟨position + 1, enclosing, .number start first (others ++ [c])⟩ := by
  simp only [step, hpart, if_true]

theorem step_number_malformed (hpart : Literal.isPart c = false) (hread : Literal.ofRun? (first :: others) = none) :
    step limit ⟨position, enclosing, .number start first others⟩ c =
      .error (.malformedNumber start first others) := by
  simp only [step, hpart, Bool.false_eq_true, if_false, endNumber_of_none hread, error_bind]

theorem step_number_complete (hpart : Literal.isPart c = false) (hread : (Literal.ofRun? (first :: others)).isSome) :
    step limit ⟨position, enclosing, .number start first others⟩ c =
      step limit ⟨position, behindOperand enclosing, .operator⟩ c := by
  simp only [step, hpart, Bool.false_eq_true, if_false, endNumber_of_isSome hread, ok_bind]

theorem step_operator_blank (hblank : Text.isBlank c) :
    step limit ⟨position, enclosing, .operator⟩ c = .ok ⟨position + 1, enclosing, .operator⟩ := by
  simp only [step, stepOperator, hblank, if_true]

theorem step_operator_operator (hblank : Text.isBlank c = false)
    (hoperator : (Operator.additive? c).isSome ∨ (Operator.multiplicative? c).isSome) :
    step limit ⟨position, enclosing, .operator⟩ c = .ok ⟨position + 1, enclosing, .operand⟩ := by
  have hsome : ((Operator.additive? c).isSome || (Operator.multiplicative? c).isSome) = true := by simpa using hoperator
  simp only [step, stepOperator, hblank, hsome, Bool.false_eq_true, if_false, if_true]

theorem step_operator_ends (hends : EndsExpression c) :
    step limit ⟨position, enclosing, .operator⟩ c = stepClosing position c enclosing := by
  simp only [step, stepOperator, hends.1.1, hends.1.2, hends.2, Option.isSome_none, Bool.or_self, Bool.false_eq_true,
    if_false]

theorem endsExpression_closing : EndsExpression ')' := ⟨⟨by decide, rfl⟩, rfl⟩

theorem step_operator_closing {opened : Nat} {outer : List Enclosure} :
    step limit ⟨position, .parenthesis opened :: outer, .operator⟩ ')' =
      .ok ⟨position + 1, behindOperand outer, .operator⟩ := by
  rw [step_operator_ends endsExpression_closing]
  rfl

theorem step_operator_unclosed {opened : Nat} {outer : List Enclosure} (hends : EndsExpression c) (hne : c ≠ ')') :
    step limit ⟨position, .parenthesis opened :: outer, .operator⟩ c = .error (.unclosedBefore position c) := by
  rw [step_operator_ends hends, stepClosing, if_neg hne]

theorem finish_malformed (hread : Literal.ofRun? (first :: others) = none) :
    finish ⟨position, enclosing, .number start first others⟩ = .error (.malformedNumber start first others) := by
  simp only [finish, endNumber_of_none hread, error_bind]

theorem finish_complete (hread : (Literal.ofRun? (first :: others)).isSome) :
    finish ⟨position, enclosing, .number start first others⟩ =
      finish ⟨position, behindOperand enclosing, .operator⟩ := by
  simp only [finish, endNumber_of_isSome hread, ok_bind]

/-! ### Runs of one kind of character -/

theorem run_skip_operand (cursor : Cursor) :
    run limit ⟨cursor.position, enclosing, .operand⟩ cursor.rest =
      run limit ⟨(cursor.skip Text.isBlank).position, enclosing, .operand⟩ (cursor.skip Text.isBlank).rest := by
  obtain ⟨position, rest⟩ := cursor
  dsimp only [Cursor.skip]
  induction rest generalizing position with
  | nil => rfl
  | cons c rest ih =>
    cases hblank : Text.isBlank c with
    | true =>
      rw [run_cons, step_operand_blank hblank, ok_bind, ih, List.takeWhile_cons_of_pos hblank,
        List.dropWhile_cons_of_pos hblank, List.length_cons, Nat.add_right_comm, Nat.add_assoc]
    | false =>
      have hneg : ¬ Text.isBlank c = true := by simp [hblank]
      rw [List.takeWhile_cons_of_neg hneg, List.dropWhile_cons_of_neg hneg]
      rfl

theorem run_skip_operator (cursor : Cursor) :
    run limit ⟨cursor.position, enclosing, .operator⟩ cursor.rest =
      run limit ⟨(cursor.skip Text.isBlank).position, enclosing, .operator⟩ (cursor.skip Text.isBlank).rest := by
  obtain ⟨position, rest⟩ := cursor
  dsimp only [Cursor.skip]
  induction rest generalizing position with
  | nil => rfl
  | cons c rest ih =>
    cases hblank : Text.isBlank c with
    | true =>
      rw [run_cons, step_operator_blank hblank, ok_bind, ih, List.takeWhile_cons_of_pos hblank,
        List.dropWhile_cons_of_pos hblank, List.length_cons, Nat.add_right_comm, Nat.add_assoc]
    | false =>
      have hneg : ¬ Text.isBlank c = true := by simp [hblank]
      rw [List.takeWhile_cons_of_neg hneg, List.dropWhile_cons_of_neg hneg]
      rfl

theorem run_number (rest : List Char) :
    run limit ⟨position, enclosing, .number start first others⟩ rest =
      run limit ⟨position + (rest.takeWhile Literal.isPart).length, enclosing,
        .number start first (others ++ rest.takeWhile Literal.isPart)⟩ (rest.dropWhile Literal.isPart) := by
  induction rest generalizing position others with
  | nil => rw [List.takeWhile_nil, List.append_nil]; rfl
  | cons c rest ih =>
    cases hpart : Literal.isPart c with
    | true =>
      rw [run_cons, step_number_part hpart, ok_bind, ih, List.takeWhile_cons_of_pos hpart,
        List.dropWhile_cons_of_pos hpart, List.length_cons, List.append_assoc, Nat.add_right_comm, Nat.add_assoc]
      rfl
    | false =>
      have hneg : ¬ Literal.isPart c = true := by simp [hpart]
      rw [List.takeWhile_cons_of_neg hneg, List.dropWhile_cons_of_neg hneg, List.append_nil]
      rfl

theorem run_malformed {rest : List Char} (hrest : ∀ c ∈ rest.head?, Literal.isPart c = false)
    (hread : Literal.ofRun? (first :: others) = none) :
    run limit ⟨position, enclosing, .number start first others⟩ rest = .error (.malformedNumber start first others) := by
  cases rest with
  | nil => exact finish_malformed hread
  | cons c rest =>
    rw [run_cons, step_number_malformed (hrest c rfl) hread]
    rfl

theorem run_complete {rest : List Char} (hrest : ∀ c ∈ rest.head?, Literal.isPart c = false)
    (hread : (Literal.ofRun? (first :: others)).isSome) :
    run limit ⟨position, enclosing, .number start first others⟩ rest =
      run limit ⟨position, behindOperand enclosing, .operator⟩ rest := by
  cases rest with
  | nil => exact finish_complete hread
  | cons c rest => rw [run_cons, run_cons, step_number_complete (hrest c rfl) hread]

end Scan

end Reckoner
