import Reckoner.Proofs.Binary64.Fixed
import Reckoner.Proofs.Evaluation.Kinds
import Reckoner.Proofs.Evaluation.Meaning

/-!
# Numbers that are read back

A numeral is evaluated to the number nearest to what it writes. So what has been written with fixed places is evaluated,
in general not to the number that was written, but to one that is written alike.
-/

namespace Reckoner

open Scan

theorem run_numeral (limit : Option Nat) (position : Nat) (enclosing : List Enclosure) (numeral : Numeral)
    {rest : List Char} (hrest : ∀ c ∈ rest.head?, Literal.isPart c = false) :
    run limit ⟨position, enclosing, .operand⟩ (numeral.run ++ rest) =
      run limit ⟨position + numeral.run.length, behindOperand enclosing, .operator⟩ rest := by
  have hparts := numeral.isPart_of_mem
  have hread := Literal.ofRun?_numeral numeral
  obtain ⟨digit, hdigit, -⟩ := numeral.exists_isDigit
  cases hrun : numeral.run with
  | nil => exact absurd hrun (List.ne_nil_of_mem hdigit)
  | cons first others =>
    rw [hrun] at hparts hread
    rw [run_operand_parts limit position enclosing hparts hrest, run_complete hrest (by rw [hread]; rfl),
      List.length_cons, Nat.add_right_comm, Nat.add_assoc]

theorem run_only_numeral (limit : Option Nat) (position : Nat) (enclosing : List Enclosure) (numeral : Numeral) :
    run limit ⟨position, enclosing, .operand⟩ numeral.run =
      finishOperator (position + numeral.run.length) (behindOperand enclosing) := by
  have hnone : ∀ c ∈ [].head?, Literal.isPart c = false := fun c hc => absurd hc (by simp)
  rw [← List.append_nil numeral.run, run_numeral limit position enclosing numeral hnone, List.append_nil]
  rfl

theorem Spells.numeral (numeral : Numeral) : Spells [.number numeral] numeral.run := by
  have hspelling := Spells.cons_spelling (.nil (List.forall_mem_nil _)) (.number numeral)
  rw [List.append_nil] at hspelling
  exact hspelling

theorem evaluate_numeral (numeral : Numeral) : evaluate (.ofList numeral.run) = .ok numeral.literal.value := by
  have hrun : run (some nestingLimit) .start numeral.run = .ok () := run_only_numeral _ _ _ numeral
  have htree : (Phrase.number numeral).DerivedFrom numeral.run :=
    ⟨_, Spells.numeral numeral, .expression (.term .number .productsEnd) .sumsEnd⟩
  rw [← String.toList_ofList (l := numeral.run)] at hrun htree
  have hvalue := evaluate_of_derivedFrom hrun htree
  rw [Phrase.value] at hvalue
  exact hvalue

theorem evaluate_negative_numeral (numeral : Numeral) :
    evaluate (.ofList ('-' :: numeral.run)) = .ok numeral.literal.value.neg := by
  have hrun : run (some nestingLimit) .start ('-' :: numeral.run) = .ok () := run_only_numeral _ _ [.sign] numeral
  have hspells : Spells [.operator .sub, .number numeral] ('-' :: numeral.run) :=
    (Spells.numeral numeral).cons_spelling (.operator .sub)
  have hfactor : Derives .factor [.operator .sub, .number numeral] (.signed true (.number numeral)) :=
    @Derives.signed true _ _ .number
  have htree : (Phrase.signed true (.number numeral)).DerivedFrom ('-' :: numeral.run) :=
    ⟨_, hspells, .expression (.term hfactor .productsEnd) .sumsEnd⟩
  rw [← String.toList_ofList (l := '-' :: numeral.run)] at hrun htree
  have hvalue := evaluate_of_derivedFrom hrun htree
  rw [Phrase.value, Phrase.value] at hvalue
  exact hvalue

/-- A numeral with or without a sign is evaluated to a number with or without one. -/
theorem evaluate_signed_numeral {numeral : Numeral} {w : Magnitude} (hvalue : numeral.literal.value = .finite false w)
    (negative : Bool) :
    evaluate (.ofList (if negative then '-' :: numeral.run else numeral.run)) = .ok (.finite negative w) := by
  cases negative with
  | false =>
    rw [if_neg Bool.false_ne_true, evaluate_numeral, hvalue]
  | true =>
    rw [if_pos rfl, evaluate_negative_numeral, hvalue, Binary64.neg, Bool.not_false]

theorem Literal.value_eq_ofQuotient {literal : Literal} {scaled places : Nat}
    (hcross : literal.coefficient * 10 ^ places = scaled * 10 ^ literal.places) :
    literal.value = .ofQuotient false (scaled * Magnitude.quantaPerUnit) (10 ^ places) := by
  refine Binary64.ofQuotient_eq_of_cross (Nat.pow_pos (by decide)) (Nat.pow_pos (by decide)) ?_ false
  rw [Nat.mul_right_comm, hcross, Nat.mul_right_comm]

section FixedNumeral

variable {scaled places : Nat} {w : Magnitude}

/-- A numeral with fixed places is evaluated to the magnitude nearest to the units in the last place that it writes. -/
theorem evaluate_fixedNumeral (hnearest : Magnitude.nearest (scaled * Magnitude.quantaPerUnit) (10 ^ places) = some w)
    (negative : Bool) :
    evaluate (.ofList (if negative then '-' :: fixedNumeral scaled places else fixedNumeral scaled places)) =
      .ok (.finite negative w) := by
  obtain ⟨numeral, hrun, hcross⟩ := exists_numeral_fixed scaled places
  have hvalue : numeral.literal.value = .finite false w :=
    (Literal.value_eq_ofQuotient hcross).trans (Binary64.ofQuotient_of_nearest false hnearest)
  exact hrun ▸ evaluate_signed_numeral hvalue negative

theorem evaluate_zero : evaluate "0" = .ok .zero := by
  have hnumeral : fixedNumeral 0 0 = ['0'] := by decide
  have hscaled : Magnitude.zero.scaled? 0 = some 0 := by decide
  obtain ⟨w, hnearest, -⟩ := Magnitude.exists_nearest_of_scaled? hscaled
  have hvalue := evaluate_fixedNumeral hnearest false
  rw [Nat.zero_mul] at hnearest
  rw [if_neg Bool.false_ne_true, hnumeral, Magnitude.eq_zero_of_nearest (by decide) hnearest] at hvalue
  exact hvalue

end FixedNumeral

namespace Binary64

/-- What a finite number is written as with fixed places is evaluated to a finite number that is written the same. -/
theorem fixedText_read_back (negative : Bool) (x : Magnitude) (places : Int) (text : String)
    (htext : (finite negative x).fixedText places = .ok text) :
    ∃ readNegative w, evaluate text = .ok (finite readNegative w) ∧
      (finite readNegative w).fixedText places = .ok text := by
  obtain ⟨hplaces, scaled, hscaled⟩ := exists_scaled_of_fixedText htext
  obtain ⟨w, hnearest, hsame⟩ := Magnitude.exists_nearest_of_scaled? hscaled
  by_cases hzero : scaled = 0
  -- the sign of what is rounded to zero is lost
  · subst hzero
    rw [fixedText_of_zero hplaces hscaled] at htext
    obtain rfl := Except.ok.inj htext
    rw [Nat.zero_mul] at hnearest
    obtain rfl := Magnitude.eq_zero_of_nearest (Nat.pow_pos (by decide)) hnearest
    exact ⟨false, .zero, evaluate_zero, fixedText_of_zero hplaces hsame⟩
  · rw [fixedText_of_pos hplaces hscaled hzero] at htext
    obtain rfl := Except.ok.inj htext
    exact ⟨negative, w, evaluate_fixedNumeral hnearest negative, fixedText_of_pos hplaces hsame hzero⟩

/-- The tie `-0.125` goes to the even neighbour. -/
theorem fixedText_read_back_tie : ∃ eighth : Magnitude, (eighth.significand = 2 ^ 52 ∧ eighth.exponent = 1019) ∧
    (finite true eighth).fixedText 2 = .ok "-0.12" ∧
    ∃ readNegative w, evaluate "-0.12" = .ok (finite readNegative w) ∧
      (finite readNegative w).fixedText 2 = .ok "-0.12" := by
  have htie : (finite true ⟨2 ^ 52, 1019, by decide, by decide, .inr (by decide)⟩).fixedText 2 = .ok "-0.12" := by
    decide +kernel
  exact ⟨_, ⟨rfl, rfl⟩, htie, fixedText_read_back _ _ _ _ htie⟩

end Binary64

end Reckoner
