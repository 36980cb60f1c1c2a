import Reckoner.Command.Outcome
import Reckoner.Proofs.Binary64.Decimals
import Reckoner.Proofs.Evaluation.Literals

/-!
# Raw numbers that are read back

The shortest text of a number is a numeral that stands for the shortest decimal, unless an exponent follows the numeral. So
the number is what a text without an exponent is evaluated to, and the exponent is what the evaluation of any other stops
at.
-/

namespace Reckoner

open Scan

namespace Layout

variable {digits : List Char} {d : Decimal} {layout : Layout} {place : Int}

/-- A point among digits scales them by a power of ten, whatever zeros it takes to set the point. -/
theorem exists_numeral_positional (hdigits : ∀ c ∈ digits, c.isDigit) (whole : Int) : ∃ numeral : Numeral,
    numeral.run = positional digits whole ∧
      numeral.literal.exact = Nat.ofDigitChars 10 digits 0 * (10 : ℚ) ^ (whole - digits.length) := by
  have hten : (10 : ℚ) ≠ 0 := by norm_num
  have hzeros (count : Nat) : ∀ c ∈ List.replicate count '0', c.isDigit := fun c hc => Text.isDigit_of_mem_zeros hc
  unfold positional
  split
  · rename_i hwhole
    obtain ⟨numeral, hrun, hliteral⟩ := Literal.exists_numeral_point (hzeros 1)
      (List.forall_mem_append.2 ⟨hzeros (-whole).toNat, hdigits⟩) (List.cons_ne_nil _ _)
    refine ⟨numeral, hrun, ?_⟩
    have hplaces : whole - digits.length = -((-whole).toNat + digits.length : Nat) := by omega
    rw [hliteral, Literal.exact, Text.ofDigitChars_zeros_append, Text.ofDigitChars_zeros_append, List.length_append,
      List.length_replicate, hplaces, zpow_neg, zpow_natCast, div_eq_mul_inv]
  · rename_i hwhole
    dsimp only
    generalize hcount : whole.toNat + 1 - digits.length = count
    have hfilled : ∀ c ∈ digits ++ List.replicate count '0', c.isDigit := List.forall_mem_append.2 ⟨hdigits, hzeros count⟩
    have hlength : whole.toNat < (digits ++ List.replicate count '0').length := by
      rw [List.length_append, List.length_replicate]
      omega
    have hsome : (digits ++ List.replicate count '0').take whole.toNat ≠ [] := by
      rw [ne_eq, List.take_eq_nil_iff, not_or]
      exact ⟨by omega, List.ne_nil_of_length_pos (by omega)⟩
    obtain ⟨numeral, hrun, hliteral⟩ := Literal.exists_numeral_point
      (fun c hc => hfilled c (List.mem_of_mem_take hc)) (fun c hc => hfilled c (List.mem_of_mem_drop hc)) hsome
    refine ⟨numeral, hrun, ?_⟩
    have hplaces : whole - digits.length = (count : Int) - (digits.length + count - whole.toNat : Nat) := by
      rw [List.length_append, List.length_replicate] at hlength
      omega
    rw [hliteral, Literal.exact, List.take_append_drop, List.length_drop, List.length_append, List.length_replicate,
      ofDigitChars_append_zeros, hplaces, zpow_sub₀ hten, zpow_natCast, zpow_natCast, Nat.cast_mul, Nat.cast_pow,
      Nat.cast_ofNat, mul_div_assoc]

theorem exists_numeral_scientific (hdigits : ∀ c ∈ digits, c.isDigit) (hsome : digits ≠ []) (layout : Layout) (place : Int) :
    ∃ (numeral : Numeral) (exponent : List Char), layout.scientific digits place = numeral.run ++ 'e' :: exponent := by
  obtain ⟨first, fraction, rfl⟩ := List.exists_cons_of_ne_nil hsome
  obtain ⟨hfirst, hfraction⟩ := List.forall_mem_cons.1 hdigits
  have hwhole : ∀ c ∈ [first], c.isDigit := fun c hc => List.mem_singleton.1 hc ▸ hfirst
  unfold scientific
  dsimp only [List.drop_succ_cons, List.drop_zero]
  split
  · obtain ⟨numeral, hrun, -⟩ := Literal.exists_numeral_digits hwhole (List.cons_ne_nil _ _)
    exact ⟨numeral, _, by rw [hrun]; rfl⟩
  · obtain ⟨numeral, hrun, -⟩ := Literal.exists_numeral_point hwhole hfraction (List.cons_ne_nil _ _)
    exact ⟨numeral, _, by rw [hrun]; rfl⟩

/-- Without the zeros at their end the digits are followed by as many more powers of ten. -/
theorem exists_digits (d : Decimal) : ∃ count,
    let digits := Text.dropTrailing (· == '0') (Nat.toDigits 10 d.coefficient)
    (∀ c ∈ digits, c.isDigit) ∧ (Nat.toDigits 10 d.coefficient).length = digits.length + count ∧
      d.coefficient = Nat.ofDigitChars 10 digits 0 * 10 ^ count := by
  obtain ⟨count, hall⟩ := exists_eq_append_zeros (Nat.toDigits 10 d.coefficient)
  refine ⟨count, fun c hc => ?_, ?_, ?_⟩
  · exact Text.isDigit_of_mem_toDigits (Text.mem_of_mem_dropTrailing hc)
  · have hlength := congrArg List.length hall
    rwa [List.length_append, List.length_replicate] at hlength
  · rw [← ofDigitChars_append_zeros, ← hall, Nat.ofDigitChars_ten_toDigits]

/-- A decimal is written as a numeral that stands for it, or as a numeral with an exponent behind it. -/
theorem write_cases (layout : Layout) (hcoefficient : d.coefficient ≠ 0) (hplace : d.LeadsAt place) :
    if layout.positionalFrom ≤ place ∧ place ≤ layout.positionalTo then
      ∃ numeral : Numeral, layout.write d = numeral.run ∧ numeral.literal.exact = d.exact
    else ∃ (numeral : Numeral) (exponent : List Char), layout.write d = numeral.run ++ 'e' :: exponent := by
  obtain rfl := (Decimal.leadsAt_length hcoefficient).unique hplace
  obtain ⟨count, hdigits, hlength, hvalue⟩ := exists_digits d
  unfold write
  dsimp only
  generalize Text.dropTrailing _ _ = digits at *
  split
  · obtain ⟨numeral, hrun, hexact⟩ := exists_numeral_positional hdigits
      ((Nat.toDigits 10 d.coefficient).length + d.exponent - 1 + 1)
    refine ⟨numeral, hrun.symm, ?_⟩
    have hplaces : (Nat.toDigits 10 d.coefficient).length + d.exponent - 1 + 1 - digits.length =
        count + d.exponent := by omega
    rw [hexact, hplaces, Decimal.exact, hvalue, zpow_add₀ (by norm_num), zpow_natCast, Nat.cast_mul, Nat.cast_pow,
      Nat.cast_ofNat, mul_assoc]
  · refine exists_numeral_scientific hdigits ?_ layout _
    rintro rfl
    exact hcoefficient (by rw [hvalue, Nat.ofDigitChars_nil, Nat.zero_mul])

end Layout

/-! ### What is left behind a numeral -/

theorem endsExpression_exponent : EndsExpression 'e' := ⟨⟨by decide, rfl⟩, rfl⟩

theorem run_exponent (limit : Option Nat) (position : Nat) (enclosing : List Enclosure)
    (henclosing : behindOperand enclosing = []) (numeral : Numeral) (exponent : List Char) :
    run limit ⟨position, enclosing, .operand⟩ (numeral.run ++ 'e' :: exponent) =
      .error (.unexpected (position + numeral.run.length) 'e') := by
  have hrest : ∀ c ∈ ('e' :: exponent).head?, Literal.isPart c = false := by
    intro c hc
    obtain rfl := Option.some.inj hc
    decide
  rw [run_numeral limit position enclosing numeral hrest, henclosing, run_cons, step_operator_ends endsExpression_exponent]
  rfl

theorem Numeral.exponent_not_mem (numeral : Numeral) : 'e' ∉ numeral.run := by
  intro hmem
  exact absurd (numeral.isPart_of_mem 'e' hmem) (by decide)

/-- A numeral is evaluated no further than to the exponent behind it. -/
theorem evaluate_exponent (negative : Bool) (numeral : Numeral) (exponent : List Char) :
    let text := if negative then '-' :: (numeral.run ++ 'e' :: exponent) else numeral.run ++ 'e' :: exponent
    evaluate (.ofList text) = .error (.unexpected (text.idxOf 'e') 'e') := by
  have hindex : (numeral.run ++ 'e' :: exponent).idxOf 'e' = numeral.run.length := by
    rw [List.idxOf_append_of_notMem numeral.exponent_not_mem, List.idxOf_cons_self, Nat.add_zero]
  have hstart := run_exponent (some nestingLimit) 0 [] rfl numeral exponent
  have hsigned := run_exponent (some nestingLimit) 1 [.sign] rfl numeral exponent
  dsimp only
  cases negative with
  | false =>
    rw [if_neg Bool.false_ne_true, evaluate_eq_error_iff, String.toList_ofList, hindex]
    rw [Nat.zero_add] at hstart
    exact ⟨hstart, rfl⟩
  | true =>
    rw [if_pos rfl, evaluate_eq_error_iff, String.toList_ofList, List.idxOf_cons_ne _ (by decide), hindex]
    rw [Nat.add_comm] at hsigned
    exact ⟨hsigned, rfl⟩

/-! ### Shortest texts -/

namespace Magnitude

variable {x : Magnitude}

/-- Zero, and the magnitudes whose shortest decimal begins in one of the sixteen places in front of the point or the four
behind it. -/
def Positional (x : Magnitude) : Prop := x = .zero ∨ ∃ place, -4 ≤ place ∧ place ≤ 15 ∧ x.shortest.LeadsAt place

end Magnitude

namespace Binary64

theorem value_of_exact {x : Magnitude} {literal : Literal} (hexact : literal.exact = x.shortest.exact) :
    literal.value = finite false x := by
  rw [Literal.value_eq_finite_iff, hexact]
  exact Decimal.magnitude?_eq_some_iff.1 x.magnitude?_shortest

/-- The digits of a number, without its sign. -/
def shortestDigits (x : Magnitude) : List Char := if x = .zero then ['0', '.', '0'] else rawLayout.write x.shortest

theorem shortestText_finite (negative : Bool) (x : Magnitude) : (finite negative x).shortestText =
    .ofList (if negative then '-' :: shortestDigits x else shortestDigits x) := rfl

theorem shortestDigits_zero : ∃ numeral : Numeral,
    shortestDigits .zero = numeral.run ∧ numeral.literal.value = finite false .zero := by
  have hdigits : ∀ c ∈ ['0'], c.isDigit := List.all_eq_true.1 (by decide)
  have hvalue : Nat.ofDigitChars 10 ['0'] 0 = 0 := by decide
  obtain ⟨numeral, hrun, hexact⟩ := Layout.exists_numeral_positional hdigits 1
  refine ⟨numeral, hrun.symm, Literal.value_eq_zero_iff.2 ?_⟩
  rw [hexact, hvalue, Nat.cast_zero, zero_mul]
  positivity

/-- The digits are a numeral that is read as the magnitude, or one with an exponent behind it. -/
theorem shortestDigits_cases (x : Magnitude) :
    (x.Positional ∧ ∃ numeral : Numeral, shortestDigits x = numeral.run ∧ numeral.literal.value = finite false x) ∨
      ¬ x.Positional ∧ ∃ (numeral : Numeral) (exponent : List Char), shortestDigits x = numeral.run ++ 'e' :: exponent := by
  by_cases hx : x = .zero
  · subst hx
    exact .inl ⟨.inl rfl, shortestDigits_zero⟩
  · have hcoefficient := Magnitude.coefficient_shortest_ne_zero hx
    have hplace := Decimal.leadsAt_length hcoefficient
    have hwrite := Layout.write_cases rawLayout hcoefficient hplace
    generalize ((Nat.toDigits 10 x.shortest.coefficient).length + x.shortest.exponent - 1 : Int) = place at *
    rw [shortestDigits, if_neg hx]
    split at hwrite
    · rename_i hrange
      obtain ⟨numeral, hrun, hexact⟩ := hwrite
      exact .inl ⟨.inr ⟨place, hrange.1, hrange.2, hplace⟩, numeral, hrun, value_of_exact hexact⟩
    · rename_i hrange
      refine .inr ⟨?_, hwrite⟩
      rintro (hzero | ⟨other, hlow, hhigh, hother⟩)
      · exact hx hzero
      · exact hrange (hplace.unique hother ▸ ⟨hlow, hhigh⟩)

/-- The text of a finite number is evaluated to the number, with the sign of zero, unless the text has an exponent, and then
the exponent is the fault. It has one if and only if the first digit of the shortest decimal is too far from the point. The
names of the other numbers are no expressions. All of this is what is printed of a raw number. -/
theorem shortestText_read_back (value : Binary64) :
    (∀ negative x, value = finite negative x →
      ('e' ∈ value.shortestText.toList ↔ ¬ x.Positional) ∧
      evaluate value.shortestText =
        if 'e' ∈ value.shortestText.toList then .error (.unexpected (value.shortestText.toList.idxOf 'e') 'e')
        else .ok value) ∧
    (∀ negative, value = infinity negative →
      evaluate value.shortestText = .error (.unexpected (if negative then 1 else 0) 'i')) ∧
    (value = nan → evaluate value.shortestText = .error (.unexpected 0 'n')) ∧
    ∀ settings expression places, evaluate expression = .ok value →
      Command.runEvaluate settings expression places true = .success (value.shortestText ++ "\n") := by
  refine ⟨?_, ?_, ?_, ?_⟩
  · rintro negative x rfl
    rw [shortestText_finite, String.toList_ofList]
    rcases shortestDigits_cases x with ⟨hx, numeral, hrun, hvalue⟩ | ⟨hx, numeral, exponent, hrun⟩
    · have hplain : 'e' ∉ if negative then '-' :: numeral.run else numeral.run := by
        cases negative <;> simp [numeral.exponent_not_mem]
      rw [hrun, if_neg hplain]
      exact ⟨iff_of_false hplain (not_not.2 hx), evaluate_signed_numeral hvalue negative⟩
    · have hexponent : 'e' ∈ if negative then '-' :: (numeral.run ++ 'e' :: exponent) else numeral.run ++ 'e' :: exponent := by
        cases negative <;> simp
      rw [hrun, if_pos hexponent]
      exact ⟨iff_of_true hexponent hx, evaluate_exponent negative numeral exponent⟩
  · rintro negative rfl
    rw [evaluate_eq_error_iff]
    cases negative <;> exact ⟨rfl, rfl⟩
  · rintro rfl
    exact evaluate_eq_error_iff.2 ⟨rfl, rfl⟩
  · intro settings expression places hvalue
    rw [Command.runEvaluate, hvalue]
    rfl

/-- The least negative number has an exponent, and zero keeps its sign. -/
theorem shortestText_read_back_least : ∃ least : Magnitude, least.quanta = 1 ∧
    (finite true least).shortestText = "-5e-324" ∧ evaluate "-5e-324" = .error (.unexpected 2 'e') ∧
    evaluate "-0.0" = .ok (finite true .zero) := by
  have hleast : (finite true ⟨1, 0, by decide, by decide, .inl rfl⟩).shortestText = "-5e-324" := by decide +kernel
  have hzero : (finite true .zero).shortestText = "-0.0" := by decide
  obtain ⟨-, hexponent⟩ := (shortestText_read_back (finite true ⟨1, 0, by decide, by decide, .inl rfl⟩)).1 _ _ rfl
  obtain ⟨-, hplain⟩ := (shortestText_read_back (finite true .zero)).1 _ _ rfl
  rw [hleast, if_pos (by decide)] at hexponent
  rw [hzero, if_neg (by decide)] at hplain
  exact ⟨_, rfl, hleast, hexponent, hplain⟩

end Binary64

end Reckoner
