import Reckoner.Proofs.Binary64.Exact
import Reckoner.Proofs.Evaluation.Numbers

/-!
# Literals of any length

A literal is a rational number, and its value the binary64 number nearest to it: nothing is rounded on the way from the
digits, however many there are.
-/

namespace Reckoner

namespace Literal

variable {literal greater : Literal}

/-- The decimal fraction that a literal stands for. -/
def exact (literal : Literal) : ℚ := literal.coefficient / 10 ^ literal.places

theorem exact_eq (literal : Literal) : literal.exact =
    (literal.coefficient * Magnitude.quantaPerUnit : Nat) / ((10 ^ literal.places : Nat) * Magnitude.quantaPerUnit) := by
  rw [exact, Nat.cast_mul, Nat.cast_pow, Nat.cast_ofNat, mul_div_mul_right _ _ Magnitude.cast_quantaPerUnit_pos.ne']

theorem value_eq_finite_iff {x : Magnitude} : literal.value = .finite false x ↔
    literal.exact < 2 ^ 1024 - 2 ^ 970 ∧ x.IsNearest literal.exact := by
  rw [exact_eq]
  exact Binary64.ofQuotient_eq_finite_iff (Nat.pow_pos (by decide))

-- `2 ^ 53 + 1` is halfway between two numbers and goes to the one with the even significand
example : (Literal.mk 9007199254740993 0).value =
    .finite false ⟨2 ^ 52, 1075, by decide, by decide, .inr (by decide)⟩ := by
  decide +kernel

theorem value_eq_infinity_iff : literal.value = .infinity false ↔ 2 ^ 1024 - 2 ^ 970 ≤ literal.exact := by
  rw [exact_eq]
  exact Binary64.ofQuotient_eq_infinity_iff (Nat.pow_pos (by decide))

theorem value_cases (literal : Literal) : literal.value = .infinity false ∨ ∃ x, literal.value = .finite false x :=
  Binary64.ofQuotient_cases _ _ _

theorem value_eq_zero_iff : literal.value = .zero ↔ literal.exact ≤ 1 / 2 ^ 1075 := by
  rw [exact_eq]
  exact Binary64.ofQuotient_eq_zero_iff (Nat.pow_pos (by decide))

theorem value_mono (hle : literal.exact ≤ greater.exact) : literal.value.AtMost greater.value := by
  rcases greater.value_cases with hgreater | ⟨y, hgreater⟩
  · rcases literal.value_cases with hvalue | ⟨x, hvalue⟩ <;> rw [hvalue, hgreater] <;> trivial
  · obtain ⟨hbelow, hy⟩ := value_eq_finite_iff.1 hgreater
    rcases literal.value_cases with hvalue | ⟨x, hvalue⟩
    · exact absurd (value_eq_infinity_iff.1 hvalue) (not_le.2 (lt_of_le_of_lt hle hbelow))
    · obtain ⟨-, hx⟩ := value_eq_finite_iff.1 hvalue
      rw [hvalue, hgreater]
      exact Int.ofNat_le.2 (hx.mono hy hle)

end Literal

/-- However long a numeral is, it is evaluated to the nearest binary64 number, and to the one with an even significand if
two are as near: to infinity from halfway between the greatest number and the next power of two on, and to zero up to half
of the least positive number. So a numeral that writes no less is evaluated to no less. -/
theorem numeral_correctly_rounded (numeral : Numeral) :
    ∃ value, evaluate (.ofList numeral.run) = .ok value ∧
      (value = .infinity false ↔ 2 ^ 1024 - 2 ^ 970 ≤ numeral.literal.exact) ∧
      (value = .zero ↔ numeral.literal.exact ≤ 1 / 2 ^ 1075) ∧
      (value ≠ .infinity false → ∃ x, value = .finite false x) ∧
      (∀ x, value = .finite false x ↔
        numeral.literal.exact < 2 ^ 1024 - 2 ^ 970 ∧ x.IsNearest numeral.literal.exact) ∧
      ∀ greater : Numeral, numeral.literal.exact ≤ greater.literal.exact →
        ∃ bound, evaluate (.ofList greater.run) = .ok bound ∧ value.AtMost bound := by
  refine ⟨_, evaluate_numeral numeral, Literal.value_eq_infinity_iff, Literal.value_eq_zero_iff,
    numeral.literal.value_cases.resolve_left, fun x => Literal.value_eq_finite_iff, fun greater hle => ?_⟩
  exact ⟨_, evaluate_numeral greater, Literal.value_mono hle⟩

end Reckoner
