import Reckoner.Binary64.Basic

/-!
# Rounding to nearest

One rule turns an exact quotient into a number: the nearest candidate, and of two equally near ones the even one. It is
stated once for whole numbers (`nearestEven`) and once for magnitudes (`Magnitude.nearest`), where it is applied to the
significand in the binade of the exact value.
-/

namespace Reckoner

attribute [local instance(high)] instPowNat

/-- The whole number nearest to `num / den`; a half goes to the even neighbour. -/
def nearestEven (num den : Nat) : Nat :=
  let below := num / den
  let twice := 2 * (num % den)
  if twice < den ∨ (twice = den ∧ below % 2 = 0) then below else below + 1

theorem div_le_nearestEven (num den : Nat) : num / den ≤ nearestEven num den := by
  unfold nearestEven
  dsimp only
  split <;> omega

theorem nearestEven_le_div_succ (num den : Nat) : nearestEven num den ≤ num / den + 1 := by
  unfold nearestEven
  dsimp only
  split <;> omega

/-- The rounded number is at most half a unit away from the exact one. -/
theorem nearestEven_within_half (num den : Nat) (hden : 0 < den) :
    2 * num ≤ 2 * (nearestEven num den * den) + den ∧ 2 * (nearestEven num den * den) ≤ 2 * num + den := by
  have hdivision := Nat.div_add_mod num den
  have hremainder := Nat.mod_lt num hden
  rw [Nat.mul_comm] at hdivision
  unfold nearestEven
  dsimp only
  split
  · omega
  · rw [Nat.add_mul, Nat.one_mul]
    omega

namespace Magnitude

/-- The exponent of the binade that holds a number of quanta: 53 significant bits stand above it. -/
def binade (quanta : Nat) : Nat := quanta.log2 - 52

theorem significand_bounds (num den : Nat) :
    nearestEven num (den * 2 ^ binade (num / den)) ≤ 2 ^ (53 : Nat) ∧
      (binade (num / den) = 0 ∨ 2 ^ (52 : Nat) ≤ nearestEven num (den * 2 ^ binade (num / den))) := by
  have hlow := div_le_nearestEven num (den * 2 ^ binade (num / den))
  have hhigh := nearestEven_le_div_succ num (den * 2 ^ binade (num / den))
  rw [← Nat.div_div_eq_div_mul] at hlow hhigh
  have hlt : num / den / 2 ^ binade (num / den) < 2 ^ (53 : Nat) := by
    rw [Nat.div_lt_iff_lt_mul (Nat.two_pow_pos _), ← Nat.pow_add]
    refine Nat.lt_of_lt_of_le Nat.lt_log2_self (Nat.pow_le_pow_right (by decide) ?_)
    unfold binade
    omega
  refine ⟨by omega, ?_⟩
  by_cases hzero : binade (num / den) = 0
  · exact .inl hzero
  · refine .inr (Nat.le_trans ?_ hlow)
    have hpos : num / den ≠ 0 := by
      intro h
      rw [h] at hzero
      exact hzero rfl
    rw [Nat.le_div_iff_mul_le (Nat.two_pow_pos _), ← Nat.pow_add]
    refine Nat.le_trans (Nat.pow_le_pow_right (by decide) ?_) (Nat.log2_self_le hpos)
    unfold binade at hzero ⊢
    omega

/-- The magnitude nearest to `num / den` quanta, a half going to the even significand, or nothing from halfway between
the greatest magnitude and `2 ^ 2098` quanta onwards. A significand that rounds up to `2 ^ 53` opens the next binade. -/
def nearest (num den : Nat) : Option Magnitude :=
  let exponent := binade (num / den)
  let significand := nearestEven num (den * 2 ^ exponent)
  if hsignificand : significand < 2 ^ (53 : Nat) then
    if hexponent : exponent ≤ 2045 then
      some ⟨significand, exponent, hsignificand, hexponent, (significand_bounds num den).2⟩
    else none
  else if hexponent : exponent + 1 ≤ 2045 then
    some ⟨2 ^ (52 : Nat), exponent + 1, by decide, hexponent, .inr (Nat.le_refl _)⟩
  else none

end Magnitude

/-- The number nearest to `num / den` quanta under a sign; what is too large for a magnitude is infinite. -/
def Binary64.ofQuotient (negative : Bool) (num den : Nat) : Binary64 :=
  match Magnitude.nearest num den with
  | some x => .finite negative x
  | none => .infinity negative

end Reckoner
