import Mathlib.Algebra.Order.Field.Power
import Reckoner.Binary64.Shortest
import Reckoner.Proofs.Binary64.Representable

/-!
# Shortest decimals

The shortest decimal of a magnitude reads back as the magnitude, whichever grid it is on: a grid point is only taken if it
reads back, and the whole expansion, which is taken if there is none, is the exact value.
-/

namespace Reckoner

namespace Decimal

variable {d : Decimal} {x : Magnitude}

/-- The number that a decimal stands for. -/
def exact (d : Decimal) : ℚ := d.coefficient * 10 ^ d.exponent

/-- The first digit of a decimal counts powers of ten of this exponent. -/
def LeadsAt (d : Decimal) (place : Int) : Prop := (10 : ℚ) ^ place ≤ d.exact ∧ d.exact < 10 ^ (place + 1)

theorem LeadsAt.unique {left right : Int} (hleft : d.LeadsAt left) (hright : d.LeadsAt right) : left = right := by
  have hlow := (zpow_lt_zpow_iff_right₀ (by norm_num)).1 (hleft.1.trans_lt hright.2)
  have hhigh := (zpow_lt_zpow_iff_right₀ (by norm_num)).1 (hright.1.trans_lt hleft.2)
  omega

theorem leadsAt_length (hcoefficient : d.coefficient ≠ 0) :
    d.LeadsAt ((Nat.toDigits 10 d.coefficient).length + d.exponent - 1) := by
  have hscale : (0 : ℚ) < 10 ^ d.exponent := zpow_pos (by norm_num) _
  obtain ⟨count, hlength⟩ : ∃ count, (Nat.toDigits 10 d.coefficient).length = count + 1 :=
    Nat.exists_eq_succ_of_ne_zero (List.length_pos_iff.2 Nat.toDigits_ne_nil).ne'
  have hbelow : d.coefficient < 10 ^ (count + 1) := by
    rw [← Nat.length_toDigits_le_iff (by decide) (Nat.succ_pos _), hlength]
  have habove : 10 ^ count ≤ d.coefficient := by
    rcases Nat.eq_zero_or_pos count with rfl | hcount
    · exact Nat.pos_of_ne_zero hcoefficient
    · rw [← Nat.not_lt, ← Nat.length_toDigits_le_iff (by decide) hcount, hlength]
      exact Nat.not_succ_le_self count
  have hplace : (count + 1 : Int) + d.exponent - 1 = count + d.exponent := by omega
  rw [hlength, Nat.cast_succ, hplace, LeadsAt, exact]
  constructor
  · rw [zpow_add₀ (by norm_num), zpow_natCast]
    exact mul_le_mul_of_nonneg_right (by exact_mod_cast habove) hscale.le
  · rw [add_right_comm, zpow_add₀ (by norm_num), ← Nat.cast_succ, zpow_natCast]
    exact mul_lt_mul_of_pos_right (by exact_mod_cast hbelow) hscale

theorem exact_eq (d : Decimal) :
    d.exact = (d.coefficient * 10 ^ d.exponent.toNat : Nat) / (10 ^ (-d.exponent).toNat : Nat) := by
  have hsplit : d.exponent = (d.exponent.toNat : Int) - ((-d.exponent).toNat : Int) := by omega
  rw [exact, hsplit, zpow_sub₀ (by norm_num), zpow_natCast, zpow_natCast, ← hsplit]
  push_cast
  rw [mul_div_assoc]

/-- A decimal reads as the magnitude nearest to it. -/
theorem magnitude?_eq_some_iff : d.magnitude? = some x ↔ d.exact < 2 ^ 1024 - 2 ^ 970 ∧ x.IsNearest d.exact := by
  rw [magnitude?, Magnitude.nearest_eq_some_iff (Nat.pow_pos (by decide)), exact_eq, Nat.cast_mul,
    mul_div_mul_right _ _ Magnitude.cast_quantaPerUnit_pos.ne']

theorem magnitude?_places (coefficient places : Nat) : (Decimal.mk coefficient (-(places : Int))).magnitude? =
    Magnitude.nearest (coefficient * Magnitude.quantaPerUnit) (10 ^ places) := by
  rw [magnitude?, Int.toNat_neg_natCast, Nat.pow_zero, Nat.mul_one, neg_neg, Int.toNat_natCast]

end Decimal

theorem nearestEven_eq_or (num den : Nat) : nearestEven num den = num / den ∨ nearestEven num den = num / den + 1 := by
  have hlow := div_le_nearestEven num den
  have hhigh := nearestEven_le_div_succ num den
  omega

namespace Magnitude

variable {x : Magnitude} {d : Decimal} {place : Int}

/-- A grid point is taken only if it reads back. -/
theorem magnitude?_of_onGrid? (hgrid : x.onGrid? place = some d) : d.magnitude? = some x := by
  unfold onGrid? at hgrid
  dsimp only at hgrid
  generalize x.quanta * 10 ^ (-place).toNat = num at hgrid
  generalize quantaPerUnit * 10 ^ place.toNat = den at hgrid
  by_cases hbelow : (Decimal.mk (num / den) place).magnitude? = some x
  · rw [if_pos hbelow] at hgrid
    by_cases habove : (Decimal.mk (num / den + 1) place).magnitude? = some x
    · rw [if_pos habove] at hgrid
      obtain rfl := Option.some.inj hgrid
      rcases nearestEven_eq_or num den with heven | heven
      · exact heven ▸ hbelow
      · exact heven ▸ habove
    · rw [if_neg habove] at hgrid
      exact Option.some.inj hgrid ▸ hbelow
  · rw [if_neg hbelow] at hgrid
    by_cases habove : (Decimal.mk (num / den + 1) place).magnitude? = some x
    · rw [if_pos habove] at hgrid
      exact Option.some.inj hgrid ▸ habove
    · rw [if_neg habove] at hgrid
      exact absurd hgrid (by simp)

theorem magnitude?_exactDecimal (x : Magnitude) : x.exactDecimal.magnitude? = some x := by
  have hnumerator : x.quanta * 5 ^ unitExponent * quantaPerUnit = x.quanta * 10 ^ unitExponent := by
    unfold quantaPerUnit
    generalize unitExponent = exponent
    rw [Nat.mul_assoc, ← Nat.mul_pow]
  rw [exactDecimal, Decimal.magnitude?_places, hnumerator]
  exact x.nearest_quanta_mul (Nat.pow_pos (by decide))

theorem magnitude?_shortest (x : Magnitude) : x.shortest.magnitude? = some x := by
  unfold shortest
  dsimp only
  cases hfound : (List.range 17).findSome? fun more : Nat => x.onGrid? (leadingPlace x.quanta quantaPerUnit - more) with
  | none => exact x.magnitude?_exactDecimal
  | some d =>
    obtain ⟨more, -, hgrid⟩ := List.exists_of_findSome?_eq_some hfound
    exact magnitude?_of_onGrid? hgrid

theorem coefficient_shortest_ne_zero (hx : x ≠ zero) : x.shortest.coefficient ≠ 0 := by
  intro hzero
  have hread := x.magnitude?_shortest
  rw [Decimal.magnitude?, hzero, Nat.zero_mul, Nat.zero_mul] at hread
  exact hx (eq_zero_of_nearest (Nat.pow_pos (by decide)) hread)

end Magnitude

end Reckoner
