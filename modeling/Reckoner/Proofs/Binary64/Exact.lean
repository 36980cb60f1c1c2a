import Mathlib.Algebra.Order.Field.Basic
import Mathlib.Algebra.Order.Ring.Rat
import Mathlib.Tactic.FieldSimp
import Mathlib.Tactic.Linarith
import Mathlib.Tactic.Ring
import Reckoner.Proofs.Binary64.Nearest

/-!
# Exact values

A finite number is a rational number, and rounding is a relation between rational numbers and magnitudes: no magnitude is
nearer, and none is as near unless the significand is even. There is at most one such magnitude, because two neighbours
never both have even significands, and so rounding keeps the order of what is rounded.
-/

namespace Reckoner

theorem cast_dist (m n : Nat) : (Nat.dist m n : ℚ) = |(m : ℚ) - n| := by
  rcases Nat.le_total m n with hle | hle
  · rw [Nat.dist_eq_sub_of_le hle, Nat.cast_sub hle, abs_sub_comm, abs_of_nonneg]
    exact sub_nonneg.2 (Nat.cast_le.2 hle)
  · rw [Nat.dist_eq_sub_of_le_right hle, Nat.cast_sub hle, abs_of_nonneg]
    exact sub_nonneg.2 (Nat.cast_le.2 hle)

/-- How far a whole number is from a quotient. -/
theorem abs_div_sub (num : Nat) {den : Nat} (hden : 0 < den) (k : Nat) :
    |(num : ℚ) / den - k| = (Nat.dist num (k * den) : ℚ) / den := by
  have hpositive : (0 : ℚ) < den := Nat.cast_pos.2 hden
  rw [cast_dist, Nat.cast_mul, div_sub' hpositive.ne', abs_div, abs_of_pos hpositive, mul_comm]

namespace Magnitude

variable {num den : Nat} {x y : Magnitude}

def exact (x : Magnitude) : ℚ := x.quanta / quantaPerUnit

/-- No magnitude is nearer to `q`, and if one is as near, the significand is even. -/
structure IsNearest (x : Magnitude) (q : ℚ) : Prop where
  dist_le (y : Magnitude) : |q - x.exact| ≤ |q - y.exact|
  even_of_tie (y : Magnitude) (hother : y ≠ x) (htie : |q - y.exact| = |q - x.exact|) : x.significand % 2 = 0

/-! ### Exact magnitudes -/

theorem cast_two_pow (exponent : Nat) : ((2 ^ exponent : Nat) : ℚ) = 2 ^ exponent := by
  rw [Nat.cast_pow, Nat.cast_ofNat]

theorem cast_quantaPerUnit : (quantaPerUnit : ℚ) = 2 ^ unitExponent := cast_two_pow unitExponent

theorem cast_quantaPerUnit_pos : (0 : ℚ) < quantaPerUnit := Nat.cast_pos.2 quantaPerUnit_pos

theorem scale_pos (hden : 0 < den) : (0 : ℚ) < den * quantaPerUnit :=
  mul_pos (Nat.cast_pos.2 hden) cast_quantaPerUnit_pos

theorem exact_zero : zero.exact = 0 := by
  rw [exact, quanta_zero, Nat.cast_zero, zero_div]

theorem exact_lt_iff : x.exact < y.exact ↔ x.quanta < y.quanta := by
  rw [exact, exact, div_lt_div_iff_of_pos_right cast_quantaPerUnit_pos, Nat.cast_lt]

/-- How far a magnitude is from a quotient of quanta. -/
theorem abs_sub_exact (num : Nat) (hden : 0 < den) (y : Magnitude) :
    |(num : ℚ) / (den * quantaPerUnit) - y.exact| = (Nat.dist num (y.quanta * den) : ℚ) / (den * quantaPerUnit) := by
  rw [exact, ← div_div, ← sub_div, abs_div, abs_div_sub num hden, abs_of_pos cast_quantaPerUnit_pos, div_div]

/-! ### The nearest magnitude -/

namespace IsNearest

variable {q r : ℚ}

/-- Of two that are equally near the lower one is followed by one with an odd significand, which is nearer than both. -/
theorem not_lt (hx : x.IsNearest q) (hy : y.IsNearest q) : ¬ x.quanta < y.quanta := by
  intro hlt
  have htie : |q - x.exact| = |q - y.exact| := le_antisymm (hx.dist_le y) (hy.dist_le x)
  have hne : y ≠ x := by
    rintro rfl
    exact lt_irrefl _ hlt
  obtain ⟨next, hnext, hodd⟩ := exists_next (hx.even_of_tie y hne htie.symm)
  have heven := hy.even_of_tie x hne.symm htie
  have habove : x.quanta < next.quanta := hnext ▸ Nat.lt_add_of_pos_right (Nat.two_pow_pos _)
  have hbelow : next.quanta < y.quanta := by
    refine lt_of_le_of_ne (hnext ▸ quanta_add_le_of_lt hlt) fun hquanta => ?_
    obtain rfl := quanta_injective hquanta
    omega
  have hleft := exact_lt_iff.2 habove
  have hright := exact_lt_iff.2 hbelow
  have hnearer := hx.dist_le next
  grind

theorem unique (hx : x.IsNearest q) (hy : y.IsNearest q) : x = y :=
  quanta_injective (Nat.le_antisymm (Nat.le_of_not_lt (hy.not_lt hx)) (Nat.le_of_not_lt (hx.not_lt hy)))

/-- If rounding turned two numbers round, both would be halfway between the same magnitudes. -/
theorem mono (hx : x.IsNearest q) (hy : y.IsNearest r) (hle : q ≤ r) : x.quanta ≤ y.quanta := by
  by_contra hlt
  have hexact := exact_lt_iff.2 (Nat.lt_of_not_le hlt)
  have hleft := hx.dist_le y
  have hright := hy.dist_le x
  obtain rfl : q = r := by grind
  exact hlt (congrArg quanta (hx.unique hy)).le

/-- Up to half of the least positive value, zero is nearest. -/
theorem zero_iff : zero.IsNearest q ↔ q ≤ 1 / 2 ^ 1075 := by
  have hhalf : (1 / 2 ^ 1075 : ℚ) = 1 / quantaPerUnit / 2 := by
    rw [cast_quantaPerUnit, div_div, ← pow_succ]
    rfl
  rw [hhalf]
  constructor
  · intro hzero
    have hleast := hzero.dist_le ⟨1, 0, by decide, by decide, .inl rfl⟩
    rw [exact_zero, exact, quanta, Nat.one_mul, pow_zero, Nat.cast_one] at hleast
    generalize (1 / quantaPerUnit : ℚ) = least at *
    grind
  · intro hle
    refine ⟨fun y => ?_, fun _ _ _ => rfl⟩
    rw [exact_zero]
    by_cases hy : y.quanta = 0
    · rw [exact, hy, Nat.cast_zero, zero_div]
    · have hleast : 1 / (quantaPerUnit : ℚ) ≤ y.exact :=
        div_le_div_of_nonneg_right (Nat.one_le_cast.2 (Nat.pos_of_ne_zero hy)) cast_quantaPerUnit_pos.le
      generalize (1 / quantaPerUnit : ℚ) = least at *
      grind

end IsNearest

theorem isNearest_of_nearest (hden : 0 < den) (hnearest : nearest num den = some x) :
    x.IsNearest (num / (den * quantaPerUnit)) := by
  constructor
  · intro y
    rw [abs_sub_exact num hden, abs_sub_exact num hden, div_le_div_iff_of_pos_right (scale_pos hden), Nat.cast_le]
    exact dist_nearest_le hden hnearest y
  · intro y hother htie
    rw [abs_sub_exact num hden, abs_sub_exact num hden, div_left_inj' (scale_pos hden).ne', Nat.cast_inj] at htie
    rcases dist_nearest_lt_or_tie hden hnearest hother with hlt | ⟨-, heven⟩
    · exact absurd htie hlt.ne'
    · exact heven

theorem nearest_eq_none_iff_le (hden : 0 < den) :
    nearest num den = none ↔ (2 ^ 1024 - 2 ^ 970 : ℚ) ≤ num / (den * quantaPerUnit) := by
  have hnone : nearest num den = none ↔ _ := nearest_eq_none_iff hden
  have hfactor : ((2 ^ 54 - 1 : Nat) : ℚ) = 2 ^ 54 - 1 := by norm_num
  have hlow : (2 : ℚ) ^ 1024 = 2 ^ 54 * 2 ^ 970 := by rw [← pow_add]
  have hhigh : (2 : ℚ) ^ 2045 = 2 * (2 ^ 970 * quantaPerUnit) := by
    rw [cast_quantaPerUnit, ← pow_add, ← pow_succ', unitExponent]
  have htop := cast_two_pow 2045
  generalize 2 ^ 2045 = top at hnone htop
  rw [hnone, le_div_iff₀ (scale_pos hden), ← Nat.cast_le (α := ℚ), hlow, Nat.cast_mul, Nat.cast_mul, Nat.cast_mul,
    hfactor, htop, hhigh, Nat.cast_ofNat]
  generalize (2 : ℚ) ^ 970 = step
  constructor <;> intro hle <;> linarith

theorem nearest_eq_some_iff (hden : 0 < den) : nearest num den = some x ↔
    (num / (den * quantaPerUnit) : ℚ) < 2 ^ 1024 - 2 ^ 970 ∧ x.IsNearest (num / (den * quantaPerUnit)) := by
  rw [← not_le, ← nearest_eq_none_iff_le hden]
  constructor
  · intro hnearest
    exact ⟨by simp [hnearest], isNearest_of_nearest hden hnearest⟩
  · rintro ⟨hsome, hx⟩
    obtain ⟨y, hy⟩ := Option.ne_none_iff_exists'.1 hsome
    rw [hy, hx.unique (isNearest_of_nearest hden hy)]

end Magnitude

namespace Binary64

variable {num den : Nat} {negative : Bool} {x : Magnitude}

/-- The exact value of a finite number. -/
def rational? : Binary64 → Option ℚ
  | finite negative x => some (if negative then -x.exact else x.exact)
  | _ => none

theorem abs_signed (negative : Bool) (m : Magnitude) : |if negative then -m.exact else m.exact| = m.exact := by
  have hnonneg : 0 ≤ m.exact := div_nonneg (Nat.cast_nonneg _) Magnitude.cast_quantaPerUnit_pos.le
  cases negative <;> simp [abs_of_nonneg hnonneg]

/-- The order of numbers, in which NaN has no place and both zeros have the same. -/
def AtMost : Binary64 → Binary64 → Prop
  | nan, _ => False
  | _, nan => False
  | infinity true, _ => True
  | _, infinity false => True
  | infinity false, _ => False
  | _, infinity true => False
  | finite negative x, finite negative' y => signedQuanta negative x ≤ signedQuanta negative' y

theorem ofQuotient_cases (negative : Bool) (num den : Nat) :
    ofQuotient negative num den = infinity negative ∨ ∃ x, ofQuotient negative num den = finite negative x := by
  unfold ofQuotient
  cases Magnitude.nearest num den with
  | none => exact .inl rfl
  | some x => exact .inr ⟨x, rfl⟩

theorem ofQuotient_eq_finite_iff (hden : 0 < den) : ofQuotient negative num den = finite negative x ↔
    (num / (den * Magnitude.quantaPerUnit) : ℚ) < 2 ^ 1024 - 2 ^ 970 ∧
      x.IsNearest (num / (den * Magnitude.quantaPerUnit)) := by
  rw [← Magnitude.nearest_eq_some_iff hden]
  unfold ofQuotient
  cases Magnitude.nearest num den <;> simp

theorem ofQuotient_eq_infinity_iff (hden : 0 < den) : ofQuotient negative num den = infinity negative ↔
    (2 ^ 1024 - 2 ^ 970 : ℚ) ≤ num / (den * Magnitude.quantaPerUnit) := by
  rw [← Magnitude.nearest_eq_none_iff_le hden]
  unfold ofQuotient
  cases Magnitude.nearest num den <;> simp

/-- Up to half of the least positive value a quotient underflows. -/
theorem ofQuotient_eq_zero_iff (hden : 0 < den) : ofQuotient negative num den = finite negative .zero ↔
    (num / (den * Magnitude.quantaPerUnit) : ℚ) ≤ 1 / 2 ^ 1075 := by
  rw [← Magnitude.IsNearest.zero_iff]
  refine (ofQuotient_eq_finite_iff hden).trans (and_iff_right_of_imp fun hzero => ?_)
  calc (num / (den * Magnitude.quantaPerUnit) : ℚ) ≤ 1 / 2 ^ 1075 := Magnitude.IsNearest.zero_iff.1 hzero
    _ ≤ 1 := div_le_one_of_le₀ (one_le_pow₀ one_le_two) (by positivity)
    _ ≤ 2 ^ 970 := one_le_pow₀ one_le_two
    _ < 2 ^ 1024 - 2 ^ 970 := by
      rw [lt_sub_iff_add_lt, ← two_mul, ← pow_succ']
      exact pow_lt_pow_right₀ one_lt_two (by decide)

end Binary64

end Reckoner
