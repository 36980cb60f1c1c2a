import Mathlib.Data.Nat.Dist
import Reckoner.Binary64.Rounding

/-!
# What rounding to nearest finds

A whole number is the rounded quotient exactly if it is within half a unit of it, and even where the half is reached. The
magnitude that a quotient rounds to is as near to it as any other magnitude; there is none from halfway between the
greatest one and the next power of two onwards.
-/

namespace Reckoner

/-- A whole number is at most half a unit away from `num / den`, and even if it is as much as half a unit away. -/
def IsNearestEven (num den k : Nat) : Prop :=
  2 * Nat.dist num (k * den) < den ∨ 2 * Nat.dist num (k * den) = den ∧ k % 2 = 0

section NearestEven

variable {num den k : Nat}

theorem isNearestEven_nearestEven (num : Nat) (hden : 0 < den) : IsNearestEven num den (nearestEven num den) := by
  have hdivision := Nat.div_add_mod num den
  have hremainder := Nat.mod_lt num hden
  rw [Nat.mul_comm] at hdivision
  unfold IsNearestEven nearestEven Nat.dist
  dsimp only
  split
  · generalize num / den * den = below at *
    omega
  · rw [Nat.add_mul, Nat.one_mul]
    generalize num / den * den = below at *
    omega

theorem mul_add_le_mul {left right : Nat} (hlt : left < right) (den : Nat) : left * den + den ≤ right * den := by
  rw [← Nat.succ_mul]
  exact Nat.mul_le_mul_right den hlt

theorem IsNearestEven.not_lt {left right : Nat} (hden : 0 < den) (hleft : IsNearestEven num den left)
    (hright : IsNearestEven num den right) : ¬ left < right := by
  intro hlt
  have hgap := mul_add_le_mul hlt den
  unfold IsNearestEven Nat.dist at hleft hright
  -- neighbours are both half a unit away only if one of them is odd, and others are never both so near
  rcases Nat.lt_or_eq_of_le (Nat.succ_le_of_lt hlt) with hfar | rfl
  · have hfurther := mul_add_le_mul hfar den
    rw [Nat.succ_mul] at hfurther
    omega
  · omega

theorem IsNearestEven.unique {left right : Nat} (hden : 0 < den) (hleft : IsNearestEven num den left)
    (hright : IsNearestEven num den right) : left = right :=
  Nat.le_antisymm (Nat.le_of_not_lt (hright.not_lt hden hleft)) (Nat.le_of_not_lt (hleft.not_lt hden hright))

theorem nearestEven_eq_iff (hden : 0 < den) : nearestEven num den = k ↔ IsNearestEven num den k := by
  constructor
  · rintro rfl
    exact isNearestEven_nearestEven num hden
  · exact fun hk => (isNearestEven_nearestEven num hden).unique hden hk

/-- No whole number is nearer to a quotient than the rounded one. -/
theorem dist_nearestEven_le (num : Nat) (hden : 0 < den) (k : Nat) :
    Nat.dist num (nearestEven num den * den) ≤ Nat.dist num (k * den) := by
  have hnearest := isNearestEven_nearestEven num hden
  unfold IsNearestEven at hnearest
  rcases Nat.lt_trichotomy k (nearestEven num den) with hlt | rfl | hgt
  · have hgap := mul_add_le_mul hlt den
    unfold Nat.dist at *
    omega
  · exact Nat.le_refl _
  · have hgap := mul_add_le_mul hgt den
    unfold Nat.dist at *
    omega

theorem nearestEven_mul_right (num den : Nat) {factor : Nat} (hfactor : 0 < factor) :
    nearestEven (num * factor) (den * factor) = nearestEven num den := by
  have hlt : 2 * (num % den * factor) < den * factor ↔ 2 * (num % den) < den := by
    rw [← Nat.mul_assoc, Nat.mul_lt_mul_right hfactor]
  have heq : 2 * (num % den * factor) = den * factor ↔ 2 * (num % den) = den := by
    rw [← Nat.mul_assoc, Nat.mul_right_cancel_iff hfactor]
  simp only [nearestEven, Nat.mul_div_mul_right _ _ hfactor, Nat.mul_mod_mul_right, hlt, heq]

end NearestEven

namespace Magnitude

variable {num den : Nat} {x y : Magnitude}

theorem lt_two_pow_binade (num : Nat) (hden : 0 < den) : num < 2 ^ (53 + binade (num / den)) * den := by
  rw [← Nat.div_lt_iff_lt_mul hden]
  refine Nat.lt_of_lt_of_le Nat.lt_log2_self (Nat.pow_le_pow_right (by decide) ?_)
  unfold binade
  omega

theorem two_pow_binade_le (num : Nat) (hden : 0 < den) (hbinade : 0 < binade (num / den)) :
    2 ^ (52 + binade (num / den)) * den ≤ num := by
  have hpositive : num / den ≠ 0 := by
    intro hzero
    rw [hzero] at hbinade
    exact absurd hbinade (by decide)
  rw [← Nat.le_div_iff_mul_le hden]
  refine Nat.le_trans (Nat.pow_le_pow_right (by decide) ?_) (Nat.log2_self_le hpositive)
  unfold binade at hbinade ⊢
  omega

/-- A magnitude that a quotient rounds to is in the binade of the quotient, or opens the next one. -/
theorem nearest_cases (hnearest : nearest num den = some x) :
    let significand := nearestEven num (den * 2 ^ binade (num / den))
    (x.significand = significand ∧ x.exponent = binade (num / den)) ∨
      significand = 2 ^ 53 ∧ x.significand = 2 ^ 52 ∧ x.exponent = binade (num / den) + 1 := by
  have hbound := (significand_bounds num den).1
  unfold nearest at hnearest
  dsimp only at hnearest ⊢
  split at hnearest
  · split at hnearest
    · obtain rfl := Option.some.inj hnearest
      exact .inl ⟨rfl, rfl⟩
    · exact absurd hnearest (by simp)
  · split at hnearest
    · obtain rfl := Option.some.inj hnearest
      exact .inr ⟨by omega, rfl, rfl⟩
    · exact absurd hnearest (by simp)

/-- The significand that a quotient has in its binade, before it is seen whether it opens the next one. -/
theorem nearest_eq_some (hnearest : nearest num den = some x) :
    x.quanta = nearestEven num (den * 2 ^ binade (num / den)) * 2 ^ binade (num / den) := by
  rcases nearest_cases hnearest with ⟨hsignificand, hexponent⟩ | ⟨hcarry, hsignificand, hexponent⟩
  · rw [quanta, hsignificand, hexponent]
  · rw [quanta, hcarry, hsignificand, hexponent, ← Nat.pow_add, ← Nat.pow_add]
    congr 1
    omega

theorem nearest_mul_right (num den : Nat) {factor : Nat} (hfactor : 0 < factor) :
    nearest (num * factor) (den * factor) = nearest num den := by
  have hsignificand : nearestEven (num * factor) (den * factor * 2 ^ binade (num / den)) =
      nearestEven num (den * 2 ^ binade (num / den)) := by
    rw [Nat.mul_right_comm, nearestEven_mul_right _ _ hfactor]
  simp only [nearest, Nat.mul_div_mul_right _ _ hfactor, hsignificand]

/-! ### Magnitudes in order -/

theorem quanta_lt_of_exponent_lt {exponent : Nat} (hexponent : y.exponent < exponent) :
    y.quanta < 2 ^ 52 * 2 ^ exponent := by
  have hpower : 2 ^ (y.exponent + 1) ≤ 2 ^ exponent := Nat.pow_le_pow_right (by decide) hexponent
  have hsignificand := Nat.mul_lt_mul_of_pos_right y.significand_lt (Nat.two_pow_pos y.exponent)
  rw [Nat.pow_succ] at hpower
  unfold quanta
  omega

theorem exists_quanta_eq_mul {exponent : Nat} (hexponent : exponent ≤ y.exponent) :
    ∃ count, y.quanta = count * 2 ^ exponent := by
  refine ⟨y.significand * 2 ^ (y.exponent - exponent), ?_⟩
  rw [quanta, Nat.mul_assoc, ← Nat.pow_add, Nat.sub_add_cancel hexponent]

/-- A lower exponent makes a lesser magnitude, because above the lowest exponent significands are full. -/
theorem exponent_le_of_quanta_le (hle : x.quanta ≤ y.quanta) : x.exponent ≤ y.exponent := by
  by_contra hlt
  have hexponent := Nat.lt_of_not_le hlt
  have hhigh := quanta_lt_of_exponent_lt hexponent
  have hfull := x.full.resolve_left (Nat.ne_zero_of_lt hexponent)
  have hlow : 2 ^ 52 * 2 ^ x.exponent ≤ x.quanta := Nat.mul_le_mul_right _ hfull
  omega

/-- Above a magnitude the next one is a unit in its last place away. -/
theorem quanta_add_le_of_lt (hlt : x.quanta < y.quanta) : x.quanta + 2 ^ x.exponent ≤ y.quanta := by
  obtain ⟨count, hcount⟩ := exists_quanta_eq_mul (exponent_le_of_quanta_le hlt.le)
  rw [hcount] at hlt ⊢
  exact mul_add_le_mul (Nat.lt_of_mul_lt_mul_right hlt) _

theorem quanta_injective (hquanta : x.quanta = y.quanta) : x = y := by
  have hexponent : x.exponent = y.exponent :=
    Nat.le_antisymm (exponent_le_of_quanta_le hquanta.le) (exponent_le_of_quanta_le hquanta.ge)
  unfold quanta at hquanta
  rw [hexponent] at hquanta
  have hsignificand := Nat.mul_right_cancel (Nat.two_pow_pos _) hquanta
  cases x
  cases y
  cases hexponent
  cases hsignificand
  rfl

/-- A magnitude with an even significand is followed by one with an odd significand. -/
theorem exists_next (heven : x.significand % 2 = 0) :
    ∃ next : Magnitude, next.quanta = x.quanta + 2 ^ x.exponent ∧ next.significand % 2 = 1 := by
  have hsignificand := x.significand_lt
  have hfull := x.full
  refine ⟨⟨x.significand + 1, x.exponent, by omega, x.exponent_le, by omega⟩, ?_, by dsimp only; omega⟩
  rw [quanta, quanta, Nat.add_mul, Nat.one_mul]

/-! ### The nearest magnitude -/

/-- No magnitude other than the one that a quotient rounds to is as near to it, unless that one has an even significand. -/
theorem dist_nearest_lt_or_tie (hden : 0 < den) (hnearest : nearest num den = some x) (hother : y ≠ x) :
    Nat.dist num (x.quanta * den) < Nat.dist num (y.quanta * den) ∨
      Nat.dist num (x.quanta * den) = Nat.dist num (y.quanta * den) ∧ x.significand % 2 = 0 := by
  have hx := nearest_eq_some hnearest
  have hcases := nearest_cases hnearest
  have hbelow := two_pow_binade_le num hden
  have hne : y.quanta ≠ x.quanta := fun hquanta => hother (quanta_injective hquanta)
  generalize binade (num / den) = exponent at *
  have hunit : 0 < den * 2 ^ exponent := Nat.mul_pos hden (Nat.two_pow_pos _)
  have hrounded := isNearestEven_nearestEven num hunit
  generalize hsignificand : nearestEven num (den * 2 ^ exponent) = significand at *
  have heven : significand % 2 = 0 → x.significand % 2 = 0 := by
    intro heven
    dsimp only at hcases
    omega
  have hquanta : ∀ count, count * 2 ^ exponent * den = count * (den * 2 ^ exponent) := by
    intro count
    rw [Nat.mul_assoc, Nat.mul_comm (2 ^ exponent)]
  rw [hx, hquanta]
  rcases Nat.lt_or_ge y.exponent exponent with hexponent | hexponent
  -- it is in a lower binade, and so further off than the least of this one
  · have hleast := dist_nearestEven_le num hunit (2 ^ 52)
    have hnum := hbelow (Nat.zero_lt_of_lt hexponent)
    have hy := Nat.mul_lt_mul_of_pos_right (quanta_lt_of_exponent_lt hexponent) hden
    rw [Nat.pow_add, hquanta] at hnum
    rw [hquanta] at hy
    rw [hsignificand] at hleast
    unfold Nat.dist at *
    omega
  -- it is a whole number of the units that were rounded to
  · obtain ⟨count, hcount⟩ := exists_quanta_eq_mul hexponent
    rw [hcount, hquanta]
    have hdiffers : count ≠ significand := by
      rintro rfl
      exact hne (hcount.trans hx.symm)
    unfold IsNearestEven at hrounded
    generalize den * 2 ^ exponent = unit at *
    rcases Nat.lt_or_gt_of_ne hdiffers with hlt | hgt
    · have hgap := mul_add_le_mul hlt unit
      unfold Nat.dist at *
      omega
    · have hgap := mul_add_le_mul hgt unit
      unfold Nat.dist at *
      omega

/-- No magnitude is nearer to a quotient than the one that it rounds to. -/
theorem dist_nearest_le (hden : 0 < den) (hnearest : nearest num den = some x) (y : Magnitude) :
    Nat.dist num (x.quanta * den) ≤ Nat.dist num (y.quanta * den) := by
  by_cases hother : y = x
  · rw [hother]
  · rcases dist_nearest_lt_or_tie hden hnearest hother with hlt | ⟨htie, -⟩
    · exact hlt.le
    · exact htie.le

/-- From halfway between the greatest number of a binade and the next power of two on, a quotient is beyond the binade. -/
theorem beyond_binade_iff (hden : 0 < den) (top : Nat) :
    (top < binade (num / den) ∨
      binade (num / den) = top ∧ nearestEven num (den * 2 ^ binade (num / den)) = 2 ^ 53) ↔
        (2 ^ 54 - 1) * (2 ^ top * den) ≤ 2 * num := by
  have habove := lt_two_pow_binade num hden
  have hbelow := two_pow_binade_le num hden
  have hscale : ∀ bits : Nat, 2 ^ (bits + top) * den = 2 ^ bits * (2 ^ top * den) := by
    intro bits
    rw [Nat.pow_add, Nat.mul_assoc]
  have hunit : 0 < 2 ^ top * den := Nat.mul_pos (Nat.two_pow_pos _) hden
  generalize binade (num / den) = exponent at *
  rcases Nat.lt_trichotomy exponent top with hlow | rfl | hhigh
  · have hnum : num < 2 ^ (52 + top) * den :=
      Nat.lt_of_lt_of_le habove (Nat.mul_le_mul_right den (Nat.pow_le_pow_right (by decide) (by omega)))
    rw [hscale] at hnum
    generalize 2 ^ top * den = unit at *
    omega
  · rw [hscale] at habove
    rw [Nat.mul_comm den, nearestEven_eq_iff hunit, IsNearestEven, Nat.dist]
    generalize 2 ^ exponent * den = unit at *
    omega
  · have hnum : 2 ^ (53 + top) * den ≤ num :=
      Nat.le_trans (Nat.mul_le_mul_right den (Nat.pow_le_pow_right (by decide) (by omega))) (hbelow (by omega))
    rw [hscale] at hnum
    generalize 2 ^ top * den = unit at *
    omega

/-- There is no magnitude for what is as far as halfway from the greatest magnitude to the next power of two. -/
theorem nearest_eq_none_iff (hden : 0 < den) :
    nearest num den = none ↔ (2 ^ 54 - 1) * (2 ^ 2045 * den) ≤ 2 * num := by
  refine Iff.trans ?_ (beyond_binade_iff hden 2045)
  have hbound := (significand_bounds num den).1
  unfold nearest
  dsimp only
  split <;> split <;> simp only [reduceCtorEq, false_iff, true_iff] <;> omega

end Magnitude

theorem Binary64.ofQuotient_of_nearest {num den : Nat} {w : Magnitude} (negative : Bool)
    (hnearest : Magnitude.nearest num den = some w) : ofQuotient negative num den = finite negative w := by
  unfold ofQuotient
  rw [hnearest]

theorem Binary64.ofQuotient_eq_of_cross {num den num' den' : Nat} (hden : 0 < den) (hden' : 0 < den')
    (hcross : num * den' = num' * den) (negative : Bool) :
    ofQuotient negative num den = ofQuotient negative num' den' := by
  have hscaled := Magnitude.nearest_mul_right num den hden'
  have hscaled' := Magnitude.nearest_mul_right num' den' hden
  rw [hcross, Nat.mul_comm den] at hscaled
  have hsame : Magnitude.nearest num den = Magnitude.nearest num' den' := hscaled.symm.trans hscaled'
  unfold ofQuotient
  rw [hsame]

end Reckoner
