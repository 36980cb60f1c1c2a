import Reckoner.Binary64.Arithmetic
import Reckoner.Proofs.Binary64.Canonical

/-!
# Exact operations

Rounding changes nothing about a number that is the value of a magnitude. So an operation whose exact result is the value of
some number is not rounded at all, and whole numbers up to `2 ^ 53` are values of numbers.
-/

namespace Reckoner

namespace Magnitude

/-- A magnitude is the only one nearest to itself. -/
theorem nearest_quanta_mul (x : Magnitude) {den : Nat} (hden : 0 < den) : nearest (x.quanta * den) den = some x := by
  cases hnearest : nearest (x.quanta * den) den with
  | none =>
    have hbeyond := (nearest_eq_none_iff hden).1 hnearest
    have hroom := x.quanta_add_le
    generalize 2045 = greatest at hbeyond hroom
    have htop := Nat.two_pow_pos greatest
    generalize 2 ^ greatest = top at *
    have hunit := Nat.mul_pos htop hden
    have hscaled := Nat.mul_le_mul_right den hroom
    rw [Nat.add_mul, Nat.mul_assoc] at hscaled
    generalize top * den = unit at *
    omega
  | some y =>
    have hnear := dist_nearest_le hden hnearest x
    rw [Nat.dist_self, Nat.le_zero] at hnear
    rw [quanta_injective (Nat.mul_right_cancel hden (Nat.eq_of_dist_eq_zero hnear))]

/-- Significands that are not full are doubled, one exponent lower. -/
theorem exists_quanta_eq {n exponent : Nat} (hn : n ≤ 2 ^ 53) (hexponent : exponent ≤ 2044) :
    ∃ x : Magnitude, x.quanta = n * 2 ^ exponent := by
  induction exponent generalizing n with
  | zero =>
    rcases Nat.lt_or_eq_of_le hn with hlt | rfl
    · exact ⟨⟨n, 0, hlt, by decide, .inl rfl⟩, rfl⟩
    · exact ⟨⟨2 ^ 52, 1, by decide, by decide, .inr (Nat.le_refl _)⟩, rfl⟩
  | succ exponent ih =>
    rcases Nat.lt_or_ge n (2 ^ 52) with hlow | hfull
    · obtain ⟨x, hx⟩ := ih (n := n * 2) (by omega) (by omega)
      exact ⟨x, by rw [hx, Nat.pow_succ', Nat.mul_assoc]⟩
    · rcases Nat.lt_or_eq_of_le hn with hlt | rfl
      · exact ⟨⟨n, exponent + 1, hlt, by omega, .inr hfull⟩, rfl⟩
      · refine ⟨⟨2 ^ 52, exponent + 2, by decide, by omega, .inr (Nat.le_refl _)⟩, ?_⟩
        rw [quanta, ← Nat.pow_add, ← Nat.pow_add, show 53 + (exponent + 1) = 52 + (exponent + 2) by omega]

theorem exact_eq_natCast_iff {x : Magnitude} {n : Nat} : x.exact = n ↔ x.quanta = n * quantaPerUnit := by
  rw [exact, div_eq_iff cast_quantaPerUnit_pos.ne']
  norm_cast

end Magnitude

namespace Binary64

variable {negative : Bool} {value left right : Binary64} {q r : ℚ}

/-- Whether a rational number is the exact value of a number. -/
def Representable (q : ℚ) : Prop := ∃ x : Magnitude, x.exact = |q|

theorem representable_intCast {n : ℤ} (hn : n.natAbs ≤ 2 ^ 53) : Representable n := by
  obtain ⟨x, hx⟩ := Magnitude.exists_quanta_eq hn (show Magnitude.unitExponent ≤ 2044 by decide)
  refine ⟨x, ?_⟩
  rw [← Int.cast_abs, ← Nat.cast_natAbs, Magnitude.exact_eq_natCast_iff]
  exact hx

theorem rational?_ofQuotient {num den : Nat} (hden : 0 < den) (hq : Representable q)
    (hquotient : q = (if negative then -1 else 1) * (num / (den * Magnitude.quantaPerUnit))) :
    (ofQuotient negative num den).rational? = some q := by
  obtain ⟨x, hx⟩ := hq
  have hnonneg : (0 : ℚ) ≤ num / (den * Magnitude.quantaPerUnit) :=
    div_nonneg (Nat.cast_nonneg _) (Magnitude.scale_pos hden).le
  have habs : |q| = num / (den * Magnitude.quantaPerUnit) := by
    rw [hquotient, abs_mul, abs_of_nonneg hnonneg]
    generalize (num / (den * Magnitude.quantaPerUnit) : ℚ) = quotient
    cases negative <;> simp
  have hnum : x.quanta * den = num := by
    rw [habs, Magnitude.exact, div_eq_div_iff Magnitude.cast_quantaPerUnit_pos.ne' (Magnitude.scale_pos hden).ne',
      ← mul_assoc, mul_left_inj' Magnitude.cast_quantaPerUnit_pos.ne'] at hx
    exact_mod_cast hx
  rw [← hnum, ofQuotient_of_nearest negative (x.nearest_quanta_mul hden), rational?, hquotient, ← habs, ← hx]
  cases negative <;> simp

theorem rational?_finite (negative : Bool) (x : Magnitude) :
    (finite negative x).rational? = some ((signedQuanta negative x : ℚ) / Magnitude.quantaPerUnit) := by
  cases negative with
  | false =>
    change some x.exact = some (((x.quanta : ℤ) : ℚ) / _)
    rw [Int.cast_natCast, Magnitude.exact]
  | true =>
    change some (-x.exact) = some (((-x.quanta : ℤ) : ℚ) / _)
    rw [Int.cast_neg, Int.cast_natCast, neg_div, Magnitude.exact]

theorem rational?_zero (negative : Bool) : (finite negative .zero).rational? = some 0 := by
  rw [rational?, Magnitude.exact_zero, neg_zero, ite_self]

/-! ### One operation -/

theorem rational?_neg (hvalue : value.rational? = some q) : value.neg.rational? = some (-q) := by
  obtain ⟨negative, x, rfl, rfl⟩ := rational?_eq_some_iff.1 hvalue
  cases negative
  · rfl
  · simp [neg, rational?]

theorem rational?_add (hleft : left.rational? = some q) (hright : right.rational? = some r) (hsum : Representable (q + r)) :
    (left.add right).rational? = some (q + r) := by
  obtain ⟨negative, x, rfl, -⟩ := rational?_eq_some_iff.1 hleft
  obtain ⟨negative', y, rfl, -⟩ := rational?_eq_some_iff.1 hright
  rw [rational?_finite, Option.some_inj] at hleft hright
  have htotal : q + r = ((signedQuanta negative x + signedQuanta negative' y : ℤ) : ℚ) / Magnitude.quantaPerUnit := by
    rw [← hleft, ← hright, ← add_div, Int.cast_add]
  unfold add
  dsimp only
  generalize signedQuanta negative x + signedQuanta negative' y = total at *
  split
  · rename_i hzero
    rw [htotal, hzero, Int.cast_zero, zero_div, rational?_zero]
  · refine rational?_ofQuotient Nat.one_pos hsum ?_
    rw [htotal, Nat.cast_one, one_mul, Nat.cast_natAbs, Int.cast_abs]
    generalize (Magnitude.quantaPerUnit : ℚ) = unit
    rcases lt_or_ge total 0 with hlt | hge
    · simp [hlt, abs_of_neg (Int.cast_lt_zero.2 hlt), neg_div]
    · simp [hge.not_gt, abs_of_nonneg (Int.cast_nonneg hge)]

theorem rational?_sub (hleft : left.rational? = some q) (hright : right.rational? = some r) (hdifference : Representable (q - r)) :
    (left.sub right).rational? = some (q - r) := by
  rw [sub_eq_add_neg] at hdifference ⊢
  exact rational?_add hleft (rational?_neg hright) hdifference

theorem rational?_mul (hleft : left.rational? = some q) (hright : right.rational? = some r) (hproduct : Representable (q * r)) :
    (left.mul right).rational? = some (q * r) := by
  obtain ⟨negative, x, rfl, rfl⟩ := rational?_eq_some_iff.1 hleft
  obtain ⟨negative', y, rfl, rfl⟩ := rational?_eq_some_iff.1 hright
  unfold mul
  dsimp only
  refine rational?_ofQuotient Magnitude.quantaPerUnit_pos hproduct ?_
  rw [Nat.cast_mul, mul_div_mul_comm]
  change _ = _ * (x.exact * y.exact)
  generalize x.exact = q
  generalize y.exact = r
  cases negative <;> cases negative' <;> simp

/-! ### Whole numbers -/

/-- Whole numbers are written as integers are. -/
theorem fixedText_intCast {n places : ℤ} (hvalue : value.rational? = some (n : ℚ)) (hplaces : 0 ≤ places)
    (hlimit : places ≤ 15) : value.fixedText places = .ok (toString n) := by
  obtain ⟨text, htext⟩ := exists_fixedText value ⟨hplaces, hlimit.trans (by decide)⟩
  obtain ⟨negative, x, rfl, hx⟩ := rational?_eq_some_iff.1 hvalue
  obtain ⟨-, hshown⟩ := text_shown_of_fixedText htext
  have hsigned : signedScaled negative x places.toNat = n * 10 ^ places.toNat := by
    refine (isNearestInteger_signedScaled negative x places.toNat).unique (.inl ?_)
    rw [hx]
    simp
  have hscaled : x.scaled places.toNat = n.natAbs * 10 ^ places.toNat := by
    have hnatAbs := congrArg Int.natAbs hsigned
    rw [Int.natAbs_mul, Int.natAbs_pow] at hnatAbs
    unfold signedScaled at hnatAbs
    generalize x.scaled places.toNat = scaled at hnatAbs ⊢
    cases negative <;> simpa using hnatAbs
  have hnegative : (negative && x.scaled places.toNat != 0) = true ↔ n < 0 := by
    have hpower : (0 : ℤ) < 10 ^ places.toNat := pow_pos (by decide) _
    refine (negative_shown_iff negative x places.toNat).trans ?_
    rw [hsigned]
    exact ⟨fun hproduct => neg_of_mul_neg_left hproduct hpower.le, fun hlt => mul_neg_of_neg_of_pos hlt hpower⟩
  rw [shown, PlainNumeral.text_ofScaled] at hshown
  simp only [hnegative] at hshown
  rw [hscaled, fixedNumeral_mul, ← Text.toList_toString, String.toList_inj] at hshown
  rw [htext, hshown]

end Binary64

end Reckoner
