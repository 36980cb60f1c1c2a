import Reckoner.Binary64.Arithmetic
import Reckoner.Proofs.Binary64.Exact

/-!
# Division

What IEEE 754 makes of any two numbers, said of the result and of the exact quotient. Division by zero and division by other
numbers are defined apart; together they give this result and no other one.
-/

namespace Reckoner.Binary64

variable {x y z : Binary64} {s t : Bool} {m n : Magnitude} {q : ℚ}

def isInfinite : Binary64 → Bool
  | infinity _ => true
  | _ => false

/-- The exact quotient of two finite numbers, the second of which is not zero. -/
def HasRatio (x y : Binary64) (q : ℚ) : Prop :=
  ∃ dividend divisor, x.rational? = some dividend ∧ y.rational? = some divisor ∧ divisor ≠ 0 ∧ q = dividend / divisor

/-- A quotient rounded to nearest. It is NaN only where no quotient makes sense, it has the sign of the exact quotient even if
it is an infinity or a zero, and it overflows and underflows to these where rounding does. -/
structure IsQuotient (x y z : Binary64) : Prop where
  nan_iff : z = nan ↔ x = nan ∨ y = nan ∨ (x.isZero ∧ y.isZero) ∨ (x.isInfinite ∧ y.isInfinite)
  isNegative_eq : z ≠ nan → z.isNegative = (x.isNegative ^^ y.isNegative)
  isInfinite_iff : z ≠ nan →
    (z.isInfinite ↔ y.isZero ∨ x.isInfinite ∨ ∃ q, HasRatio x y q ∧ 2 ^ 1024 - 2 ^ 970 ≤ |q|)
  isZero_iff : z ≠ nan → (z.isZero ↔ x.isZero ∨ y.isInfinite ∨ ∃ q, HasRatio x y q ∧ |q| ≤ 1 / 2 ^ 1075)
  isNearest : ∀ q, HasRatio x y q → ∀ negative m, z = finite negative m → m.IsNearest |q|

/-! ### The exact quotient -/

theorem rational?_eq_zero_iff : (if s then -m.exact else m.exact) = 0 ↔ m = .zero := by
  have hzero : m.exact = 0 ↔ m = .zero := by
    rw [Magnitude.exact, div_eq_zero_iff, or_iff_left Magnitude.cast_quantaPerUnit_pos.ne', Nat.cast_eq_zero,
      Magnitude.quanta_eq_zero_iff]
  cases s <;> simpa using hzero

/-- The exact quotient of two finite numbers is the quotient that is rounded. -/
theorem HasRatio.abs_eq (hratio : HasRatio (finite s m) (finite t n) q) :
    |q| = (m.quanta * Magnitude.quantaPerUnit : Nat) / (n.quanta * Magnitude.quantaPerUnit) := by
  obtain ⟨dividend, divisor, hdividend, hdivisor, -, rfl⟩ := hratio
  obtain rfl := Option.some.inj hdividend
  obtain rfl := Option.some.inj hdivisor
  rw [abs_div, abs_signed, abs_signed, Magnitude.exact, Magnitude.exact,
    div_div_div_cancel_right₀ Magnitude.cast_quantaPerUnit_pos.ne', Nat.cast_mul,
    mul_div_mul_right _ _ Magnitude.cast_quantaPerUnit_pos.ne']

theorem exists_hasRatio (hdivisor : n ≠ .zero) : ∃ q, HasRatio (finite s m) (finite t n) q :=
  ⟨_, _, _, rfl, rfl, mt rational?_eq_zero_iff.1 hdivisor, rfl⟩

theorem HasRatio.exists_finite (hratio : HasRatio x y q) :
    ∃ s m t n, x = finite s m ∧ y = finite t n ∧ n ≠ .zero := by
  obtain ⟨dividend, divisor, hdividend, hdivisor, hne, -⟩ := hratio
  cases x with
  | finite s m =>
    cases y with
    | finite t n =>
      obtain rfl := Option.some.inj hdivisor
      exact ⟨s, m, t, n, rfl, rfl, mt rational?_eq_zero_iff.2 hne⟩
    | _ => exact absurd hdivisor (by simp [rational?])
  | _ => exact absurd hdividend (by simp [rational?])

/-! ### One case after the other -/

theorem isQuotient_nan (hnan : x = nan ∨ y = nan ∨ (x.isZero ∧ y.isZero) ∨ (x.isInfinite ∧ y.isInfinite)) :
    IsQuotient x y nan where
  nan_iff := iff_of_true rfl hnan
  isNegative_eq hne := absurd rfl hne
  isInfinite_iff hne := absurd rfl hne
  isZero_iff hne := absurd rfl hne
  isNearest q hratio negative m hm := absurd hm (by simp)

theorem isQuotient_finite (s t : Bool) (m : Magnitude) (hdivisor : n ≠ .zero) :
    IsQuotient (finite s m) (finite t n) (ofQuotient (s ^^ t) (m.quanta * Magnitude.quantaPerUnit) n.quanta) := by
  have hden : 0 < n.quanta := Nat.pos_of_ne_zero (mt Magnitude.quanta_eq_zero_iff.1 hdivisor)
  obtain ⟨q, hratio⟩ := exists_hasRatio (s := s) (t := t) (m := m) hdivisor
  have hsame : ∀ r, HasRatio (finite s m) (finite t n) r → |r| = |q| := fun r hr => hr.abs_eq.trans hratio.abs_eq.symm
  have hsome (p : ℚ → Prop) : (∃ r, HasRatio (finite s m) (finite t n) r ∧ p |r|) ↔ p |q| :=
    ⟨fun ⟨r, hr, hp⟩ => hsame r hr ▸ hp, fun hp => ⟨q, hratio, hp⟩⟩
  have hfinite (k : Magnitude) :
      ofQuotient (s ^^ t) (m.quanta * Magnitude.quantaPerUnit) n.quanta = finite (s ^^ t) k ↔ _ :=
    ofQuotient_eq_finite_iff hden
  have hinfinity : ofQuotient (s ^^ t) (m.quanta * Magnitude.quantaPerUnit) n.quanta = infinity (s ^^ t) ↔ _ :=
    ofQuotient_eq_infinity_iff hden
  have hzero : ofQuotient (s ^^ t) (m.quanta * Magnitude.quantaPerUnit) n.quanta = finite (s ^^ t) .zero ↔ _ :=
    ofQuotient_eq_zero_iff hden
  have hcases := ofQuotient_cases (s ^^ t) (m.quanta * Magnitude.quantaPerUnit) n.quanta
  simp only [← hratio.abs_eq] at hfinite hinfinity hzero
  have hdividend : (finite s m).isZero → |q| ≤ 1 / 2 ^ 1075 := by
    intro hm
    obtain rfl : m = .zero := by simpa [isZero] using hm
    rw [hratio.abs_eq, Magnitude.quanta_zero, Nat.zero_mul, Nat.cast_zero, zero_div]
    positivity
  have hdivisor : (finite t n).isZero = false := by simp [isZero, hdivisor]
  generalize ofQuotient (s ^^ t) (m.quanta * Magnitude.quantaPerUnit) n.quanta = z at *
  have hisInfinite : z.isInfinite ↔ 2 ^ 1024 - 2 ^ 970 ≤ |q| := by
    rw [← hinfinity]
    rcases hcases with rfl | ⟨k, rfl⟩ <;> simp [isInfinite]
  have hisZero : z.isZero ↔ |q| ≤ 1 / 2 ^ 1075 := by
    rw [← hzero]
    rcases hcases with rfl | ⟨k, rfl⟩ <;> simp [isZero]
  exact {
    nan_iff := by
      rw [hdivisor]
      rcases hcases with rfl | ⟨k, rfl⟩ <;> simp [isInfinite]
    isNegative_eq := fun _ => by rcases hcases with rfl | ⟨k, rfl⟩ <;> rfl
    isInfinite_iff := fun _ => by
      rw [hisInfinite, hsome (2 ^ 1024 - 2 ^ 970 ≤ ·), hdivisor]
      simp [isInfinite]
    isZero_iff := fun _ => by
      rw [hisZero, hsome (· ≤ 1 / 2 ^ 1075)]
      simpa only [isInfinite, Bool.false_eq_true, false_or] using (or_iff_right_of_imp hdividend).symm
    isNearest := fun r hr negative k hk => by
      rcases hcases with rfl | ⟨l, rfl⟩
      · exact absurd hk (by simp)
      · obtain ⟨-, rfl⟩ := finite.inj hk
        rw [hsame r hr]
        exact ((hfinite l).1 rfl).2 }

theorem isQuotient_infinity (hratio : ∀ q, ¬ HasRatio x y q) (hinfinite : x.isInfinite ∨ y.isZero)
    (hnan : ¬ (x = nan ∨ y = nan ∨ (x.isZero ∧ y.isZero) ∨ (x.isInfinite ∧ y.isInfinite))) :
    IsQuotient x y (infinity (x.isNegative ^^ y.isNegative)) where
  nan_iff := iff_of_false (by simp) hnan
  isNegative_eq _ := rfl
  isInfinite_iff _ := iff_of_true rfl (hinfinite.elim (.inr ∘ .inl) .inl)
  isZero_iff _ := by
    refine iff_of_false (by simp [isZero]) ?_
    rintro (hx | hy | ⟨q, hq, -⟩)
    · cases x <;> simp_all [isZero, isInfinite]
    · cases y <;> simp_all [isZero, isInfinite]
    · exact hratio q hq
  isNearest q hq := absurd hq (hratio q)

theorem isQuotient_zero (s t : Bool) (m : Magnitude) : IsQuotient (finite s m) (infinity t) (finite (s ^^ t) .zero) := by
  have hratio : ∀ q, ¬ HasRatio (finite s m) (infinity t) q := by
    intro q hq
    obtain ⟨-, -, t', n, -, hy, -⟩ := hq.exists_finite
    exact absurd hy (by simp)
  exact {
    nan_iff := by simp [isZero, isInfinite]
    isNegative_eq := fun _ => rfl
    isInfinite_iff := fun _ => by simp [isInfinite, isZero, hratio]
    isZero_iff := fun _ => by simp [isInfinite, isZero]
    isNearest := fun q hq => absurd hq (hratio q) }

/-! ### Both ways of dividing -/

/-- The product of the two signs that are copied is the infinity with the sign of a quotient. -/
theorem div_of_isZero (hzero : y.isZero) :
    x.div y = if x.isZero || x = nan then nan else infinity (x.isNegative ^^ y.isNegative) := by
  rw [div, dif_pos hzero]
  cases y with
  | finite t n =>
    have hone : ¬ (⟨2 ^ 52, 1022, by decide, by decide, .inr (Nat.le_refl _)⟩ : Magnitude) = .zero := by decide
    rw [one, copySign, copySign, mul, if_neg hone]
  | _ => exact absurd hzero (by simp [isZero])

theorem isQuotient_quotient (x : Binary64) (hdivisor : y.isZero = false) : IsQuotient x y (x.quotient y hdivisor) := by
  cases x with
  | nan => exact isQuotient_nan (.inl rfl)
  | infinity s =>
    cases y with
    | nan => exact isQuotient_nan (.inr (.inl rfl))
    | infinity t => exact isQuotient_nan (.inr (.inr (.inr ⟨rfl, rfl⟩)))
    | finite t n =>
      refine isQuotient_infinity (fun q hq => ?_) (.inl rfl) (by simp [isZero, isInfinite])
      obtain ⟨s', m, -, -, hx, -⟩ := hq.exists_finite
      exact absurd hx (by simp)
  | finite s m =>
    cases y with
    | nan => exact isQuotient_nan (.inr (.inl rfl))
    | infinity t => exact isQuotient_zero s t m
    | finite t n => exact isQuotient_finite s t m (by simpa [isZero] using hdivisor)

theorem isQuotient_div (x y : Binary64) : IsQuotient x y (x.div y) := by
  by_cases hzero : y.isZero
  · rw [div_of_isZero hzero]
    split
    · rename_i hdividend
      rw [Bool.or_eq_true, decide_eq_true_eq] at hdividend
      exact isQuotient_nan (hdividend.elim (fun hx => .inr (.inr (.inl ⟨hx, hzero⟩))) .inl)
    · rename_i hdividend
      refine isQuotient_infinity (fun q hq => ?_) (.inr hzero) ?_
      · obtain ⟨s, m, t, n, -, rfl, hn⟩ := hq.exists_finite
        exact hn (by simpa [isZero] using hzero)
      · cases y <;> simp_all [isZero, isInfinite]
  · rw [div, dif_neg hzero]
    exact isQuotient_quotient x _

/-! ### The result -/

namespace IsQuotient

/-- A quotient is finite only if the divisor is infinite or there is an exact quotient. -/
theorem isInfinite_or_exists_hasRatio (hz : IsQuotient x y (finite s m)) : y.isInfinite ∨ ∃ q, HasRatio x y q := by
  have hne : finite s m ≠ nan := by simp
  have hnan := mt hz.nan_iff.2 hne
  have hinfinite := mt (hz.isInfinite_iff hne).2 (by simp [isInfinite])
  rw [not_or, not_or] at hnan hinfinite
  cases x with
  | nan => exact absurd rfl hnan.1
  | infinity => exact absurd rfl hinfinite.2.1
  | finite s' m' =>
    cases y with
    | nan => exact absurd rfl hnan.2.1
    | infinity => exact .inl rfl
    | finite t n => exact .inr (exists_hasRatio (by simpa [isZero] using hinfinite.1))

/-- NaN and infinities are told by themselves, and a finite quotient is zero or nearest to the exact one. -/
theorem unique {other : Binary64} (hz : IsQuotient x y z) (hother : IsQuotient x y other) : z = other := by
  by_cases hnan : z = nan
  · rw [hnan, hother.nan_iff.2 (hz.nan_iff.1 hnan)]
  have hnan' : other ≠ nan := mt (fun h => hz.nan_iff.2 (hother.nan_iff.1 h)) hnan
  have hsign : z.isNegative = other.isNegative := (hz.isNegative_eq hnan).trans (hother.isNegative_eq hnan').symm
  have hinfinite : z.isInfinite ↔ other.isInfinite := (hz.isInfinite_iff hnan).trans (hother.isInfinite_iff hnan').symm
  cases z with
  | nan => exact absurd rfl hnan
  | infinity s => cases other <;> simp_all [isInfinite, isNegative]
  | finite s m =>
    cases other with
    | nan => exact absurd rfl hnan'
    | infinity => exact absurd (hinfinite.2 rfl) (by simp [isInfinite])
    | finite t n =>
      obtain rfl : s = t := hsign
      rcases hz.isInfinite_or_exists_hasRatio with hy | ⟨q, hq⟩
      · have hm := (hz.isZero_iff hnan).2 (.inr (.inl hy))
        have hn := (hother.isZero_iff hnan').2 (.inr (.inl hy))
        rw [isZero, decide_eq_true_eq] at hm hn
        rw [hm, hn]
      · rw [(hz.isNearest q hq s m rfl).unique (hother.isNearest q hq s n rfl)]

end IsQuotient

/-- Dividing two numbers gives what IEEE 754 asks of a quotient, and nothing else does. -/
theorem div_eq_iff_isQuotient (x y z : Binary64) : x.div y = z ↔ IsQuotient x y z := by
  constructor
  · rintro rfl
    exact isQuotient_div x y
  · exact (isQuotient_div x y).unique

end Reckoner.Binary64
