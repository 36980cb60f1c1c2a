import Reckoner.Binary64.Fixed
import Reckoner.Proofs.Binary64.Nearest
import Reckoner.Proofs.Grammar.Numeral
import Reckoner.Proofs.Text.Trim

/-!
# Numbers with fixed places

When a number can be written with fixed places, and its numeral as one that is read: it writes the rounded number of
units in the last place over a power of ten.
-/

namespace Reckoner

/-! ### Units in the last place -/

namespace Magnitude

variable {x : Magnitude} {places scaled : Nat}

theorem scaled_zero (places : Nat) : zero.scaled places = 0 := by
  have hunit := quantaPerUnit_pos
  rw [Magnitude.scaled, quanta_zero, Nat.zero_mul, nearestEven_eq_iff hunit, IsNearestEven, Nat.zero_mul, Nat.dist_self]
  exact .inl hunit

/-- The rounded number of units is written, unless it has too many digits or places. -/
theorem scaled?_eq_some_iff : x.scaled? places = some scaled ↔
    x.scaled places = scaled ∧
      if x = zero then places ≤ zeroPlacesLimit else places < crowdedPlaces ∧ scaled < 10 ^ digitLimit := by
  unfold scaled?
  by_cases hzero : x = zero
  · rw [if_pos hzero, if_pos hzero, hzero, scaled_zero]
    split <;> simp [*]
  · rw [if_neg hzero, if_neg hzero]
    by_cases hplaces : crowdedPlaces ≤ places
    · rw [if_pos hplaces]
      simp [Nat.not_lt.2 hplaces]
    · rw [if_neg hplaces, Option.ite_none_right_eq_some, Option.some_inj]
      constructor
      · rintro ⟨hdigits, rfl⟩
        exact ⟨rfl, Nat.lt_of_not_le hplaces, hdigits⟩
      · rintro ⟨rfl, -, hdigits⟩
        exact ⟨hdigits, rfl⟩

/-- No magnitude is as great as this number of ones. -/
def ceiling : Nat := 2 ^ 1024

/-- There is room for another unit in the last place of the greatest magnitude. -/
theorem quanta_add_le (x : Magnitude) : x.quanta + 2 ^ 2045 ≤ 2 ^ 53 * 2 ^ 2045 := by
  have hexponent := x.exponent_le
  generalize 2045 = greatest at *
  have hpower := Nat.pow_le_pow_right Nat.two_pos hexponent
  have hsignificand := mul_add_le_mul x.significand_lt (2 ^ x.exponent)
  unfold quanta
  generalize 2 ^ greatest = top at *
  omega

theorem quanta_lt (x : Magnitude) : x.quanta < ceiling * quantaPerUnit := by
  have hgreatest : 2 ^ 53 * 2 ^ 2045 = ceiling * quantaPerUnit := by decide +kernel
  have hroom := x.quanta_add_le
  rw [hgreatest] at hroom
  exact Nat.lt_of_lt_of_le (Nat.lt_add_of_pos_right (Nat.pow_pos Nat.two_pos)) hroom

theorem scaled_le (x : Magnitude) (places : Nat) : x.scaled places ≤ ceiling * 10 ^ places := by
  have hbelow : x.quanta * 10 ^ places < ceiling * 10 ^ places * quantaPerUnit := by
    rw [Nat.mul_right_comm]
    exact Nat.mul_lt_mul_of_pos_right x.quanta_lt (Nat.pow_pos (by decide))
  have hquotient := (Nat.div_lt_iff_lt_mul quantaPerUnit_pos).2 hbelow
  exact (nearestEven_le_div_succ _ _).trans hquotient

theorem exists_scaled? (x : Magnitude) (hplaces : places ≤ 91) : ∃ scaled, x.scaled? places = some scaled := by
  refine ⟨x.scaled places, scaled?_eq_some_iff.2 ⟨rfl, ?_⟩⟩
  split
  · exact hplaces.trans (by decide)
  · refine ⟨Nat.lt_of_le_of_lt hplaces (by decide), ?_⟩
    calc x.scaled places ≤ ceiling * 10 ^ places := x.scaled_le places
      _ ≤ ceiling * 10 ^ 91 := Nat.mul_le_mul_left _ (Nat.pow_le_pow_right (by decide) hplaces)
      _ < 10 ^ digitLimit := by decide +kernel

/-! ### The magnitude nearest to a rounded number

It is not the number that has been rounded, but at least as near to the rounded number, so that it is rounded alike. -/

theorem exists_nearest_scaled (x : Magnitude) (places : Nat) :
    ∃ w, nearest (x.scaled places * quantaPerUnit) (10 ^ places) = some w := by
  have hpower : 0 < 10 ^ places := Nat.pow_pos (by decide)
  rw [← Option.ne_none_iff_exists']
  intro hnone
  have hbeyond := (nearest_eq_none_iff hpower).1 hnone
  have hhalf := (nearestEven_within_half (x.quanta * 10 ^ places) quantaPerUnit quantaPerUnit_pos).2
  have htop : quantaPerUnit < 2 ^ 2045 := by decide +kernel
  have hroom := x.quanta_add_le
  unfold scaled at hbeyond
  generalize 2 ^ 2045 = top at *
  have hunit := Nat.le_mul_of_pos_right top hpower
  have hgreatest := Nat.mul_le_mul_right (10 ^ places) hroom
  rw [Nat.add_mul, Nat.mul_assoc] at hgreatest
  generalize top * 10 ^ places = unit at *
  omega

theorem scaled_nearest {w : Magnitude} (hnearest : nearest (x.scaled places * quantaPerUnit) (10 ^ places) = some w) :
    w.scaled places = x.scaled places := by
  have hnear := dist_nearest_le (Nat.pow_pos (by decide)) hnearest x
  have hx : IsNearestEven (x.quanta * 10 ^ places) quantaPerUnit (x.scaled places) :=
    isNearestEven_nearestEven _ quantaPerUnit_pos
  rw [Nat.dist_comm, Nat.dist_comm _ (x.quanta * _)] at hnear
  have hw : IsNearestEven (w.quanta * 10 ^ places) quantaPerUnit (x.scaled places) := by
    unfold IsNearestEven at *
    omega
  exact (nearestEven_eq_iff quantaPerUnit_pos).2 hw

theorem eq_zero_of_nearest {den : Nat} (hden : 0 < den) (hnearest : nearest 0 den = some x) : x = zero := by
  have hnear := dist_nearest_le hden hnearest zero
  rw [quanta_zero, Nat.zero_mul, Nat.dist_self, Nat.le_zero] at hnear
  have hquanta := Nat.eq_of_dist_eq_zero hnear
  exact quanta_eq_zero_iff.1 ((Nat.mul_eq_zero.1 hquanta.symm).resolve_right hden.ne')

/-- The magnitude nearest to a rounded number is itself rounded to it, and within the same limits. -/
theorem exists_nearest_of_scaled? (hscaled : x.scaled? places = some scaled) :
    ∃ w, nearest (scaled * quantaPerUnit) (10 ^ places) = some w ∧ w.scaled? places = some scaled := by
  obtain ⟨rfl, hlimits⟩ := scaled?_eq_some_iff.1 hscaled
  obtain ⟨w, hnearest⟩ := x.exists_nearest_scaled places
  have hsame := scaled_nearest hnearest
  refine ⟨w, hnearest, scaled?_eq_some_iff.2 ⟨hsame, ?_⟩⟩
  by_cases hzero : x.scaled places = 0
  · rw [hzero, Nat.zero_mul] at hnearest
    rw [if_pos (eq_zero_of_nearest (Nat.pow_pos (by decide)) hnearest)]
    split at hlimits
    · exact hlimits
    · exact hlimits.1.le.trans (by decide)
  · have hne : ∀ y : Magnitude, y.scaled places = x.scaled places → y ≠ zero := by
      rintro y hy rfl
      exact hzero (hy.symm.trans (scaled_zero places))
    rw [if_neg (hne x rfl)] at hlimits
    rw [if_neg (hne w hsame)]
    exact hlimits

end Magnitude

namespace Binary64

variable {negative : Bool} {x : Magnitude} {places : Int} {scaled : Nat} {text : String}

theorem fixedText_of_zero (hplaces : 0 ≤ places) (hscaled : x.scaled? places.toNat = some 0) :
    (finite negative x).fixedText places = .ok "0" := by
  unfold fixedText
  rw [if_neg (by omega)]
  simp only [hscaled]

theorem fixedText_of_pos (hplaces : 0 ≤ places) (hscaled : x.scaled? places.toNat = some scaled) (hpos : scaled ≠ 0) :
    (finite negative x).fixedText places = .ok (String.ofList
      (if negative then '-' :: fixedNumeral scaled places.toNat else fixedNumeral scaled places.toNat)) := by
  unfold fixedText
  rw [if_neg (by omega)]
  simp only [hscaled]

theorem exists_scaled_of_fixedText (htext : (finite negative x).fixedText places = .ok text) :
    0 ≤ places ∧ ∃ scaled, x.scaled? places.toNat = some scaled := by
  unfold fixedText at htext
  split at htext
  · exact absurd htext (by simp)
  · refine ⟨by omega, ?_⟩
    cases hscaled : x.scaled? places.toNat with
    | none => exact absurd htext (by simp [hscaled])
    | some scaled => exact ⟨scaled, rfl⟩

/-- Up to 91 places there is room for every number. -/
theorem exists_fixedText (value : Binary64) (hplaces : 0 ≤ places ∧ places ≤ 91) :
    ∃ text, value.fixedText places = .ok text := by
  have hsign : ¬ places < 0 := by omega
  cases value with
  | nan => exact ⟨_, by rw [fixedText, if_neg hsign]⟩
  | infinity negative => exact ⟨_, by rw [fixedText, if_neg hsign]⟩
  | finite negative x =>
    have hroom : places.toNat ≤ 91 := by omega
    obtain ⟨scaled, hscaled⟩ := x.exists_scaled? hroom
    by_cases hzero : scaled = 0
    · exact ⟨_, fixedText_of_zero hplaces.1 (hzero ▸ hscaled)⟩
    · exact ⟨_, fixedText_of_pos hplaces.1 hscaled hzero⟩

end Binary64

/-! ### Numerals -/

section Numerals

theorem exists_eq_append_zeros (digits : List Char) :
    ∃ count, digits = Text.dropTrailing (· == '0') digits ++ List.replicate count '0' := by
  obtain ⟨zeros, hdigits, hzeros⟩ := Text.exists_eq_dropTrailing_append (· == '0') digits
  refine ⟨zeros.length, ?_⟩
  rwa [← List.eq_replicate_of_mem fun c hc => beq_iff_eq.1 (hzeros c hc)]

theorem ofDigitChars_append_zeros (digits : List Char) (count : Nat) :
    Nat.ofDigitChars 10 (digits ++ List.replicate count '0') 0 = Nat.ofDigitChars 10 digits 0 * 10 ^ count := by
  rw [Nat.ofDigitChars_append, Nat.ofDigitChars_replicate_zero, Nat.mul_comm]

theorem ofDigitChars_leftpad (places rest : Nat) :
    Nat.ofDigitChars 10 ((Nat.toDigits 10 rest).leftpad places '0') 0 = rest := by
  rw [List.leftpad, Text.ofDigitChars_zeros_append, Nat.ofDigitChars_ten_toDigits]

theorem isDigit_of_mem_leftpad {places rest : Nat} {c : Char} (hc : c ∈ (Nat.toDigits 10 rest).leftpad places '0') :
    c.isDigit := by
  rcases List.mem_append.1 hc with hzero | hdigit
  · exact Text.isDigit_of_mem_zeros hzero
  · exact Text.isDigit_of_mem_toDigits hdigit

/-- The digits behind the point, without the zeros at their end. -/
def fixedFraction (rest places : Nat) : List Char :=
  Text.dropTrailing (· == '0') ((Nat.toDigits 10 rest).leftpad places '0')

section Fraction

variable {rest places : Nat}

theorem isDigit_of_mem_fixedFraction {c : Char} (hc : c ∈ fixedFraction rest places) : c.isDigit :=
   isDigit_of_mem_leftpad (Text.mem_of_mem_dropTrailing hc)

/-- The zeros that have been left out would fill the places. -/
theorem exists_fixedFraction_eq (hrest : rest < 10 ^ places) :
    ∃ count, (fixedFraction rest places).length + count = places ∧
      Nat.ofDigitChars 10 (fixedFraction rest places) 0 * 10 ^ count = rest := by
  rcases Nat.eq_zero_or_pos places with rfl | hplaces
  · obtain rfl : rest = 0 := by omega
    exact ⟨0, by decide, by decide⟩
  · obtain ⟨count, hdigits⟩ := exists_eq_append_zeros ((Nat.toDigits 10 rest).leftpad places '0')
    have hlength := congrArg List.length hdigits
    rw [List.length_leftpad, Nat.max_eq_left ((Nat.length_toDigits_le_iff (by decide) hplaces).2 hrest),
      List.length_append, List.length_replicate] at hlength
    refine ⟨count, hlength.symm, ?_⟩
    rw [fixedFraction, ← ofDigitChars_append_zeros, ← hdigits, ofDigitChars_leftpad]

theorem length_fixedFraction_le (hrest : rest < 10 ^ places) : (fixedFraction rest places).length ≤ places := by
  obtain ⟨count, hlength, -⟩ := exists_fixedFraction_eq hrest
  omega

/-- The digits behind the point write the rest over a power of ten, whatever zeros have been left out. -/
theorem ofDigitChars_fixedFraction (hrest : rest < 10 ^ places) :
    Nat.ofDigitChars 10 (fixedFraction rest places) 0 * 10 ^ places = rest * 10 ^ (fixedFraction rest places).length := by
  obtain ⟨count, hlength, hvalue⟩ := exists_fixedFraction_eq hrest
  generalize fixedFraction rest places = fraction at *
  calc Nat.ofDigitChars 10 fraction 0 * 10 ^ places
      = Nat.ofDigitChars 10 fraction 0 * 10 ^ count * 10 ^ fraction.length := by
        rw [← hlength, Nat.add_comm, Nat.pow_add, Nat.mul_assoc]
    _ = rest * 10 ^ fraction.length := by rw [hvalue]

end Fraction

/-- The numeral with fixed places is read as the number of units that it writes over a power of ten. -/
theorem exists_numeral_fixed (scaled places : Nat) : ∃ numeral : Numeral, numeral.run = fixedNumeral scaled places ∧
    numeral.literal.coefficient * 10 ^ places = scaled * 10 ^ numeral.literal.places := by
  have hdivision := Nat.div_add_mod' scaled (10 ^ places)
  have hwhole : ∀ c ∈ Nat.toDigits 10 (scaled / 10 ^ places), c.isDigit :=
    fun c hc => Text.isDigit_of_mem_toDigits hc
  have hdigits : ∀ c ∈ fixedFraction (scaled % 10 ^ places) places, c.isDigit := fun c hc => isDigit_of_mem_fixedFraction hc
  have hvalue := ofDigitChars_fixedFraction (Nat.mod_lt scaled (Nat.pow_pos (n := places) (show 0 < 10 by decide)))
  unfold fixedFraction at hdigits hvalue
  unfold fixedNumeral
  dsimp only
  generalize Text.dropTrailing _ _ = fraction at *
  cases fraction with
  | nil =>
    obtain ⟨numeral, hrun, hliteral⟩ := Literal.exists_numeral_digits hwhole Nat.toDigits_ne_nil
    rw [Nat.ofDigitChars_ten_toDigits] at hliteral
    refine ⟨numeral, hrun, ?_⟩
    rw [Nat.ofDigitChars_nil, Nat.zero_mul, List.length_nil, Nat.pow_zero, Nat.mul_one] at hvalue
    rw [hliteral]
    change scaled / 10 ^ places * 10 ^ places = scaled * 10 ^ 0
    rw [Nat.pow_zero, Nat.mul_one]
    omega
  | cons first more =>
    obtain ⟨numeral, hrun, hliteral⟩ := Literal.exists_numeral_point hwhole hdigits Nat.toDigits_ne_nil
    rw [Nat.ofDigitChars_append, Nat.ofDigitChars_ten_toDigits, Nat.ofDigitChars_eq_ofDigitChars_zero] at hliteral
    refine ⟨numeral, hrun, ?_⟩
    generalize first :: more = fraction at *
    rw [hliteral]
    calc (10 ^ fraction.length * (scaled / 10 ^ places) + Nat.ofDigitChars 10 fraction 0) * 10 ^ places
        = 10 ^ fraction.length * (scaled / 10 ^ places * 10 ^ places) + Nat.ofDigitChars 10 fraction 0 * 10 ^ places := by
          rw [Nat.add_mul, Nat.mul_assoc]
      _ = 10 ^ fraction.length * (scaled / 10 ^ places * 10 ^ places) + scaled % 10 ^ places * 10 ^ fraction.length := by
          rw [hvalue]
      _ = scaled * 10 ^ fraction.length := by
          rw [Nat.mul_comm (scaled % _), ← Nat.mul_add, hdivision, Nat.mul_comm]

end Numerals

end Reckoner
