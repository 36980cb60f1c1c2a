import Reckoner.Proofs.Binary64.Fixed

/-!
# Numbers without room

Which numbers cannot be written with fixed places: none if the places are negative, the finite ones with more digits than
the limit, and a zero with so many places that not even its last zero is written.
-/

namespace Reckoner

namespace Magnitude

variable {x : Magnitude} {places : Nat}

/-- The least positive value has so many places behind the point that the limit leaves none for its digits. -/
theorem limit_mul_quantaPerUnit_le : 10 ^ digitLimit * quantaPerUnit ≤ 10 ^ crowdedPlaces := by decide +kernel

theorem ten_pow_digitLimit_le_scaled (hpositive : x ≠ zero) (hplaces : crowdedPlaces ≤ places) :
    10 ^ digitLimit ≤ x.scaled places := by
  have hquanta : 1 ≤ x.quanta := Nat.pos_of_ne_zero fun hzero => hpositive (quanta_eq_zero_iff.1 hzero)
  refine Nat.le_trans ?_ (div_le_nearestEven _ _)
  rw [Nat.le_div_iff_mul_le quantaPerUnit_pos]
  calc 10 ^ digitLimit * quantaPerUnit ≤ 10 ^ crowdedPlaces := limit_mul_quantaPerUnit_le
    _ ≤ 10 ^ places := Nat.pow_le_pow_right (by decide) hplaces
    _ ≤ x.quanta * 10 ^ places := Nat.le_mul_of_pos_left _ hquanta

/-- A positive magnitude is written unless it has too many digits: at places that leave it no room, it has. -/
theorem scaled?_eq_none_iff : x.scaled? places = none ↔
    (x = zero ∧ zeroPlacesLimit < places) ∨ 10 ^ digitLimit ≤ x.scaled places := by
  by_cases hzero : x = zero
  · subst hzero
    have hroom : ¬ 10 ^ digitLimit ≤ 0 := Nat.not_le.2 (Nat.pow_pos (by decide))
    rw [scaled?, if_pos rfl, scaled_zero]
    simp [hroom]
  · rw [scaled?, if_neg hzero]
    by_cases hplaces : crowdedPlaces ≤ places
    · rw [if_pos hplaces]
      exact iff_of_true rfl (.inr (ten_pow_digitLimit_le_scaled hzero hplaces))
    · rw [if_neg hplaces]
      simp [hzero]

end Magnitude

namespace Binary64

variable {value : Binary64} {places : Int}

/-- More digits stand before and behind the point than are written. -/
def Crowded (value : Binary64) (places : Int) : Prop :=
  ∃ negative x, value = finite negative x ∧ digitLimit < (Nat.toDigits 10 (x.scaled places.toNat)).length

theorem digitLimit_lt_length_iff {n : Nat} : digitLimit < (Nat.toDigits 10 n).length ↔ 10 ^ digitLimit ≤ n := by
  rw [← Nat.not_le, Nat.length_toDigits_le_iff (by decide) (by decide), Nat.not_lt]

/-- A negative number of places is refused before the number is looked at, and only finite numbers can lack room. -/
theorem fixedText_eq_error_iff {fault : FixedFault} : value.fixedText places = .error fault ↔
    (places < 0 ∧ fault = .negativePlaces places) ∨
      (0 ≤ places ∧ fault = .tooManyDigits ∧ ∃ negative x, value = finite negative x ∧ x.scaled? places.toNat = none) := by
  unfold fixedText
  split
  · rename_i hnegative
    have hplaces : ¬ 0 ≤ places := by omega
    simp [hnegative, hplaces, eq_comm]
  · rename_i hnegative
    have hplaces : 0 ≤ places := by omega
    cases value with
    | nan => simp [hnegative]
    | infinity sign => simp [hnegative]
    | finite sign x =>
      cases hscaled : x.scaled? places.toNat with
      | none => simp [hnegative, hplaces, hscaled, eq_comm]
      | some scaled => cases scaled <;> simp [hnegative, hscaled]

/-- What keeps a number from being written. -/
theorem exists_fixedFault_iff : (∃ fault, value.fixedText places = .error fault) ↔
    places < 0 ∨ (0 ≤ places ∧ value.Crowded places) ∨
      (∃ negative, value = finite negative .zero) ∧ (zeroPlacesLimit : Int) < places := by
  constructor
  · rintro ⟨fault, hfault⟩
    rcases fixedText_eq_error_iff.1 hfault with ⟨hnegative, -⟩ | ⟨hplaces, -, negative, x, rfl, hscaled⟩
    · exact .inl hnegative
    · rcases Magnitude.scaled?_eq_none_iff.1 hscaled with ⟨rfl, hlimit⟩ | hdigits
      · exact .inr (.inr ⟨⟨negative, rfl⟩, by omega⟩)
      · exact .inr (.inl ⟨hplaces, negative, x, rfl, digitLimit_lt_length_iff.2 hdigits⟩)
  · rintro (hnegative | ⟨hplaces, negative, x, rfl, hdigits⟩ | ⟨⟨negative, rfl⟩, hlimit⟩)
    · exact ⟨_, fixedText_eq_error_iff.2 (.inl ⟨hnegative, rfl⟩)⟩
    · have hscaled := Magnitude.scaled?_eq_none_iff.2 (.inr (digitLimit_lt_length_iff.1 hdigits))
      exact ⟨_, fixedText_eq_error_iff.2 (.inr ⟨hplaces, rfl, negative, x, rfl, hscaled⟩)⟩
    · have hscaled := Magnitude.scaled?_eq_none_iff.2 (.inl ⟨rfl, show zeroPlacesLimit < places.toNat by omega⟩)
      exact ⟨_, fixedText_eq_error_iff.2 (.inr ⟨by omega, rfl, negative, _, rfl, hscaled⟩)⟩

end Binary64

end Reckoner
