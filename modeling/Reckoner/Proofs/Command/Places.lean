import Reckoner.Proofs.Binary64.Canonical
import Reckoner.Proofs.Binary64.Limits
import Reckoner.Proofs.Command.Settings

/-!
# Places that are always enough

The limit to the digits of a rounded number leaves room for all digits before the point of every number and for 91 behind
it. Neither the settings nor an option admit as many places, so nothing that the calculator shows is ever without room.
-/

namespace Reckoner

namespace Magnitude

variable {x : Magnitude}

def greatest : Magnitude := ⟨2 ^ 53 - 1, 2045, by decide, by decide, .inr (by decide)⟩

theorem quanta_le_greatest (x : Magnitude) : x.quanta ≤ greatest.quanta := by
  have hroom := x.quanta_add_le
  simp only [greatest, quanta] at hroom ⊢
  generalize 2045 = exponent at hroom ⊢
  generalize 2 ^ exponent = top at *
  omega

theorem eq_greatest (hgreatest : ∀ y : Magnitude, y.quanta ≤ x.quanta) : x = greatest :=
  quanta_injective (Nat.le_antisymm x.quanta_le_greatest (hgreatest greatest))

end Magnitude

namespace Binary64

variable {value : Binary64} {places : Int}

/-- Rounded half to even at the last of the places, the absolute value has more digits than are written. -/
def Overfull (value : Binary64) (places : Nat) : Prop :=
  ∃ q k, value.rational? = some q ∧ IsNearestInteger (|q| * 10 ^ places) k ∧
    digitLimit < (Nat.toDigits 10 k.natAbs).length

theorem crowded_iff_overfull : value.Crowded places ↔ value.Overfull places.toNat := by
  constructor
  · rintro ⟨negative, x, rfl, hdigits⟩
    refine ⟨_, x.scaled places.toNat, rfl, ?_, ?_⟩
    · rw [abs_signed]
      exact isNearestInteger_scaled x places.toNat
    · rwa [Int.natAbs_natCast]
  · rintro ⟨q, k, hq, hk, hdigits⟩
    obtain ⟨negative, x, rfl, rfl⟩ := rational?_eq_some_iff.1 hq
    rw [abs_signed] at hk
    rw [hk.unique (isNearestInteger_scaled x places.toNat), Int.natAbs_natCast] at hdigits
    exact ⟨negative, x, rfl, hdigits⟩

theorem fixedText_negativePlaces_iff {count : Int} :
    value.fixedText places = .error (.negativePlaces count) ↔ places < 0 ∧ count = places := by
  rw [fixedText_eq_error_iff]
  simp

/-- Only so many places are covered, because a zero lacks room at more than `zeroPlacesLimit` places. -/
theorem fixedText_tooManyDigits_iff (hplaces : places ≤ 999999) :
    value.fixedText places = .error .tooManyDigits ↔ 0 ≤ places ∧ value.Overfull places.toNat := by
  have hlimit : ¬ zeroPlacesLimit < places.toNat := by
    unfold zeroPlacesLimit
    omega
  rw [fixedText_eq_error_iff, ← crowded_iff_overfull]
  constructor
  · rintro (⟨-, hfault⟩ | ⟨hroom, -, negative, x, rfl, hscaled⟩)
    · exact absurd hfault (by simp)
    · rcases Magnitude.scaled?_eq_none_iff.1 hscaled with ⟨-, hmany⟩ | hdigits
      · exact absurd hmany hlimit
      · exact ⟨hroom, negative, x, rfl, digitLimit_lt_length_iff.2 hdigits⟩
  · rintro ⟨hroom, negative, x, rfl, hdigits⟩
    refine .inr ⟨hroom, rfl, negative, x, rfl, ?_⟩
    exact Magnitude.scaled?_eq_none_iff.2 (.inr (digitLimit_lt_length_iff.1 hdigits))

theorem fixedText_greatest (negative : Bool) : (finite negative .greatest).fixedText 92 = .error .tooManyDigits := by
  cases negative <;> decide +kernel

/-- Numbers are refused for negative places, whatever they are, and finite ones for more digits than are written. All numbers
are written with up to 91 places, and so with any that the settings or an option admit; with 92 places the greatest one is
not. -/
theorem fixedText_fails_exactly (value : Binary64) (places : Int) (hplaces : places ≤ 999999) :
    ((∃ count, value.fixedText places = .error (.negativePlaces count)) ↔ places < 0) ∧
    (value.fixedText places = .error .tooManyDigits ↔ 0 ≤ places ∧ value.Overfull places.toNat) ∧
    (0 ≤ places → ¬ value.Overfull places.toNat → ∃ text, value.fixedText places = .ok text) ∧
    (0 ≤ places → places ≤ 91 → ∃ text, value.fixedText places = .ok text) ∧
    (∀ environment settings arguments command, Settings.load environment = .ok settings →
      Command.ofArguments arguments = some command →
        (∃ text, value.fixedText settings.places = .ok text) ∧
        ∃ text, value.fixedText (command.places?.getD settings.places) = .ok text) ∧
    ∀ negative x, (∀ y : Magnitude, y.quanta ≤ x.quanta) → (finite negative x).fixedText 92 = .error .tooManyDigits := by
  have hwritten (limited : Nat) (hlimited : limited ≤ placesLimit) : ∃ text, value.fixedText limited = .ok text := by
    obtain ⟨hlow, hhigh⟩ := Settings.bounds_of_le_placesLimit hlimited
    exact value.exists_fixedText ⟨hlow, hhigh.trans (by decide)⟩
  refine ⟨?_, fixedText_tooManyDigits_iff hplaces, ?_, fun hlow hhigh => value.exists_fixedText ⟨hlow, hhigh⟩, ?_, ?_⟩
  · simp [fixedText_negativePlaces_iff]
  · intro hlow hroom
    cases htext : value.fixedText places with
    | ok text => exact ⟨text, rfl⟩
    | error fault =>
      cases fault with
      | negativePlaces count => exact absurd (fixedText_negativePlaces_iff.1 htext).1 (by omega)
      | tooManyDigits => exact absurd ((fixedText_tooManyDigits_iff hplaces).1 htext).2 hroom
  · intro environment settings arguments command hload hcommand
    exact ⟨hwritten _ (Settings.places_le_of_load hload), hwritten _ (Command.getD_places_le hcommand hload)⟩
  · intro negative x hgreatest
    rw [Magnitude.eq_greatest hgreatest]
    exact fixedText_greatest negative

theorem fixedText_fails_exactly_crowded :
    (92 : Int) ≤ 999999 ∧ (finite true .greatest).Overfull 92 ∧ ∃ text, (finite true .greatest).fixedText 91 = .ok text :=
  have hcrowded := (fixedText_fails_exactly (finite true .greatest) 92 (by decide)).2.1.1 (fixedText_greatest true)
  have hroom := (fixedText_fails_exactly (finite true .greatest) 91 (by decide)).2.2.2.1 (by decide) (by decide)
  ⟨by decide, hcrowded.2, hroom⟩

end Binary64

end Reckoner
