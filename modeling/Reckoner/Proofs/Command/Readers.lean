import Reckoner.Proofs.Text.Integer
import Reckoner.Settings

/-!
# Readers of settings

What the texts are from which a number of places can be read, which number that is, and what is said of all other texts.
-/

namespace Reckoner

variable {source raw : String} {value : Int} {places : Nat}

theorem placesInRange?_eq_some_iff : placesInRange? value = some places ↔ value = places ∧ places ≤ 15 := by
  have hlimit : placesLimit = 15 := rfl
  rw [placesInRange?, Option.ite_none_right_eq_some, Option.some.injEq]
  omega

theorem placesInRange?_eq_none_iff : placesInRange? value = none ↔ ¬ (0 ≤ value ∧ value ≤ 15) := by
  have hlimit : placesLimit = 15 := rfl
  rw [placesInRange?, ite_eq_right_iff]
  simp [hlimit]

theorem readPlaces_eq_ok_iff :
    readPlaces source raw = .ok places ↔ Text.integer? raw = some (places : Int) ∧ places ≤ 15 := by
  unfold readPlaces
  cases Text.integer? raw with
  | none => simp
  | some value =>
    dsimp only
    rw [Option.some.injEq, ← placesInRange?_eq_some_iff]
    cases placesInRange? value <;> simp

theorem readPlaces_eq_notInteger_iff :
    readPlaces source raw = .error (.notInteger source raw) ↔ Text.integer? raw = none := by
  unfold readPlaces
  cases Text.integer? raw with
  | none => simp
  | some value =>
    dsimp only
    cases placesInRange? value <;> simp

theorem readPlaces_eq_outOfRange_iff :
    readPlaces source raw = .error (.outOfRange source value) ↔ Text.integer? raw = some value ∧ ¬ (0 ≤ value ∧ value ≤ 15) := by
  unfold readPlaces
  cases Text.integer? raw with
  | none => simp
  | some read =>
    dsimp only
    rw [Option.some.injEq, ← placesInRange?_eq_none_iff]
    cases hrange : placesInRange? read with
    | none =>
      refine ⟨fun hread => ?_, fun hread => by rw [hread.1]⟩
      obtain ⟨-, rfl⟩ := SettingFault.outOfRange.inj (Except.error.inj hread)
      exact ⟨rfl, hrange⟩
    | some places =>
      refine iff_of_false (by simp) ?_
      rintro ⟨rfl, hnone⟩
      exact absurd (hrange.symm.trans hnone) (by simp)

theorem message_outOfRange (source : String) (value : Int) :
    (SettingFault.outOfRange source value).message = source ++ " must be between 0 and 15, got " ++ toString value := by
  show source ++ " must be between 0 and " ++ "15" ++ ", got " ++ toString value = _
  simp only [String.append_assoc]
  rfl

/-- A number of places is read from the texts that denote one within the limit. What is said of any other text depends on
whether it denotes an integer: it is quoted if it does not, and the integer is named if it does. -/
theorem readPlaces_by_denotation (source raw : String) (hplain : ∀ c ∈ raw.toList, ¬ (0x1C ≤ c.toNat ∧ c.toNat ≤ 0x1F)) :
    (∀ places : Nat, readPlaces source raw = .ok places ↔ Text.Denotes raw.toList places ∧ places ≤ 15) ∧
    (readPlaces source raw = .error (.notInteger source raw) ↔ ¬ ∃ value, Text.Denotes raw.toList value) ∧
    (∀ value, readPlaces source raw = .error (.outOfRange source value) ↔
      Text.Denotes raw.toList value ∧ ¬ (0 ≤ value ∧ value ≤ 15)) ∧
    (SettingFault.notInteger source raw).message = source ++ " must be an integer, got " ++ Text.quote raw ∧
    ∀ value, ∃ shown, (SettingFault.outOfRange source value).message = source ++ " must be between 0 and 15, got " ++ shown ∧
      Text.CanonicalDecimal shown.toList value := by
  have hdenotes (value : Int) : Text.integer? raw = some value ↔ Text.Denotes raw.toList value :=
    Text.integer?_eq_some_iff hplain
  refine ⟨fun places => ?_, ?_, fun value => ?_, rfl, fun value => ?_⟩
  · rw [readPlaces_eq_ok_iff, hdenotes]
  · rw [readPlaces_eq_notInteger_iff, Option.eq_none_iff_forall_ne_some]
    simp only [ne_eq, hdenotes, not_exists]
  · rw [readPlaces_eq_outOfRange_iff, hdenotes]
  · exact ⟨toString value, message_outOfRange source value, Text.canonicalDecimal_toString value⟩

/-- The digits are of two scripts, with zeros in front, and they are no number of places behind the minus sign. -/
theorem readPlaces_by_denotation_scripts :
    let raw := "\u3000-0_0\u0663\u09EA "
    (∀ c ∈ raw.toList, ¬ (0x1C ≤ c.toNat ∧ c.toNat ≤ 0x1F)) ∧ Text.Denotes raw.toList (-34) ∧
      readPlaces "--places" raw = .error (.outOfRange "--places" (-34)) := by
  intro raw
  have hall : raw.toList.all fun c => !decide (0x1C ≤ c.toNat ∧ c.toNat ≤ 0x1F) := by decide
  have hplain : ∀ c ∈ raw.toList, ¬ (0x1C ≤ c.toNat ∧ c.toNat ≤ 0x1F) := fun c hc => by
    simpa only [Bool.not_eq_true', decide_eq_false_iff_not] using List.all_eq_true.1 hall c hc
  have hfault : readPlaces "--places" raw = .error (.outOfRange "--places" (-34)) := by decide
  obtain ⟨-, -, houtside, -⟩ := readPlaces_by_denotation "--places" raw hplain
  exact ⟨hplain, ((houtside (-34)).1 hfault).1, hfault⟩

end Reckoner
