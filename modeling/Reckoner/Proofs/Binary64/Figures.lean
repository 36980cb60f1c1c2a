import Reckoner.Binary64.Fixed
import Reckoner.Binary64.Shortest
import Reckoner.Proofs.Text.Quoted
import Reckoner.Proofs.Text.Trim

/-!
# Characters of written numbers

However a number is written, its text is of printing characters, and so it is a single line.
-/

namespace Reckoner

variable {c : Char} {digits : List Char}

namespace Layout

open Text

theorem isOrdinary_of_mem_positional (hdigits : ∀ c ∈ digits, isOrdinary c) {whole : Int}
    (hc : c ∈ positional digits whole) : isOrdinary c := by
  have hfilled (count : Nat) : ∀ c ∈ digits ++ List.replicate count '0', isOrdinary c := by
    intro c hc
    rcases List.mem_append.1 hc with hc | hc
    · exact hdigits c hc
    · rw [List.eq_of_mem_replicate hc]
      decide
  unfold positional at hc
  split at hc
  · simp only [List.mem_cons, List.mem_append, List.mem_replicate] at hc
    rcases hc with rfl | rfl | ⟨-, rfl⟩ | hc
    · decide
    · decide
    · decide
    · exact hdigits c hc
  · dsimp only at hc
    rw [List.mem_append, List.mem_cons] at hc
    rcases hc with hc | rfl | hc
    · exact hfilled _ c (List.mem_of_mem_take hc)
    · decide
    · exact hfilled _ c (List.mem_of_mem_drop hc)

theorem isOrdinary_of_mem_scientific {layout : Layout} {place : Int} (hdigits : ∀ c ∈ digits, isOrdinary c)
    (hc : c ∈ layout.scientific digits place) : isOrdinary c := by
  have hfraction : ∀ c ∈ (if digits.drop 1 = [] then [] else '.' :: digits.drop 1), isOrdinary c := by
    intro c hc
    split at hc
    · exact absurd hc List.not_mem_nil
    · rcases List.mem_cons.1 hc with rfl | hc
      · decide
      · exact hdigits c (List.mem_of_mem_drop hc)
  have hsign : isOrdinary (if place < 0 then '-' else '+') := by split <;> decide
  unfold scientific at hc
  dsimp only at hc
  simp only [List.mem_append, List.mem_cons] at hc
  rcases hc with (hc | hc) | rfl | rfl | hc
  · exact hdigits c (List.mem_of_mem_take hc)
  · exact hfraction c hc
  · decide
  · exact hsign
  · exact isOrdinary_of_mem_leftpad (by decide) hc

theorem isOrdinary_of_mem_write {layout : Layout} {d : Decimal} (hc : c ∈ layout.write d) : isOrdinary c := by
  have hdigits : ∀ c ∈ dropTrailing (· == '0') (Nat.toDigits 10 d.coefficient), isOrdinary c := fun c hc =>
    isOrdinary_of_mem_toDigits (by decide) (mem_of_mem_dropTrailing hc)
  unfold write at hc
  dsimp only at hc
  split at hc
  · exact isOrdinary_of_mem_positional hdigits hc
  · exact isOrdinary_of_mem_scientific hdigits hc

end Layout

theorem isOrdinary_of_mem_fixedNumeral {scaled places : Nat} (hc : c ∈ fixedNumeral scaled places) :
    Text.isOrdinary c := by
  have hwhole : ∀ c ∈ Nat.toDigits 10 (scaled / 10 ^ places), Text.isOrdinary c := fun c hc =>
    Text.isOrdinary_of_mem_toDigits (by decide) hc
  unfold fixedNumeral at hc
  dsimp only at hc
  split at hc
  · exact hwhole c hc
  · rename_i first more hfraction
    rcases List.mem_append.1 hc with hc | hc
    · exact hwhole c hc
    · rcases List.mem_cons.1 hc with rfl | hc
      · decide
      · exact Text.isOrdinary_of_mem_leftpad (by decide) (Text.mem_of_mem_dropTrailing (hfraction ▸ hc))

namespace Binary64

theorem isOrdinary_of_mem_signed {negative : Bool} (hdigits : ∀ c ∈ digits, Text.isOrdinary c)
    (hc : c ∈ (String.ofList (if negative then '-' :: digits else digits)).toList) : Text.isOrdinary c := by
  rw [String.toList_ofList] at hc
  split at hc
  · rcases List.mem_cons.1 hc with rfl | hc
    · decide
    · exact hdigits c hc
  · exact hdigits c hc

theorem isPrintable_of_mem_shortestText {value : Binary64} (hc : c ∈ value.shortestText.toList) :
    Text.isPrintable c := by
  cases value with
  | nan => exact List.all_eq_true.1 (by decide : "nan".toList.all Text.isPrintable) c hc
  | infinity negative =>
    cases negative with
    | false => exact List.all_eq_true.1 (by decide : "inf".toList.all Text.isPrintable) c hc
    | true => exact List.all_eq_true.1 (by decide : "-inf".toList.all Text.isPrintable) c hc
  | finite negative x =>
    refine Text.isPrintable_of_isOrdinary (isOrdinary_of_mem_signed (fun c hc => ?_) hc)
    split at hc
    · exact List.all_eq_true.1 (by decide : ['0', '.', '0'].all Text.isOrdinary) c hc
    · exact Layout.isOrdinary_of_mem_write hc

/-- A value is written with ordinary characters but for the sign of infinity. -/
theorem isOrdinary_or_eq_of_mem_fixedText {value : Binary64} {places : Int} {text : String}
    (htext : value.fixedText places = .ok text) (hc : c ∈ text.toList) : Text.isOrdinary c ∨ c = '∞' := by
  have hword {word : String} (hword : word.toList.all fun c => Text.isOrdinary c || c == '∞') (hc : c ∈ word.toList) :
      Text.isOrdinary c ∨ c = '∞' := by simpa using List.all_eq_true.1 hword c hc
  unfold fixedText at htext
  split at htext
  · exact absurd htext (by simp)
  · split at htext
    · obtain rfl := Except.ok.inj htext
      exact hword (by decide : "NaN".toList.all _) hc
    · rename_i negative
      obtain rfl := Except.ok.inj htext
      cases negative with
      | false => exact hword (by decide : "∞".toList.all _) hc
      | true => exact hword (by decide : "-∞".toList.all _) hc
    · split at htext
      · exact absurd htext (by simp)
      · obtain rfl := Except.ok.inj htext
        exact hword (by decide : "0".toList.all _) hc
      · obtain rfl := Except.ok.inj htext
        refine .inl ?_
        exact isOrdinary_of_mem_signed (fun c hc => isOrdinary_of_mem_fixedNumeral hc) hc

theorem isLegible_of_mem_fixedText {value : Binary64} {places : Int} {text : String}
    (htext : value.fixedText places = .ok text) (hc : c ∈ text.toList) : Text.isLegible c := by
  rcases isOrdinary_or_eq_of_mem_fixedText htext hc with hordinary | rfl
  · exact Text.isLegible_of_isOrdinary hordinary
  · decide

theorem isPrintable_of_mem_fixedText {value : Binary64} {places : Int} {text : String}
    (htext : value.fixedText places = .ok text) (hc : c ∈ text.toList) : Text.isPrintable c :=
  Text.isPrintable_of_isLegible (isLegible_of_mem_fixedText htext hc)

end Binary64

end Reckoner
