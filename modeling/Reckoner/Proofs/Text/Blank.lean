import Reckoner.Text.Blank
import Reckoner.Text.DecimalDigit
import Reckoner.Text.Printable

/-!
# Blanks among other characters

The blanks by their codes. The space is the only one that prints, and none of them is a digit of any script.
-/

namespace Reckoner.Text

variable {c : Char} {digit : Nat}

/-- The codes of all blanks, in order. -/
def blankCodes : List Nat :=
  List.range' 0x09 5 ++ List.range' 0x1C 5 ++ [0x85, 0xA0, 0x1680] ++ List.range' 0x2000 11 ++
    [0x2028, 0x2029, 0x202F, 0x205F, 0x3000]

theorem toNat_mem_blankCodes (hblank : isBlank c) : c.toNat ∈ blankCodes := by
  simp only [isBlank, Bool.or_eq_true, Bool.and_eq_true, decide_eq_true_eq, beq_iff_eq] at hblank
  simp only [blankCodes, List.mem_append, List.mem_range'_1, List.mem_cons, List.not_mem_nil, or_false]
  omega

theorem eq_space_of_isBlank (hblank : isBlank c) (hprintable : isPrintable c) : c = ' ' := by
  have hcodes : blankCodes.all fun code => code ≤ 0x20 || 0x7F ≤ code && isNonPrinting code := by decide
  have hcode := List.all_eq_true.1 hcodes _ (toNat_mem_blankCodes hblank)
  rw [Bool.or_eq_true, Bool.and_eq_true, decide_eq_true_eq, decide_eq_true_eq] at hcode
  apply Char.toNat_inj.1
  show c.toNat = 0x20
  unfold isPrintable at hprintable
  split at hprintable
  · rw [decide_eq_true_eq] at hprintable
    omega
  · rcases hcode with hlow | ⟨-, hhidden⟩
    · omega
    · rw [hhidden] at hprintable
      exact absurd hprintable (by decide)

/-- A decimal digit of some script, by its value. -/
def IsDecimalDigit (c : Char) (digit : Nat) : Prop := digit < 10 ∧ ∃ start ∈ digitZeros, c.toNat = start + digit

theorem isBlank_of_isDecimalDigit (hdigit : IsDecimalDigit c digit) : isBlank c = false := by
  have hcodes : blankCodes.all fun code => digitZeros.all fun start => code < start || start + 9 < code := by decide
  obtain ⟨hbelow, start, hstart, hcode⟩ := hdigit
  rw [Bool.eq_false_iff]
  intro hblank
  have hapart := List.all_eq_true.1 (List.all_eq_true.1 hcodes _ (toNat_mem_blankCodes hblank)) start hstart
  rw [Bool.or_eq_true, decide_eq_true_eq, decide_eq_true_eq] at hapart
  omega

end Reckoner.Text
