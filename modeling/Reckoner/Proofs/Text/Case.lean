import Mathlib.Data.List.Forall2
import Reckoner.Proofs.Text.Trim
import Reckoner.Text.Case

/-!
# Which texts stand for a word

A word of lower case letters is meant by every text that has it in any case and blanks around it. The kelvin sign is the only
character beyond ASCII that counts as a letter.
-/

namespace Reckoner.Text

variable {c letter : Char} {cs lead trail word : List Char}

def CountsAs (letter c : Char) : Prop := c = letter ∨ c = letter.toUpper ∨ letter = 'k' ∧ c = '\u212A'

/-- A text in which a word stands between blanks, each letter of it in either case. -/
def StandsFor (cs word : List Char) : Prop :=
  ∃ lead core trail, cs = lead ++ core ++ trail ∧ (∀ c ∈ lead, isBlank c) ∧ List.Forall₂ CountsAs word core ∧
    ∀ c ∈ trail, isBlank c

/-! ### One letter -/

theorem code_bounds_of_isLower (hletter : letter.isLower) : 97 ≤ letter.toNat ∧ letter.toNat ≤ 122 := by
  obtain ⟨hfirst, hlast⟩ := Bool.and_eq_true_iff.1 hletter
  exact ⟨UInt32.le_iff_toNat_le.1 (of_decide_eq_true hfirst), UInt32.le_iff_toNat_le.1 (of_decide_eq_true hlast)⟩

theorem toNat_toLower (c : Char) : c.toLower.toNat = if 65 ≤ c.toNat ∧ c.toNat ≤ 90 then c.toNat + 32 else c.toNat := by
  have hcode : c.val.toNat = c.toNat := rfl
  have hupper : c.val ≥ 'A'.val ∧ c.val ≤ 'Z'.val ↔ 65 ≤ c.toNat ∧ c.toNat ≤ 90 := by
    simp [UInt32.le_iff_toNat_le]
  unfold Char.toLower
  split
  · rename_i hletter
    have hbounds := hupper.1 hletter
    have hdistance : ('a'.val - 'A'.val).toNat = 32 := rfl
    rw [if_pos hbounds]
    show (c.val + ('a'.val - 'A'.val)).toNat = c.toNat + 32
    rw [UInt32.toNat_add, hdistance, hcode]
    omega
  · rename_i hletter
    rw [if_neg fun hbounds => hletter (hupper.2 hbounds)]

theorem toNat_toUpper (c : Char) : c.toUpper.toNat = if 97 ≤ c.toNat ∧ c.toNat ≤ 122 then c.toNat - 32 else c.toNat := by
  have hcode : c.val.toNat = c.toNat := rfl
  have hlower : 'a'.val ≤ c.val ∧ c.val ≤ 'z'.val ↔ 97 ≤ c.toNat ∧ c.toNat ≤ 122 := by
    simp [UInt32.le_iff_toNat_le]
  unfold Char.toUpper
  split
  · rename_i hletter
    have hbounds := hlower.1 hletter
    have hdistance : ('A'.val - 'a'.val).toNat = 2 ^ 32 - 32 := rfl
    rw [if_pos hbounds]
    show (c.val + ('A'.val - 'a'.val)).toNat = c.toNat - 32
    rw [UInt32.toNat_add, hdistance, hcode]
    omega
  · rename_i hletter
    rw [if_neg fun hbounds => hletter (hlower.2 hbounds)]

/-- The characters that count as a letter, by their codes. -/
theorem countsAs_iff (hletter : letter.isLower) : CountsAs letter c ↔
    c.toNat = letter.toNat ∨ c.toNat + 32 = letter.toNat ∨ letter.toNat = 107 ∧ c.toNat = 0x212A := by
  have hbounds := code_bounds_of_isLower hletter
  have hk : 'k'.toNat = 107 := rfl
  have hkelvin : '\u212A'.toNat = 0x212A := rfl
  rw [CountsAs, ← Char.toNat_inj, ← Char.toNat_inj, ← Char.toNat_inj, ← Char.toNat_inj, toNat_toUpper, if_pos hbounds, hk,
    hkelvin]
  omega

theorem lowerCase_eq_iff (hletter : letter.isLower) : lowerCase c = letter ↔ CountsAs letter c := by
  have hbounds := code_bounds_of_isLower hletter
  have hk : 'k'.toNat = 107 := rfl
  rw [countsAs_iff hletter, ← Char.toNat_inj, lowerCase]
  split
  · omega
  · rw [toNat_toLower]
    split <;> omega

theorem not_isBlank_of_countsAs (hletter : letter.isLower) (hc : CountsAs letter c) : isBlank c = false := by
  have hbounds := code_bounds_of_isLower hletter
  have hcode := (countsAs_iff hletter).1 hc
  rw [Bool.eq_false_iff]
  intro hblank
  simp only [isBlank, Bool.or_eq_true, Bool.and_eq_true, decide_eq_true_eq, beq_iff_eq] at hblank
  omega

/-! ### Words -/

theorem map_lowerCase_eq_iff (hletters : ∀ letter ∈ word, letter.isLower) :
    cs.map lowerCase = word ↔ List.Forall₂ CountsAs word cs := by
  induction word generalizing cs with
  | nil => rw [List.map_eq_nil_iff, List.forall₂_nil_left_iff]
  | cons letter more ih =>
    obtain ⟨hletter, hmore⟩ := List.forall_mem_cons.1 hletters
    cases cs with
    | nil => simp
    | cons c rest => rw [List.map_cons, List.cons_eq_cons, lowerCase_eq_iff hletter, ih hmore, List.forall₂_cons]

theorem not_isBlank_of_forall₂ (hletters : ∀ letter ∈ word, letter.isLower) (hcore : List.Forall₂ CountsAs word cs) :
    ∀ c ∈ cs, isBlank c = false := by
  induction hcore with
  | nil => exact List.forall_mem_nil _
  | cons hc _ ih =>
    obtain ⟨hletter, hmore⟩ := List.forall_mem_cons.1 hletters
    exact List.forall_mem_cons.2 ⟨not_isBlank_of_countsAs hletter hc, ih hmore⟩

/-- The texts that become a word in lower case and without blanks are those that stand for it. -/
theorem normalized_eq_iff (hsome : word ≠ []) (hletters : ∀ letter ∈ word, letter.isLower) :
    normalized cs = word ↔ StandsFor cs word := by
  rw [normalized, map_lowerCase_eq_iff hletters]
  constructor
  · intro hcore
    obtain ⟨lead, trail, hcs, hlead, htrail⟩ := exists_eq_append_trim isBlank cs
    exact ⟨lead, strip cs, trail, hcs, hlead, hcore, htrail⟩
  · rintro ⟨lead, core, trail, rfl, hlead, hcore, htrail⟩
    have hkept : core ≠ [] := by
      rintro rfl
      exact hsome (List.forall₂_nil_right_iff.1 hcore)
    rw [strip, trim_append hlead (not_isBlank_of_forall₂ hletters hcore) hkept htrail]
    exact hcore

theorem normalized_append (hlead : ∀ c ∈ lead, isBlank c) (htrail : ∀ c ∈ trail, isBlank c) :
    normalized (lead ++ cs ++ trail) = normalized cs := by
  rw [normalized, strip, trim_append_of_pos hlead htrail, normalized, strip]

end Reckoner.Text
