import Reckoner.Binary64.Basic

/-!
# Bit patterns

The interchange encoding of binary64 numbers in 64 bits: a sign, eleven bits that name the binade and 52 that place the
number inside it. Read as one number, the lower 63 bits grow with the magnitude, so an encoding is a sum.
-/

namespace Reckoner.Binary64

attribute [local instance(high)] instPowNat

/-- Where the encodings of the infinities begin; greater ones stand for NaN. -/
def infinityCode : Nat := 2047 * 2 ^ (52 : Nat)

def signCode (negative : Bool) : Nat := if negative then 2 ^ (63 : Nat) else 0

/-- The encoding of a number; NaN is written as the quiet pattern without a payload. -/
def toBits : Binary64 → BitVec 64
  | nan => BitVec.ofNat 64 (infinityCode + 2 ^ (51 : Nat))
  | infinity negative => BitVec.ofNat 64 (signCode negative + infinityCode)
  | finite negative x => BitVec.ofNat 64 (signCode negative + (x.exponent * 2 ^ (52 : Nat) + x.significand))

/-- The magnitude with the given binade and place, both as they are encoded. -/
def magnitudeOfFields (biased place : Nat) (hbiased : biased < 2047) (hplace : place < 2 ^ (52 : Nat)) : Magnitude :=
  if hzero : biased = 0 then
    ⟨place, 0, by omega, by omega, .inl rfl⟩
  else
    ⟨2 ^ (52 : Nat) + place, biased - 1, by omega, by omega, .inr (by omega)⟩

/-- The number a pattern stands for; every NaN pattern stands for the one NaN. -/
def ofBits (bits : BitVec 64) : Binary64 :=
  let biased := bits.toNat / 2 ^ (52 : Nat) % 2 ^ (11 : Nat)
  let place := bits.toNat % 2 ^ (52 : Nat)
  if hbiased : biased < 2047 then
    finite bits.msb (magnitudeOfFields biased place hbiased (Nat.mod_lt _ (by decide)))
  else if place = 0 then infinity bits.msb
  else nan

/-! ### Encoding and decoding -/

theorem magnitude_code_lt (x : Magnitude) : x.exponent * 2 ^ (52 : Nat) + x.significand < infinityCode := by
  have hsignificand := x.significand_lt
  have hexponent := x.exponent_le
  unfold infinityCode
  omega

/-- A magnitude is the one that the fields of its own code give. -/
theorem magnitudeOfFields_code (x : Magnitude) (hbiased : (x.exponent * 2 ^ (52 : Nat) + x.significand) / 2 ^ (52 : Nat) < 2047)
    (hplace : (x.exponent * 2 ^ (52 : Nat) + x.significand) % 2 ^ (52 : Nat) < 2 ^ (52 : Nat)) :
    magnitudeOfFields _ _ hbiased hplace = x := by
  obtain ⟨significand, exponent, hsignificand, hexponent, hfull⟩ := x
  unfold magnitudeOfFields
  dsimp only at *
  split
  · rename_i hzero
    congr 1 <;> omega
  · rename_i hnormal
    have hleading : 2 ^ (52 : Nat) ≤ significand := by
      rcases hfull with rfl | hfull
      · omega
      · exact hfull
    congr 1 <;> omega

/-- Every number is the one that its own encoding stands for. -/
theorem ofBits_toBits (x : Binary64) : ofBits x.toBits = x := by
  cases x with
  | nan => decide +kernel
  | infinity negative => cases negative <;> decide +kernel
  | finite negative x =>
    have hcode := magnitude_code_lt x
    unfold infinityCode at hcode
    have hsign : signCode negative ≤ 2 ^ (63 : Nat) := by unfold signCode; split <;> omega
    have hnat : (toBits (finite negative x)).toNat = signCode negative + (x.exponent * 2 ^ (52 : Nat) + x.significand) := by
      have hlt : signCode negative + (x.exponent * 2 ^ (52 : Nat) + x.significand) < 2 ^ (64 : Nat) := by omega
      exact (BitVec.toNat_ofNat _ _).trans (Nat.mod_eq_of_lt hlt)
    have hmsb : (toBits (finite negative x)).msb = negative := by
      rw [BitVec.msb_eq_decide, hnat]
      cases negative
      · simp [signCode]
        omega
      · simp [signCode]
    have hbiased : (toBits (finite negative x)).toNat / 2 ^ (52 : Nat) % 2 ^ (11 : Nat) =
        (x.exponent * 2 ^ (52 : Nat) + x.significand) / 2 ^ (52 : Nat) := by
      rw [hnat, signCode]
      split <;> omega
    have hplace : (toBits (finite negative x)).toNat % 2 ^ (52 : Nat) =
        (x.exponent * 2 ^ (52 : Nat) + x.significand) % 2 ^ (52 : Nat) := by
      rw [hnat, signCode]
      split <;> omega
    unfold ofBits
    simp only [hmsb, hbiased, hplace]
    rw [dif_pos (by omega), magnitudeOfFields_code]

end Reckoner.Binary64
