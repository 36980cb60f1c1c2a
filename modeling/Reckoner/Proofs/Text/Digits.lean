import Mathlib.Algebra.Group.Nat.Defs
import Mathlib.Data.Nat.Basic
import Reckoner.Binary64.Basic

/-!
# Digits

Digits in a row as a number. As many digits as before stand for the same number only if they are the same digits, and so do
any digits that do not begin with a superfluous zero.
-/

namespace Reckoner.Text

variable {c d : Char} {digits left right : List Char}

/-- A zero begins the digits only if it is all of them. -/
def Leading (digits : List Char) : Prop := digits.head? = some '0' → digits = ['0']

theorem code_bounds_of_isDigit (hdigit : c.isDigit) : 48 ≤ c.toNat ∧ c.toNat ≤ 57 := by
  simp only [Char.isDigit, Bool.and_eq_true, decide_eq_true_eq, ge_iff_le, UInt32.le_iff_toNat_le] at hdigit
  exact hdigit

theorem isDigit_of_mem_toDigits {n : Nat} (hc : c ∈ Nat.toDigits 10 n) : c.isDigit :=
  Nat.isDigit_of_mem_toDigits (by decide) (Nat.le_refl _) hc

theorem isDigit_of_mem_zeros {count : Nat} (hc : c ∈ List.replicate count '0') : c.isDigit := by
  rw [List.eq_of_mem_replicate hc]
  decide

theorem ofDigitChars_cons_eq (c : Char) (digits : List Char) :
    Nat.ofDigitChars 10 (c :: digits) 0 = (c.toNat - 48) * 10 ^ digits.length + Nat.ofDigitChars 10 digits 0 := by
  rw [Nat.ofDigitChars_cons, Nat.ofDigitChars_eq_ofDigitChars_zero, Nat.mul_zero, Nat.zero_add, Nat.mul_comm]
  rfl

theorem ofDigitChars_lt (hdigits : ∀ c ∈ digits, c.isDigit) : Nat.ofDigitChars 10 digits 0 < 10 ^ digits.length := by
  induction digits with
  | nil => decide
  | cons c digits ih =>
    obtain ⟨hdigit, hrest⟩ := List.forall_mem_cons.1 hdigits
    have hcode := code_bounds_of_isDigit hdigit
    have hbelow := ih hrest
    have hfirst := Nat.mul_le_mul_right (10 ^ digits.length) (show c.toNat - 48 ≤ 9 by omega)
    rw [ofDigitChars_cons_eq, List.length_cons, Nat.pow_succ]
    omega

theorem add_div_eq (first : Nat) {rest power : Nat} (hrest : rest < power) : (first * power + rest) / power = first := by
  rw [Nat.mul_comm, Nat.mul_add_div (Nat.zero_lt_of_lt hrest), Nat.div_eq_of_lt hrest, Nat.add_zero]

/-- As many digits that stand for the same number are the same digits. -/
theorem eq_of_ofDigitChars_eq (hleft : ∀ c ∈ left, c.isDigit) (hright : ∀ c ∈ right, c.isDigit)
    (hlength : left.length = right.length) (hvalue : Nat.ofDigitChars 10 left 0 = Nat.ofDigitChars 10 right 0) :
    left = right := by
  induction left generalizing right with
  | nil => exact (List.length_eq_zero_iff.1 hlength.symm).symm
  | cons c left ih =>
    obtain ⟨d, right, rfl⟩ := List.exists_cons_of_length_eq_add_one hlength.symm
    obtain ⟨hc, hleft⟩ := List.forall_mem_cons.1 hleft
    obtain ⟨hd, hright⟩ := List.forall_mem_cons.1 hright
    have hlength : left.length = right.length := Nat.succ.inj hlength
    have hbelow := ofDigitChars_lt hleft
    have hbelow' := ofDigitChars_lt hright
    rw [ofDigitChars_cons_eq, ofDigitChars_cons_eq, hlength] at hvalue
    rw [hlength] at hbelow
    have hfirst : c.toNat - 48 = d.toNat - 48 := by
      rw [← add_div_eq (c.toNat - 48) hbelow, hvalue, add_div_eq _ hbelow']
    have hcode := code_bounds_of_isDigit hc
    have hcode' := code_bounds_of_isDigit hd
    have hsame : c = d := Char.toNat_inj.1 (by omega)
    rw [hfirst] at hvalue
    rw [hsame, ih hleft hright hlength (Nat.add_left_cancel hvalue)]

theorem ofDigitChars_zeros_append (count : Nat) (digits : List Char) :
    Nat.ofDigitChars 10 (List.replicate count '0' ++ digits) 0 = Nat.ofDigitChars 10 digits 0 := by
  rw [Nat.ofDigitChars_append, Nat.ofDigitChars_replicate_zero, Nat.mul_zero]

theorem length_le_of_leading (hleft : ∀ c ∈ left, c.isDigit) (hright : ∀ c ∈ right, c.isDigit) (hsome : left ≠ [])
    (hleading : Leading right) (hvalue : Nat.ofDigitChars 10 left 0 = Nat.ofDigitChars 10 right 0) :
    right.length ≤ left.length := by
  by_contra hlonger
  have hpadded : List.replicate (right.length - left.length) '0' ++ left = right := by
    refine eq_of_ofDigitChars_eq (List.forall_mem_append.2 ⟨fun _ hc => isDigit_of_mem_zeros hc, hleft⟩) hright ?_ ?_
    · rw [List.length_append, List.length_replicate]
      omega
    · rw [ofDigitChars_zeros_append, hvalue]
  obtain ⟨count, hcount⟩ : ∃ count, right.length - left.length = count + 1 :=
    ⟨right.length - left.length - 1, by omega⟩
  rw [hcount, List.replicate_succ, List.cons_append] at hpadded
  have hlength := congrArg List.length (hleading (hpadded ▸ rfl))
  have hpositive := List.length_pos_iff.2 hsome
  rw [List.length_singleton] at hlength
  omega

/-- Without superfluous zeros in front, digits are the same if they stand for the same number. -/
theorem eq_of_leading (hleft : ∀ c ∈ left, c.isDigit) (hright : ∀ c ∈ right, c.isDigit) (hsome : left ≠ [])
    (hsome' : right ≠ []) (hleading : Leading left) (hleading' : Leading right)
    (hvalue : Nat.ofDigitChars 10 left 0 = Nat.ofDigitChars 10 right 0) : left = right := by
  refine eq_of_ofDigitChars_eq hleft hright (Nat.le_antisymm ?_ ?_) hvalue
  · exact length_le_of_leading hright hleft hsome' hleading hvalue.symm
  · exact length_le_of_leading hleft hright hsome hleading' hvalue

theorem leading_toDigits (n : Nat) : Leading (Nat.toDigits 10 n) := by
  intro hhead
  obtain ⟨rest, hdigits⟩ := List.head?_eq_some_iff.1 hhead
  have hisDigit : ∀ c ∈ Nat.toDigits 10 n, c.isDigit := fun c hc => isDigit_of_mem_toDigits hc
  have hvalue : Nat.ofDigitChars 10 (Nat.toDigits 10 n) 0 = n := Nat.ofDigitChars_ten_toDigits
  rw [hdigits] at hisDigit hvalue
  have hzero : '0'.toNat - 48 = 0 := by decide
  rw [ofDigitChars_cons_eq, hzero, Nat.zero_mul, Nat.zero_add] at hvalue
  have hbelow := ofDigitChars_lt (List.forall_mem_cons.1 hisDigit).2
  cases rest with
  | nil => exact hdigits
  | cons c rest =>
    rw [hvalue] at hbelow
    have hlength := (Nat.length_toDigits_le_iff (by decide) (by simp)).2 hbelow
    rw [hdigits, List.length_cons] at hlength
    exact absurd hlength (Nat.not_succ_le_self _)

/-- Integers are written as their digits, behind a minus sign if they are negative. -/
theorem toList_toString (n : Int) :
    (toString n).toList = if n < 0 then '-' :: Nat.toDigits 10 n.natAbs else Nat.toDigits 10 n.natAbs := by
  cases n with
  | ofNat m =>
    change (Nat.repr m).toList = _
    simp [Nat.repr]
  | negSucc m =>
    change ("-" ++ Nat.repr (m + 1)).toList = _
    simp [Nat.repr]

theorem isDigit_or_of_mem_toString {n : Int} (hc : c ∈ (toString n).toList) : c.isDigit ∨ c = '-' := by
  rw [toList_toString] at hc
  split at hc
  · exact (List.mem_cons.1 hc).symm.imp_left isDigit_of_mem_toDigits
  · exact .inl (isDigit_of_mem_toDigits hc)

end Reckoner.Text
