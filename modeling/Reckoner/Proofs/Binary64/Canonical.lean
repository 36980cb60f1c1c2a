import Reckoner.Proofs.Binary64.Exact
import Reckoner.Proofs.Binary64.Fixed
import Reckoner.Proofs.Text.Digits

/-!
# Canonical numerals

A rational number has many numerals, but only one without superfluous zeros at either end. Numbers with fixed places are
written as that numeral of the exact value, rounded half to even at the last place.
-/

namespace Reckoner

/-! ### The nearest integer -/

/-- No integer is nearer to `q`, and if one is as near, this one is even. -/
def IsNearestInteger (q : ℚ) (k : ℤ) : Prop := |q - k| < 1 / 2 ∨ |q - k| = 1 / 2 ∧ k % 2 = 0

namespace IsNearestInteger

variable {q : ℚ} {left right : ℤ}

theorem abs_sub_le (hleft : IsNearestInteger q left) : |q - left| ≤ 1 / 2 := hleft.elim le_of_lt fun htie => htie.1.le

/-- Only neighbours are both as near as half a unit, and one of them is odd. -/
theorem not_lt (hleft : IsNearestInteger q left) (hright : IsNearestInteger q right) : ¬ left < right := by
  intro hlt
  have hgap : (left : ℚ) + 1 ≤ right := by exact_mod_cast hlt
  have habove := (abs_le.1 hleft.abs_sub_le).2
  have hbelow := (abs_le.1 hright.abs_sub_le).1
  have hneighbour : (right : ℚ) = left + 1 := by linarith
  have hleft := hleft.resolve_left fun hnear => by
    have := (abs_lt.1 hnear).2
    linarith
  have hright := hright.resolve_left fun hnear => by
    have := (abs_lt.1 hnear).1
    linarith
  have hparity : right = left + 1 := by exact_mod_cast hneighbour
  omega

theorem unique (hleft : IsNearestInteger q left) (hright : IsNearestInteger q right) : left = right :=
  le_antisymm (le_of_not_gt (hright.not_lt hleft)) (le_of_not_gt (hleft.not_lt hright))

theorem neg (hleft : IsNearestInteger q left) : IsNearestInteger (-q) (-left) := by
  have hdistance : |-q - ((-left : ℤ) : ℚ)| = |q - left| := by
    rw [Int.cast_neg, ← abs_neg]
    ring_nf
  unfold IsNearestInteger at *
  rw [hdistance]
  exact hleft.imp_right fun htie => ⟨htie.1, by omega⟩

end IsNearestInteger

theorem isNearestInteger_nearestEven (num : Nat) {den : Nat} (hden : 0 < den) :
    IsNearestInteger (num / den) (nearestEven num den) := by
  have hpositive : (0 : ℚ) < den := Nat.cast_pos.2 hden
  have hnearest := isNearestEven_nearestEven num hden
  unfold IsNearestEven at hnearest
  unfold IsNearestInteger
  rw [Int.cast_natCast, abs_div_sub num hden, div_lt_iff₀ hpositive, div_eq_iff hpositive.ne', one_div_mul_eq_div,
    lt_div_iff₀ two_pos, eq_div_iff two_ne_zero]
  norm_cast
  omega

/-! ### Numerals of whole numbers -/

theorem fixedFraction_zero (places : Nat) : fixedFraction 0 places = [] := by
  refine Text.dropTrailing_eq_nil fun c hc => ?_
  rcases List.mem_append.1 hc with hc | hc
  · exact beq_iff_eq.2 (List.eq_of_mem_replicate hc)
  · exact beq_iff_eq.2 (List.mem_singleton.1 hc)

/-- A whole number is written without a point. -/
theorem fixedNumeral_mul (n places : Nat) : fixedNumeral (n * 10 ^ places) places = Nat.toDigits 10 n := by
  have hzero := fixedFraction_zero places
  unfold fixedFraction at hzero
  unfold fixedNumeral
  dsimp only
  rw [Nat.mul_div_cancel _ (Nat.pow_pos (by decide)), Nat.mul_mod_left, hzero]

/-! ### Numerals of rational numbers -/

/-- A numeral without an exponent and without grouped digits. -/
structure PlainNumeral where
  negative : Bool
  whole : List Char
  fraction : List Char

namespace PlainNumeral

def text (numeral : PlainNumeral) : List Char :=
  (if numeral.negative then ['-'] else []) ++ numeral.whole ++
    if numeral.fraction = [] then [] else '.' :: numeral.fraction

/-- The number that a numeral without its sign stands for. -/
def unsigned (numeral : PlainNumeral) : ℚ :=
  Nat.ofDigitChars 10 numeral.whole 0 + Nat.ofDigitChars 10 numeral.fraction 0 / 10 ^ numeral.fraction.length

def value (numeral : PlainNumeral) : ℚ := if numeral.negative then -numeral.unsigned else numeral.unsigned

/-- Digits with no superfluous zeros at either end, and no more than some of them behind the point. -/
structure Canonical (numeral : PlainNumeral) (places : Nat) : Prop where
  isDigit_whole : ∀ c ∈ numeral.whole, c.isDigit
  isDigit_fraction : ∀ c ∈ numeral.fraction, c.isDigit
  whole_ne_nil : numeral.whole ≠ []
  leading : Text.Leading numeral.whole
  length_le : numeral.fraction.length ≤ places
  trailing : numeral.fraction.getLast? ≠ some '0'

section Uniqueness

variable {numeral left right : PlainNumeral} {places : Nat}

/-- The digits behind the point with zeros up to some places. -/
def padded (numeral : PlainNumeral) (places : Nat) : List Char :=
  numeral.fraction ++ List.replicate (places - numeral.fraction.length) '0'

theorem isDigit_padded (hfraction : ∀ c ∈ numeral.fraction, c.isDigit) (places : Nat) :
    ∀ c ∈ numeral.padded places, c.isDigit :=
  List.forall_mem_append.2 ⟨hfraction, fun _ hc => Text.isDigit_of_mem_zeros hc⟩

theorem length_padded (hlength : numeral.fraction.length ≤ places) : (numeral.padded places).length = places := by
  rw [padded, List.length_append, List.length_replicate]
  omega

theorem dropTrailing_padded (htrailing : numeral.fraction.getLast? ≠ some '0') (places : Nat) :
    Text.dropTrailing (· == '0') (numeral.padded places) = numeral.fraction := by
  rw [padded, Text.dropTrailing_append_of_pos fun c hc => beq_iff_eq.2 (List.eq_of_mem_replicate hc)]
  refine Text.dropTrailing_eq_self fun c hc => beq_eq_false_iff_ne.2 ?_
  rintro rfl
  exact htrailing hc

theorem unsigned_eq (hlength : numeral.fraction.length ≤ places) : numeral.unsigned =
    (Nat.ofDigitChars 10 numeral.whole 0 * 10 ^ places + Nat.ofDigitChars 10 (numeral.padded places) 0 : Nat) /
      (10 : ℚ) ^ places := by
  have hpower : (10 : ℚ) ^ places = 10 ^ numeral.fraction.length * 10 ^ (places - numeral.fraction.length) := by
    rw [← pow_add, Nat.add_sub_cancel' hlength]
  have hpositive (exponent : Nat) : (0 : ℚ) < 10 ^ exponent := pow_pos (by norm_num) _
  rw [unsigned, padded, ofDigitChars_append_zeros, Nat.cast_add, Nat.cast_mul, Nat.cast_mul, Nat.cast_pow, Nat.cast_pow,
    Nat.cast_ofNat, add_div, mul_div_cancel_right₀ _ (hpositive places).ne']
  congr 1
  rw [hpower, mul_div_mul_right _ _ (hpositive _).ne']

namespace Canonical

theorem ofDigitChars_padded_lt (hcanonical : numeral.Canonical places) :
    Nat.ofDigitChars 10 (numeral.padded places) 0 < 10 ^ places := by
  have hbelow := Text.ofDigitChars_lt (isDigit_padded hcanonical.isDigit_fraction places)
  rwa [length_padded hcanonical.length_le] at hbelow

theorem eq_of_unsigned_eq (hleft : left.Canonical places) (hright : right.Canonical places)
    (hvalue : left.unsigned = right.unsigned) : left.whole = right.whole ∧ left.fraction = right.fraction := by
  have hpositive : (0 : ℚ) < 10 ^ places := pow_pos (by norm_num) _
  rw [unsigned_eq hleft.length_le, unsigned_eq hright.length_le, div_left_inj' hpositive.ne', Nat.cast_inj] at hvalue
  have hwhole : Nat.ofDigitChars 10 left.whole 0 = Nat.ofDigitChars 10 right.whole 0 := by
    rw [← Text.add_div_eq (Nat.ofDigitChars 10 left.whole 0) hleft.ofDigitChars_padded_lt, hvalue,
      Text.add_div_eq _ hright.ofDigitChars_padded_lt]
  rw [hwhole] at hvalue
  have hpadded : left.padded places = right.padded places := by
    refine Text.eq_of_ofDigitChars_eq (isDigit_padded hleft.isDigit_fraction places)
      (isDigit_padded hright.isDigit_fraction places) ?_ (Nat.add_left_cancel hvalue)
    rw [length_padded hleft.length_le, length_padded hright.length_le]
  constructor
  · exact Text.eq_of_leading hleft.isDigit_whole hright.isDigit_whole hleft.whole_ne_nil hright.whole_ne_nil hleft.leading
      hright.leading hwhole
  · rw [← dropTrailing_padded hleft.trailing places, hpadded, dropTrailing_padded hright.trailing]

theorem unique (hleft : left.Canonical places) (hright : right.Canonical places)
    (hsign : left.negative = right.negative) (hvalue : left.value = right.value) : left = right := by
  unfold value at hvalue
  rw [hsign] at hvalue
  have hunsigned : left.unsigned = right.unsigned := by
    split at hvalue
    · exact neg_inj.1 hvalue
    · exact hvalue
  obtain ⟨hwhole, hfraction⟩ := hleft.eq_of_unsigned_eq hright hunsigned
  cases left
  cases right
  cases hsign
  cases hwhole
  cases hfraction
  rfl

/-- A sign in front of a lone zero is the sign of a zero. -/
theorem value_eq_zero_of_text (hcanonical : numeral.Canonical places) (htext : numeral.text = ['-', '0']) :
    numeral.negative ∧ numeral.value = 0 := by
  obtain ⟨c, rest, hwhole⟩ := List.exists_cons_of_ne_nil hcanonical.whole_ne_nil
  unfold text at htext
  cases hnegative : numeral.negative with
  | false =>
    have hdigit := hcanonical.isDigit_whole c (hwhole ▸ List.mem_cons_self)
    rw [hnegative, hwhole] at htext
    obtain rfl : c = '-' := (List.cons.inj htext).1
    exact absurd hdigit (by decide)
  | true =>
    rw [hnegative, hwhole] at htext
    obtain ⟨rfl, hrest⟩ := List.cons.inj (List.cons.inj htext).2
    obtain ⟨rfl, hpoint⟩ := List.append_eq_nil_iff.1 hrest
    have hfraction : numeral.fraction = [] := by
      by_contra hsome
      simp [hsome] at hpoint
    refine ⟨rfl, ?_⟩
    unfold value unsigned
    rw [hnegative, hwhole, hfraction]
    norm_num [Nat.ofDigitChars]

end Canonical

end Uniqueness

section Scaled

variable {negative : Bool} {scaled places : Nat}

/-- The numeral of `scaled / 10 ^ places` under a sign. -/
def ofScaled (negative : Bool) (scaled places : Nat) : PlainNumeral where
  negative := negative
  whole := Nat.toDigits 10 (scaled / 10 ^ places)
  fraction := fixedFraction (scaled % 10 ^ places) places

theorem text_ofScaled (negative : Bool) (scaled places : Nat) : (ofScaled negative scaled places).text =
    if negative then '-' :: fixedNumeral scaled places else fixedNumeral scaled places := by
  unfold text ofScaled fixedFraction fixedNumeral
  dsimp only
  cases Text.dropTrailing (· == '0') ((Nat.toDigits 10 (scaled % 10 ^ places)).leftpad places '0') <;>
    cases negative <;> simp

theorem canonical_ofScaled (negative : Bool) (scaled places : Nat) :
    (ofScaled negative scaled places).Canonical places := by
  have hrest : scaled % 10 ^ places < 10 ^ places := Nat.mod_lt _ (Nat.pow_pos (by decide))
  exact {
    isDigit_whole := fun c hc => Text.isDigit_of_mem_toDigits hc
    isDigit_fraction := fun c hc => isDigit_of_mem_fixedFraction hc
    whole_ne_nil := Nat.toDigits_ne_nil
    leading := Text.leading_toDigits _
    length_le := length_fixedFraction_le hrest
    trailing := fun hlast => absurd (Text.getLast?_dropTrailing hlast) (by decide) }

theorem unsigned_ofScaled (negative : Bool) (scaled places : Nat) :
    (ofScaled negative scaled places).unsigned = scaled / 10 ^ places := by
  have hrest : scaled % 10 ^ places < 10 ^ places := Nat.mod_lt _ (Nat.pow_pos (by decide))
  have hvalue := ofDigitChars_fixedFraction hrest
  have hpositive (exponent : Nat) : (0 : ℚ) < 10 ^ exponent := pow_pos (by norm_num) _
  have hcast := congrArg (Nat.cast : Nat → ℚ) hvalue
  have hdivision := congrArg (Nat.cast : Nat → ℚ) (Nat.div_add_mod' scaled (10 ^ places))
  push_cast at hcast hdivision
  rw [unsigned, ofScaled, Nat.ofDigitChars_ten_toDigits, eq_div_iff (hpositive _).ne', add_mul, ← hdivision]
  congr 1
  rw [div_mul_eq_mul_div, hcast, mul_div_cancel_right₀ _ (hpositive _).ne']

theorem value_ofScaled (negative : Bool) (scaled places : Nat) :
    (ofScaled negative scaled places).value = ((if negative then -scaled else scaled : ℤ) : ℚ) / 10 ^ places := by
  rw [value, unsigned_ofScaled]
  cases negative
  · simp [ofScaled]
  · simp [ofScaled, neg_div]

end Scaled

end PlainNumeral

namespace Binary64

variable {negative : Bool} {x : Magnitude} {value : Binary64} {q : ℚ} {places : Int} {text : String}

theorem rational?_eq_some_iff : value.rational? = some q ↔
    ∃ negative x, value = finite negative x ∧ (if negative then -x.exact else x.exact) = q := by
  cases value <;> simp [rational?]

/-- The integer that a number times a power of ten is rounded to. -/
def signedScaled (negative : Bool) (x : Magnitude) (places : Nat) : ℤ :=
  if negative then -x.scaled places else x.scaled places

/-- The numeral of the rounded number, which has no sign if the number has been rounded to zero. -/
def shown (negative : Bool) (x : Magnitude) (places : Nat) : PlainNumeral :=
  PlainNumeral.ofScaled (negative && x.scaled places != 0) (x.scaled places) places

theorem text_shown_of_fixedText (htext : (finite negative x).fixedText places = .ok text) :
    0 ≤ places ∧ text.toList = (shown negative x places.toNat).text := by
  obtain ⟨hplaces, scaled, hscaled⟩ := exists_scaled_of_fixedText htext
  obtain ⟨rfl, -⟩ := Magnitude.scaled?_eq_some_iff.1 hscaled
  refine ⟨hplaces, ?_⟩
  rw [shown, PlainNumeral.text_ofScaled]
  by_cases hzero : x.scaled places.toNat = 0
  · rw [fixedText_of_zero hplaces (hzero ▸ hscaled)] at htext
    obtain rfl := Except.ok.inj htext
    rw [hzero, ← Nat.zero_mul (10 ^ places.toNat), fixedNumeral_mul]
    simp
  · rw [fixedText_of_pos hplaces hscaled hzero] at htext
    obtain rfl := Except.ok.inj htext
    simp [hzero]

theorem negative_shown_iff (negative : Bool) (x : Magnitude) (places : Nat) :
    (shown negative x places).negative ↔ signedScaled negative x places < 0 := by
  unfold shown PlainNumeral.ofScaled signedScaled
  generalize x.scaled places = scaled
  cases negative <;> simp [Nat.pos_iff_ne_zero]

theorem value_shown (negative : Bool) (x : Magnitude) (places : Nat) :
    (shown negative x places).value = signedScaled negative x places / 10 ^ places := by
  rw [shown, PlainNumeral.value_ofScaled, signedScaled]
  generalize x.scaled places = scaled
  cases negative <;> by_cases hzero : scaled = 0 <;> simp [hzero]

theorem isNearestInteger_scaled (x : Magnitude) (places : Nat) :
    IsNearestInteger (x.exact * 10 ^ places) (x.scaled places) := by
  have hnearest := isNearestInteger_nearestEven (x.quanta * 10 ^ places) Magnitude.quantaPerUnit_pos
  rw [Nat.cast_mul, Nat.cast_pow, Nat.cast_ofNat, mul_div_right_comm] at hnearest
  exact hnearest

theorem isNearestInteger_signedScaled (negative : Bool) (x : Magnitude) (places : Nat) :
    IsNearestInteger ((if negative then -x.exact else x.exact) * 10 ^ places) (signedScaled negative x places) := by
  have hnearest := isNearestInteger_scaled x places
  cases negative with
  | false => exact hnearest
  | true =>
    rw [if_pos rfl, neg_mul]
    exact hnearest.neg

/-- What a finite number is written as is the only canonical numeral of its exact value, rounded half to even at the last
place; the sign is written if the rounded number is negative. -/
theorem fixedText_canonical (value : Binary64) (q : ℚ) (places : Int) (text : String) (hfinite : value.rational? = some q)
    (htext : value.fixedText places = .ok text) :
    0 ≤ places ∧ text ≠ "-0" ∧ ∃ k : ℤ,
      (∀ other, IsNearestInteger (q * 10 ^ places.toNat) other ↔ other = k) ∧
      ∀ cs, cs = text.toList ↔ ∃ numeral : PlainNumeral, numeral.Canonical places.toNat ∧
        (numeral.negative ↔ k < 0) ∧ numeral.value = k / 10 ^ places.toNat ∧ numeral.text = cs := by
  obtain ⟨negative, x, rfl, rfl⟩ := rational?_eq_some_iff.1 hfinite
  obtain ⟨hplaces, hshown⟩ := text_shown_of_fixedText htext
  have hcanonical : (shown negative x places.toNat).Canonical places.toNat := PlainNumeral.canonical_ofScaled _ _ _
  have hnegative := negative_shown_iff negative x places.toNat
  have hvalue := value_shown negative x places.toNat
  have hnearest := isNearestInteger_signedScaled negative x places.toNat
  refine ⟨hplaces, ?_, signedScaled negative x places.toNat,
    fun other => ⟨fun hother => hother.unique hnearest, fun hother => hother ▸ hnearest⟩, fun cs => ⟨?_, ?_⟩⟩
  · rintro rfl
    obtain ⟨hsign, hzero⟩ := hcanonical.value_eq_zero_of_text hshown.symm
    rw [hvalue, div_eq_zero_iff, or_iff_left (pow_pos (by norm_num) _).ne', Int.cast_eq_zero] at hzero
    exact (hnegative.1 hsign).ne hzero
  · rintro rfl
    exact ⟨_, hcanonical, hnegative, hvalue, hshown.symm⟩
  · rintro ⟨numeral, hother, hsign, hsame, rfl⟩
    rw [hshown, hother.unique hcanonical (Bool.eq_iff_iff.2 (hsign.trans hnegative.symm)) (hsame.trans hvalue.symm)]

/-- `-9.5` lies between `-10` and `-9` and goes to the even one, which has a digit more and keeps its zero. -/
theorem fixedText_canonical_carry : ∃ value : Binary64, value.rational? = some (-19 / 2) ∧ value.fixedText 0 = .ok "-10" ∧
    (0 : ℤ) ≤ 0 ∧ "-10" ≠ "-0" ∧ ∃ k : ℤ,
      (∀ other, IsNearestInteger (-19 / 2 * 10 ^ (0 : ℤ).toNat) other ↔ other = k) ∧
      ∀ cs, cs = "-10".toList ↔ ∃ numeral : PlainNumeral, numeral.Canonical (0 : ℤ).toNat ∧
        (numeral.negative ↔ k < 0) ∧ numeral.value = k / 10 ^ (0 : ℤ).toNat ∧ numeral.text = cs := by
  have hhalves : (⟨19 * 2 ^ 48, 1025, by decide, by decide, .inr (by decide)⟩ : Magnitude).quanta * 2 =
      19 * Magnitude.quantaPerUnit := by
    decide +kernel
  have htext : (finite true ⟨19 * 2 ^ 48, 1025, by decide, by decide, .inr (by decide)⟩).fixedText 0 = .ok "-10" := by
    decide +kernel
  have hexact : (finite true ⟨19 * 2 ^ 48, 1025, by decide, by decide, .inr (by decide)⟩).rational? = some (-19 / 2) := by
    refine rational?_eq_some_iff.2 ⟨_, _, rfl, ?_⟩
    rw [if_pos rfl, Magnitude.exact, neg_div, neg_inj, div_eq_div_iff (Nat.cast_ne_zero.2 Magnitude.quantaPerUnit_pos.ne')
      two_ne_zero]
    exact_mod_cast hhalves
  exact ⟨_, hexact, htext, fixedText_canonical _ _ _ _ hexact htext⟩

end Binary64

end Reckoner
