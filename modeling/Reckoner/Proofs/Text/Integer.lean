import Mathlib.Data.List.Induction
import Mathlib.Data.Nat.Digits.Defs
import Reckoner.Proofs.Text.Blank
import Reckoner.Proofs.Text.Digits
import Reckoner.Proofs.Text.Trim
import Reckoner.Text.Integer

/-!
# Which texts denote integers

The integers that texts denote, said without reading them: blanks, a sign or none, digits that single underscores may separate,
and blanks again. The reader finds exactly these integers, unless the text has one of the separators that are blanks elsewhere.
-/

namespace Reckoner.Text

/-- Digits in a row, with at most one underscore between any two of them. -/
inductive Digits : List Char → List Nat → Prop
  | single {c : Char} {digit : Nat} (hc : IsDecimalDigit c digit) : Digits [c] [digit]
  | next {c : Char} {digit : Nat} {cs : List Char} {digits : List Nat} (hc : IsDecimalDigit c digit)
      (hrest : Digits cs digits) : Digits (c :: cs) (digit :: digits)
  | grouped {c : Char} {digit : Nat} {cs : List Char} {digits : List Nat} (hc : IsDecimalDigit c digit)
      (hrest : Digits cs digits) : Digits (c :: '_' :: cs) (digit :: digits)

/-- At most one sign, with the number by which it multiplies. -/
inductive Sign : List Char → Int → Prop
  | none : Sign [] 1
  | plus : Sign ['+'] 1
  | minus : Sign ['-'] (-1)

/-- A text denotes an integer by the digits in it, the last of which counts ones. -/
inductive Denotes : List Char → Int → Prop
  | intro {lead sign numeral trail : List Char} {factor : Int} {digits : List Nat} (hlead : ∀ c ∈ lead, isBlank c)
      (hsign : Sign sign factor) (hnumeral : Digits numeral digits) (hlength : digits.length ≤ 4300)
      (htrail : ∀ c ∈ trail, isBlank c) :
      Denotes (lead ++ (sign ++ numeral) ++ trail) (factor * (Nat.ofDigits 10 digits.reverse : Nat))

/-- What may stand behind a digit: nothing, or digits with at most one underscore before them. -/
def Continues (cs : List Char) (digits : List Nat) : Prop :=
  cs = [] ∧ digits = [] ∨ Digits cs digits ∨ ∃ rest, cs = '_' :: rest ∧ Digits rest digits

variable {c : Char} {cs : List Char} {digit : Nat} {digits : List Nat} {value : Int}

/-! ### Digits -/

/-- No two scripts share a digit. -/
theorem decimalDigit?_eq_some_iff : decimalDigit? c = some digit ↔ IsDecimalDigit c digit := by
  constructor
  · intro hdigit
    refine ⟨decimalDigit?_lt hdigit, ?_⟩
    obtain ⟨start, hfound, hvalue⟩ := Option.map_eq_some_iff.1 hdigit
    have hstart := List.find?_some hfound
    rw [Bool.and_eq_true, decide_eq_true_eq, decide_eq_true_eq] at hstart
    exact ⟨start, List.mem_of_find?_eq_some hfound, by omega⟩
  · rintro ⟨hbelow, start, hstart, hcode⟩
    have hzeros : digitZeros.all fun left => digitZeros.all fun right =>
        left == right || left + 9 < right || right + 9 < left := by
      decide +kernel
    have hsome : (digitZeros.find? fun start => start ≤ c.toNat && c.toNat ≤ start + 9).isSome := by
      refine List.find?_isSome.2 ⟨start, hstart, ?_⟩
      rw [Bool.and_eq_true, decide_eq_true_eq, decide_eq_true_eq]
      omega
    obtain ⟨found, hfound⟩ := Option.isSome_iff_exists.1 hsome
    have hbounds := List.find?_some hfound
    rw [Bool.and_eq_true, decide_eq_true_eq, decide_eq_true_eq] at hbounds
    have hsame := List.all_eq_true.1 (List.all_eq_true.1 hzeros start hstart) found (List.mem_of_find?_eq_some hfound)
    rw [Bool.or_eq_true, Bool.or_eq_true, beq_iff_eq, decide_eq_true_eq, decide_eq_true_eq] at hsame
    refine Option.map_eq_some_iff.2 ⟨found, hfound, ?_⟩
    omega

theorem digits_cons_iff : Digits (c :: cs) (digit :: digits) ↔ IsDecimalDigit c digit ∧ Continues cs digits := by
  constructor
  · intro hdigits
    cases hdigits with
    | single hc => exact ⟨hc, .inl ⟨rfl, rfl⟩⟩
    | next hc hrest => exact ⟨hc, .inr (.inl hrest)⟩
    | grouped hc hrest => exact ⟨hc, .inr (.inr ⟨_, rfl, hrest⟩)⟩
  · rintro ⟨hc, ⟨rfl, rfl⟩ | hrest | ⟨rest, rfl, hrest⟩⟩
    · exact .single hc
    · exact .next hc hrest
    · exact .grouped hc hrest

theorem Digits.exists_cons (hdigits : Digits cs digits) : ∃ c rest digit more, cs = c :: rest ∧ digits = digit :: more := by
  cases hdigits with
  | single => exact ⟨_, _, _, _, rfl, rfl⟩
  | next => exact ⟨_, _, _, _, rfl, rfl⟩
  | grouped => exact ⟨_, _, _, _, rfl, rfl⟩

theorem not_isDecimalDigit_underscore : ¬ IsDecimalDigit '_' digit := by
  rw [← decimalDigit?_eq_some_iff]
  have hnone : decimalDigit? '_' = none := by decide
  simp [hnone]

theorem digit_and_more_iff (hmore : ∀ more, moreDigits? cs = some more ↔ Continues cs more) :
    (do return (← decimalDigit? c) :: (← moreDigits? cs) : Option (List Nat)) = some digits ↔ Digits (c :: cs) digits := by
  constructor
  · intro hread
    obtain ⟨digit, hdigit, hread⟩ := Option.bind_eq_some_iff.1 hread
    obtain ⟨more, hcs, hread⟩ := Option.bind_eq_some_iff.1 hread
    obtain rfl := Option.some.inj hread
    exact digits_cons_iff.2 ⟨decimalDigit?_eq_some_iff.1 hdigit, (hmore more).1 hcs⟩
  · intro hdigits
    obtain ⟨-, -, digit, more, -, rfl⟩ := hdigits.exists_cons
    obtain ⟨hdigit, hcs⟩ := digits_cons_iff.1 hdigits
    rw [decimalDigit?_eq_some_iff.2 hdigit, (hmore more).2 hcs]
    rfl

theorem moreDigits?_eq_some_iff : moreDigits? cs = some digits ↔ Continues cs digits := by
  fun_induction moreDigits? cs generalizing digits with
  | case1 =>
    constructor
    · intro hdigits
      exact .inl ⟨rfl, (Option.some.inj hdigits).symm⟩
    · rintro (⟨-, rfl⟩ | hrest | ⟨_, hcs, -⟩)
      · rfl
      · cases hrest
      · exact absurd hcs (by simp)
  | case2 c rest ih =>
    rw [digit_and_more_iff fun more => ih]
    constructor
    · exact fun hdigits => .inr (.inr ⟨_, rfl, hdigits⟩)
    · rintro (⟨hcs, -⟩ | hrest | ⟨_, hcs, hrest⟩)
      · exact absurd hcs (by simp)
      · obtain ⟨-, -, digit, more, -, rfl⟩ := hrest.exists_cons
        exact absurd (digits_cons_iff.1 hrest).1 not_isDecimalDigit_underscore
      · obtain rfl := (List.cons.inj hcs).2
        exact hrest
  | case3 c rest hnot ih =>
    rw [digit_and_more_iff fun more => ih]
    constructor
    · exact fun hdigits => .inr (.inl hdigits)
    · rintro (⟨hcs, -⟩ | hrest | ⟨_, hcs, hrest⟩)
      · exact absurd hcs (by simp)
      · exact hrest
      · obtain ⟨d, more, -, -, rfl, -⟩ := hrest.exists_cons
        obtain ⟨rfl, rfl⟩ := List.cons.inj hcs
        exact absurd rfl (hnot d more rfl)

theorem digits?_eq_some_iff : digits? cs = some digits ↔ Digits cs digits := by
  cases cs with
  | nil =>
    constructor
    · intro hdigits
      exact absurd hdigits (by simp [digits?])
    · intro hdigits
      cases hdigits
  | cons c rest => exact digit_and_more_iff fun more => moreDigits?_eq_some_iff

/-! ### Numbers -/

theorem ofDigits_eq (digits : List Nat) : ofDigits digits = Nat.ofDigits 10 digits.reverse := by
  induction digits using List.reverseRecOn with
  | nil => rfl
  | append_singleton digits digit ih =>
    rw [ofDigits, List.foldl_append, ← ofDigits, ih, List.reverse_concat, Nat.ofDigits_cons]
    show 10 * Nat.ofDigits 10 digits.reverse + digit = digit + 10 * Nat.ofDigits 10 digits.reverse
    omega

theorem natural?_eq_some_iff {n : Nat} : natural? cs = some n ↔
    ∃ digits, Digits cs digits ∧ digits.length ≤ 4300 ∧ n = Nat.ofDigits 10 digits.reverse := by
  have hlimit : integerDigitLimit = 4300 := rfl
  constructor
  · intro hread
    obtain ⟨digits, hdigits, hread⟩ := Option.bind_eq_some_iff.1 hread
    rw [Option.ite_none_right_eq_some, ofDigits_eq, hlimit] at hread
    exact ⟨digits, digits?_eq_some_iff.1 hdigits, hread.1, (Option.some.inj hread.2).symm⟩
  · rintro ⟨digits, hdigits, hlength, rfl⟩
    rw [natural?, digits?_eq_some_iff.2 hdigits, Option.bind_eq_bind, Option.bind_some, hlimit, if_pos hlength, ofDigits_eq]

/-- No digit is a sign. -/
theorem Digits.ne_sign (hdigits : Digits (c :: cs) digits) : c ≠ '-' ∧ c ≠ '+' := by
  obtain ⟨-, -, digit, more, -, rfl⟩ := hdigits.exists_cons
  have hdigit := decimalDigit?_eq_some_iff.2 (digits_cons_iff.1 hdigits).1
  have hsigns : decimalDigit? '-' = none ∧ decimalDigit? '+' = none := by decide
  constructor
  · rintro rfl
    simp [hsigns.1] at hdigit
  · rintro rfl
    simp [hsigns.2] at hdigit

theorem signedInteger?_eq_some_iff : signedInteger? cs = some value ↔ ∃ sign numeral factor digits, cs = sign ++ numeral ∧
    Sign sign factor ∧ Digits numeral digits ∧ digits.length ≤ 4300 ∧ value = factor * (Nat.ofDigits 10 digits.reverse : Nat) := by
  constructor
  · intro hread
    unfold signedInteger? at hread
    split at hread
    · rename_i rest
      obtain ⟨_, hlifted, rfl⟩ := Option.map_eq_some_iff.1 hread
      obtain ⟨n, hn, hcast⟩ := Option.bind_eq_some_iff.1 hlifted
      obtain rfl := Option.some.inj hcast
      obtain ⟨digits, hdigits, hlength, rfl⟩ := natural?_eq_some_iff.1 hn
      exact ⟨_, rest, _, digits, rfl, .minus, hdigits, hlength, (Int.neg_one_mul _).symm⟩
    · rename_i rest
      obtain ⟨n, hn, rfl⟩ := Option.map_eq_some_iff.1 hread
      obtain ⟨digits, hdigits, hlength, rfl⟩ := natural?_eq_some_iff.1 hn
      exact ⟨_, rest, _, digits, rfl, .plus, hdigits, hlength, (Int.one_mul _).symm⟩
    · obtain ⟨n, hn, rfl⟩ := Option.map_eq_some_iff.1 hread
      obtain ⟨digits, hdigits, hlength, rfl⟩ := natural?_eq_some_iff.1 hn
      exact ⟨_, cs, _, digits, rfl, .none, hdigits, hlength, (Int.one_mul _).symm⟩
  · rintro ⟨sign, numeral, factor, digits, rfl, hsign, hdigits, hlength, rfl⟩
    have hread := natural?_eq_some_iff.2 ⟨digits, hdigits, hlength, rfl⟩
    cases hsign with
    | none =>
      obtain ⟨c, rest, -, -, rfl, -⟩ := hdigits.exists_cons
      have hsign := hdigits.ne_sign
      rw [List.nil_append, signedInteger?, hread, Int.one_mul]
      · rfl
      · exact fun _ hcs => hsign.1 (List.cons.inj hcs).1
      · exact fun _ hcs => hsign.2 (List.cons.inj hcs).1
    | plus =>
      rw [List.singleton_append, signedInteger?, hread, Int.one_mul]
      rfl
    | minus =>
      rw [List.singleton_append, signedInteger?, hread, Int.neg_one_mul]
      rfl

/-! ### Margins -/

theorem isBlank_of_mem_digits (hdigits : Digits cs digits) : ∀ c ∈ cs, isBlank c = false := by
  have hunderscore : isBlank '_' = false := by decide
  induction hdigits with
  | single hc => exact List.forall_mem_singleton.2 (isBlank_of_isDecimalDigit hc)
  | next hc _ ih => exact List.forall_mem_cons.2 ⟨isBlank_of_isDecimalDigit hc, ih⟩
  | grouped hc _ ih =>
    exact List.forall_mem_cons.2 ⟨isBlank_of_isDecimalDigit hc, List.forall_mem_cons.2 ⟨hunderscore, ih⟩⟩

theorem isBlank_of_mem_sign {sign : List Char} {factor : Int} (hsign : Sign sign factor) : ∀ c ∈ sign, isBlank c = false := by
  cases hsign with
  | none => exact List.forall_mem_nil _
  | plus => exact List.forall_mem_singleton.2 (by decide)
  | minus => exact List.forall_mem_singleton.2 (by decide)

/-- A reader of integers passes over all blanks but four separators. -/
theorem isMargin_eq (hplain : ¬ (0x1C ≤ c.toNat ∧ c.toNat ≤ 0x1F)) : isMargin c = isBlank c := by
  simp only [isMargin, Bool.and_eq_left_iff_imp, Bool.not_eq_true', Bool.and_eq_false_iff, decide_eq_false_iff_not]
  omega

/-- A text without these separators is read as the integer that it denotes, if there is one. -/
theorem integer?_eq_some_iff {raw : String} (hplain : ∀ c ∈ raw.toList, ¬ (0x1C ≤ c.toNat ∧ c.toNat ≤ 0x1F)) :
    integer? raw = some value ↔ Denotes raw.toList value := by
  have hmargin := fun c hc => isMargin_eq (hplain c hc)
  constructor
  · intro hread
    obtain ⟨lead, trail, hcs, hlead, htrail⟩ := exists_eq_append_trim isMargin raw.toList
    obtain ⟨sign, numeral, factor, digits, hcore, hsign, hdigits, hlength, rfl⟩ := signedInteger?_eq_some_iff.1 hread
    have hmem (c : Char) (hc : c ∈ lead ∨ c ∈ trail) : c ∈ raw.toList := by
      rw [hcs]
      simp only [List.mem_append]
      tauto
    rw [hcs, hcore]
    refine .intro (fun c hc => ?_) hsign hdigits hlength (fun c hc => ?_)
    · rw [← hmargin c (hmem c (.inl hc))]
      exact hlead c hc
    · rw [← hmargin c (hmem c (.inr hc))]
      exact htrail c hc
  · intro hdenotes
    generalize hraw : raw.toList = cs at hdenotes hmargin
    cases hdenotes with
    | @intro lead sign numeral trail factor digits hlead hsign hdigits hlength htrail =>
      have hblank (c : Char) (hc : c ∈ sign ++ numeral) : isMargin c = false := by
        rw [hmargin c (List.mem_append_left _ (List.mem_append_right _ hc))]
        exact (List.mem_append.1 hc).elim (isBlank_of_mem_sign hsign c) (isBlank_of_mem_digits hdigits c)
      have hsome : sign ++ numeral ≠ [] := by
        obtain ⟨c, rest, -, -, rfl, -⟩ := hdigits.exists_cons
        exact List.append_ne_nil_of_right_ne_nil _ (List.cons_ne_nil _ _)
      have htrim : trim isMargin (lead ++ (sign ++ numeral) ++ trail) = sign ++ numeral := by
        refine trim_append (fun c hc => ?_) hblank hsome (fun c hc => ?_)
        · rw [hmargin c (List.mem_append_left _ (List.mem_append_left _ hc))]
          exact hlead c hc
        · rw [hmargin c (List.mem_append_right _ hc)]
          exact htrail c hc
      rw [integer?, hraw, htrim]
      exact signedInteger?_eq_some_iff.2 ⟨sign, numeral, factor, digits, rfl, hsign, hdigits, hlength, rfl⟩

/-! ### Written integers -/

/-- An integer in decimal digits behind a minus sign if it is negative, with no superfluous zero in front. -/
def CanonicalDecimal (cs : List Char) (value : Int) : Prop :=
  ∃ digits : List Char, cs = (if value < 0 then ['-'] else []) ++ digits ∧ digits ≠ [] ∧
    (∀ c ∈ digits, c.isDigit) ∧ Leading digits ∧ Nat.ofDigitChars 10 digits 0 = value.natAbs

theorem canonicalDecimal_toString (value : Int) : CanonicalDecimal (toString value).toList value := by
  refine ⟨Nat.toDigits 10 value.natAbs, ?_, Nat.toDigits_ne_nil,
    fun c hc => isDigit_of_mem_toDigits hc, leading_toDigits _, Nat.ofDigitChars_ten_toDigits⟩
  rw [toList_toString]
  split <;> rfl

end Reckoner.Text
