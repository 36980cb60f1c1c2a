import Reckoner.Proofs.Text.Digits
import Reckoner.Text.Quoted

/-!
# Characters of quoted texts

Whatever a text holds, only printing characters come out when it is quoted, and no opening bracket or colon that was not in it.
What is quoted of the characters that displays are made of is itself made of such characters.
-/

namespace Reckoner.Text

variable {c : Char} {cs : List Char}

/-! ### Ordinary characters -/

/-- The characters of ASCII that print, without those that mark-up has a use for. -/
def isOrdinary (c : Char) : Bool := 0x20 ≤ c.toNat && c.toNat < 0x7F && c != '\\' && c != '[' && c != ':'

theorem isPrintable_of_isOrdinary (hordinary : isOrdinary c) : isPrintable c := by
  simp only [isOrdinary, Bool.and_eq_true, decide_eq_true_eq] at hordinary
  exact isPrintable_of_ascii hordinary.1.1.1.1 hordinary.1.1.1.2

theorem isOrdinary_of_isDigit (hdigit : c.isDigit) : isOrdinary c := by
  have hcode := code_bounds_of_isDigit hdigit
  have hslash : c ≠ '\\' := by
    rintro rfl
    exact absurd hdigit (by decide)
  have hbracket : c ≠ '[' := by
    rintro rfl
    exact absurd hdigit (by decide)
  have hcolon : c ≠ ':' := by
    rintro rfl
    exact absurd hdigit (by decide)
  simp only [isOrdinary, Bool.and_eq_true, decide_eq_true_eq, bne_iff_ne]
  exact ⟨⟨⟨⟨by omega, by omega⟩, hslash⟩, hbracket⟩, hcolon⟩

/-- The characters that displays are made of: the ordinary ones, the backslash, the colon and the sign of infinity. -/
def isLegible (c : Char) : Bool := isOrdinary c || c == '\\' || c == ':' || c == '∞'

theorem isLegible_iff : isLegible c ↔ isOrdinary c ∨ c = '\\' ∨ c = ':' ∨ c = '∞' := by
  simp only [isLegible, Bool.or_eq_true, beq_iff_eq, or_assoc]

theorem isLegible_of_isOrdinary (hordinary : isOrdinary c) : isLegible c := isLegible_iff.2 (.inl hordinary)

theorem isPrintable_of_isLegible (hlegible : isLegible c) : isPrintable c := by
  rcases isLegible_iff.1 hlegible with hordinary | rfl | rfl | rfl
  · exact isPrintable_of_isOrdinary hordinary
  · decide
  · decide
  · decide

theorem isOrdinary_digitChar : ∀ digit < 16, isOrdinary (Nat.digitChar digit) := by decide

theorem isOrdinary_of_mem_toDigits {base n : Nat} (hbase : 1 < base ∧ base ≤ 16) (hc : c ∈ Nat.toDigits base n) :
    isOrdinary c := by
  induction n using Nat.strongRecOn with
  | _ n ih =>
    rw [Nat.toDigits_eq_if hbase.1] at hc
    split at hc
    · rename_i hdigit
      rw [List.mem_singleton.1 hc]
      exact isOrdinary_digitChar n (by omega)
    · rename_i hmore
      rcases List.mem_append.1 hc with hc | hc
      · exact ih (n / base) (Nat.div_lt_self (by omega) hbase.1) hc
      · rw [List.mem_singleton.1 hc]
        have hrest := Nat.mod_lt n (Nat.zero_lt_of_lt hbase.1)
        exact isOrdinary_digitChar _ (by omega)

theorem isOrdinary_of_mem_toString {n : Nat} (hc : c ∈ (toString n).toList) : isOrdinary c := by
  change c ∈ n.repr.toList at hc
  rw [Nat.toList_repr] at hc
  exact isOrdinary_of_mem_toDigits (by decide) hc

theorem isOrdinary_of_mem_decimal {n : Int} (hc : c ∈ (toString n).toList) : isOrdinary c := by
  rcases isDigit_or_of_mem_toString hc with hdigit | rfl
  · exact isOrdinary_of_isDigit hdigit
  · decide

theorem isOrdinary_of_mem_leftpad {base width n : Nat} (hbase : 1 < base ∧ base ≤ 16)
    (hc : c ∈ (Nat.toDigits base n).leftpad width '0') : isOrdinary c := by
  rcases List.mem_append.1 hc with hzero | hdigit
  · rw [List.eq_of_mem_replicate hzero]
    decide
  · exact isOrdinary_of_mem_toDigits hbase hdigit

theorem isOrdinary_of_mem_hexadecimal {width code : Nat} (hc : c ∈ hexadecimal width code) : isOrdinary c :=
  isOrdinary_of_mem_leftpad (by decide) hc

/-! ### What a quoted text is made of -/

theorem isOrdinary_quoteMark (cs : List Char) : isOrdinary (quoteMark cs) := by
  unfold quoteMark
  split <;> decide

/-- The characters that follow a backslash, and the backslash. -/
def escapeLetters : List Char := ['\\', 't', 'n', 'r', 'x', 'u', 'U']

theorem cases_of_mem_escape {mark d : Char} (hc : c ∈ escape mark d) :
    c = mark ∨ c ∈ escapeLetters ∨ (c = d ∧ isPrintable d) ∨ ∃ width code, c ∈ hexadecimal width code := by
  unfold escape at hc
  grind [escapeLetters]

/-- A character of a quoted text is ordinary or the backslash, or it prints and is taken from the text. -/
theorem cases_of_mem_quoted (hc : c ∈ quoted cs) : isOrdinary c ∨ c = '\\' ∨ (c ∈ cs ∧ isPrintable c) := by
  have hmark := isOrdinary_quoteMark cs
  rcases List.mem_cons.1 hc with rfl | hc
  · exact .inl hmark
  · rcases List.mem_append.1 hc with hc | hc
    · obtain ⟨d, hd, hc⟩ := List.mem_flatMap.1 hc
      rcases cases_of_mem_escape hc with rfl | hletter | ⟨rfl, hprintable⟩ | ⟨width, code, hdigit⟩
      · exact .inl hmark
      · have hletters : escapeLetters.all fun c => isOrdinary c || c == '\\' := by decide
        have hkind := List.all_eq_true.1 hletters c hletter
        rw [Bool.or_eq_true, beq_iff_eq] at hkind
        exact hkind.imp_right .inl
      · exact .inr (.inr ⟨hd, hprintable⟩)
      · exact .inl (isOrdinary_of_mem_hexadecimal hdigit)
    · rw [List.mem_singleton.1 hc]
      exact .inl hmark

theorem isPrintable_of_mem_quoted (hc : c ∈ quoted cs) : isPrintable c := by
  rcases cases_of_mem_quoted hc with hordinary | rfl | ⟨-, hprintable⟩
  · exact isPrintable_of_isOrdinary hordinary
  · decide
  · exact hprintable

theorem isPrintable_of_mem_quote {text : String} (hc : c ∈ (quote text).toList) : isPrintable c := by
  rw [quote, String.toList_ofList] at hc
  exact isPrintable_of_mem_quoted hc

theorem isLegible_of_mem_quoted (hcs : ∀ d ∈ cs, isLegible d) (hc : c ∈ quoted cs) : isLegible c := by
  rcases cases_of_mem_quoted hc with hordinary | rfl | ⟨hmem, -⟩
  · exact isLegible_of_isOrdinary hordinary
  · decide
  · exact hcs c hmem

/-- Quoting brings in no character that mark-up has a use for but the backslash. -/
theorem notMem_quoted (hordinary : isOrdinary c = false) (hslash : c ≠ '\\') (hc : c ∉ cs) : c ∉ quoted cs := by
  intro hmem
  rcases cases_of_mem_quoted hmem with hother | hother | ⟨hother, -⟩
  · exact absurd hother (by simp [hordinary])
  · exact hslash hother
  · exact hc hother

end Reckoner.Text
