import Mathlib.Data.List.TakeWhile
import Reckoner.Expression.Literal
import Reckoner.Proofs.Text.Digits
import Reckoner.Text.Blank

/-!
# Numerals

Which runs of digits and points are numbers, and the decimal fraction that each of them writes. The reader of literals
cuts a run at its first point; here a run is described without cutting it, by what it contains. Both agree: a run of
literal characters is read exactly when it is a numeral, and as the fraction that the numeral writes.
-/

namespace Reckoner

/-- Digits with at most one point before, among or after them. -/
structure Numeral where
  run : List Char
  isPart_of_mem : ∀ c ∈ run, Literal.isPart c
  exists_isDigit : ∃ c ∈ run, c.isDigit
  count_point_le : run.count '.' ≤ 1

namespace Numeral

/-- A run of literal characters as a numeral. -/
def ofRun (run : List Char) (hparts : run.all Literal.isPart) (hdigit : run.any Char.isDigit) (hpoint : run.count '.' ≤ 1) :
    Numeral where
  run := run
  isPart_of_mem := List.all_eq_true.1 hparts
  exists_isDigit := List.any_eq_true.1 hdigit
  count_point_le := hpoint

/-- All digits in a row, over a place for each digit behind the point. -/
def literal (numeral : Numeral) : Literal where
  coefficient := Nat.ofDigitChars 10 (numeral.run.filter Char.isDigit) 0
  places := ((numeral.run.dropWhile (· != '.')).filter Char.isDigit).length

theorem ext_run {left right : Numeral} (hrun : left.run = right.run) : left = right := by
  cases left
  cases right
  cases hrun
  rfl

end Numeral

namespace Literal

theorem isPart_iff {c : Char} : isPart c ↔ c.isDigit ∨ c = '.' := by
  simp only [isPart, Bool.or_eq_true, beq_iff_eq]

theorem isPart_of_isDigit {c : Char} (hdigit : c.isDigit) : isPart c := isPart_iff.2 (.inl hdigit)

theorem not_isDigit_point : Char.isDigit '.' = false := by decide

theorem ne_point_of_isDigit {c : Char} (hdigit : c.isDigit) : c ≠ '.' := by
  rintro rfl
  rw [not_isDigit_point] at hdigit
  exact Bool.false_ne_true hdigit

/-- A character of a literal is never blank, so that no blank can stand inside a literal or open one. -/
theorem isBlank_of_isPart {c : Char} (hpart : isPart c) : Text.isBlank c = false := by
  rcases isPart_iff.1 hpart with hdigit | rfl
  · have hcode := Text.code_bounds_of_isDigit hdigit
    rw [Bool.eq_false_iff]
    intro hblank
    simp only [Text.isBlank, Bool.or_eq_true, Bool.and_eq_true, decide_eq_true_eq, beq_iff_eq] at hblank
    omega
  · decide

theorem isPart_of_isBlank {c : Char} (hblank : Text.isBlank c) : isPart c = false := by
  by_contra hpart
  rw [isBlank_of_isPart (by simpa using hpart)] at hblank
  exact Bool.false_ne_true hblank

/-- A run of literal characters has either no point or a first one. -/
theorem digits_or_point {run : List Char} (hparts : ∀ c ∈ run, isPart c) :
    (∀ c ∈ run, c.isDigit) ∨ ∃ whole fraction, run = whole ++ '.' :: fraction ∧ (∀ c ∈ whole, c.isDigit) ∧
      ∀ c ∈ fraction, isPart c := by
  induction run with
  | nil => exact .inl (by simp)
  | cons c rest ih =>
    rw [List.forall_mem_cons] at hparts
    obtain ⟨hpart, hrest⟩ := hparts
    rcases isPart_iff.1 hpart with hdigit | rfl
    · rcases ih hrest with hdigits | ⟨whole, fraction, rfl, hwhole, hfraction⟩
      · exact .inl (List.forall_mem_cons.2 ⟨hdigit, hdigits⟩)
      · exact .inr ⟨c :: whole, fraction, rfl, List.forall_mem_cons.2 ⟨hdigit, hwhole⟩, hfraction⟩
    · exact .inr ⟨[], rest, rfl, by simp, hrest⟩

theorem filter_isDigit_eq_self {digits : List Char} (hdigits : ∀ c ∈ digits, c.isDigit) :
    digits.filter Char.isDigit = digits := List.filter_eq_self.2 hdigits

theorem count_point_of_digits {digits : List Char} (hdigits : ∀ c ∈ digits, c.isDigit) : digits.count '.' = 0 :=
  List.count_eq_zero.2 fun hmem => ne_point_of_isDigit (hdigits _ hmem) rfl

theorem ofRun?_digits {digits : List Char} (hdigits : ∀ c ∈ digits, c.isDigit) :
    ofRun? digits = if digits = [] then none else some ⟨Nat.ofDigitChars 10 digits 0, 0⟩ := by
  have htake : digits.takeWhile Char.isDigit = digits := List.takeWhile_eq_self_iff.2 hdigits
  have hdrop : digits.dropWhile Char.isDigit = [] := List.dropWhile_eq_nil_iff.2 hdigits
  rw [ofRun?, htake, hdrop]
  by_cases hempty : digits = [] <;> simp [hempty]

theorem ofRun?_point {whole fraction : List Char} (hwhole : ∀ c ∈ whole, c.isDigit) :
    ofRun? (whole ++ '.' :: fraction) =
      if whole ++ fraction ≠ [] ∧ fraction.all Char.isDigit then
        some ⟨Nat.ofDigitChars 10 (whole ++ fraction) 0, fraction.length⟩
      else none := by
  have htake : (whole ++ '.' :: fraction).takeWhile Char.isDigit = whole := by
    rw [List.takeWhile_append_of_pos hwhole, List.takeWhile_cons_of_neg (by decide), List.append_nil]
  have hdrop : (whole ++ '.' :: fraction).dropWhile Char.isDigit = '.' :: fraction := by
    rw [List.dropWhile_append_of_pos hwhole, List.dropWhile_cons_of_neg (by decide)]
  rw [ofRun?, htake, hdrop]
  rfl

/-- Behind the first point only digits are left exactly when it is the only one. -/
theorem all_isDigit_iff_count {fraction : List Char} (hparts : ∀ c ∈ fraction, isPart c) :
    fraction.all Char.isDigit ↔ fraction.count '.' = 0 := by
  rw [List.all_eq_true, List.count_eq_zero]
  constructor
  · intro hdigits hmem
    exact ne_point_of_isDigit (hdigits _ hmem) rfl
  · intro hpoint c hmem
    refine (isPart_iff.1 (hparts c hmem)).resolve_right ?_
    rintro rfl
    exact hpoint hmem

/-- A numeral is read as the fraction that it writes. -/
theorem ofRun?_numeral (numeral : Numeral) : ofRun? numeral.run = some numeral.literal := by
  obtain ⟨run, hparts, ⟨digit, hmem, hdigit⟩, hcount⟩ := numeral
  rcases digits_or_point hparts with hdigits | ⟨whole, fraction, rfl, hwhole, hfraction⟩
  · have hpoint : run.dropWhile (· != '.') = [] := by
      simpa using fun c hc => ne_point_of_isDigit (hdigits c hc)
    rw [ofRun?_digits hdigits, if_neg (List.ne_nil_of_mem hmem)]
    simp only [Numeral.literal, filter_isDigit_eq_self hdigits, hpoint]
    rfl
  · rw [List.count_append, List.count_cons_self, count_point_of_digits hwhole] at hcount
    have hall : fraction.all Char.isDigit := (all_isDigit_iff_count hfraction).2 (by omega)
    have hdigits : ∀ c ∈ fraction, c.isDigit := List.all_eq_true.1 hall
    have hsome : whole ++ fraction ≠ [] := by
      intro hnil
      obtain ⟨rfl, rfl⟩ := List.append_eq_nil_iff.1 hnil
      rw [List.nil_append, List.mem_singleton] at hmem
      exact ne_point_of_isDigit hdigit hmem
    have hpoint : (whole ++ '.' :: fraction).dropWhile (· != '.') = '.' :: fraction := by
      rw [List.dropWhile_append_of_pos fun c hc => bne_iff_ne.2 (ne_point_of_isDigit (hwhole c hc)),
        List.dropWhile_cons_of_neg (by decide)]
    rw [ofRun?_point hwhole, if_pos ⟨hsome, hall⟩]
    simp only [Numeral.literal, hpoint, List.filter_append, List.filter_cons_of_neg, not_isDigit_point,
      Bool.false_eq_true, not_false_eq_true, filter_isDigit_eq_self hwhole, filter_isDigit_eq_self hdigits]

/-- A run of literal characters is read exactly when it has a digit and at most one point. -/
theorem isSome_ofRun?_iff {run : List Char} (hparts : ∀ c ∈ run, isPart c) :
    (ofRun? run).isSome ↔ (∃ c ∈ run, c.isDigit) ∧ run.count '.' ≤ 1 := by
  constructor
  · intro hread
    rcases digits_or_point hparts with hdigits | ⟨whole, fraction, rfl, hwhole, hfraction⟩
    · rw [ofRun?_digits hdigits] at hread
      have hsome : run ≠ [] := by
        rintro rfl
        exact Bool.false_ne_true hread
      obtain ⟨digit, hmem⟩ := List.exists_mem_of_ne_nil run hsome
      exact ⟨⟨digit, hmem, hdigits digit hmem⟩, by rw [count_point_of_digits hdigits]; omega⟩
    · rw [ofRun?_point hwhole] at hread
      split at hread
      · rename_i hcondition
        obtain ⟨hsome, hall⟩ := hcondition
        obtain ⟨digit, hmem⟩ := List.exists_mem_of_ne_nil _ hsome
        have hdigits : ∀ c ∈ fraction, c.isDigit := List.all_eq_true.1 hall
        refine ⟨⟨digit, ?_, ?_⟩, ?_⟩
        · rw [List.mem_append] at hmem ⊢
          exact hmem.imp_right (List.mem_cons_of_mem _)
        · exact (List.mem_append.1 hmem).elim (hwhole digit) (hdigits digit)
        · rw [List.count_append, List.count_cons_self, count_point_of_digits hwhole, count_point_of_digits hdigits]
      · exact absurd hread (by simp)
  · rintro ⟨hdigit, hcount⟩
    rw [ofRun?_numeral ⟨run, hparts, hdigit, hcount⟩]
    rfl

/-- What is read from a run of literal characters is what a numeral with this run writes. -/
theorem exists_numeral_of_ofRun? {run : List Char} {literal : Literal} (hparts : ∀ c ∈ run, isPart c)
    (hread : ofRun? run = some literal) : ∃ numeral : Numeral, numeral.run = run ∧ numeral.literal = literal := by
  obtain ⟨hdigit, hcount⟩ := (isSome_ofRun?_iff hparts).1 (by rw [hread]; rfl)
  refine ⟨⟨run, hparts, hdigit, hcount⟩, rfl, ?_⟩
  exact Option.some.inj ((ofRun?_numeral _).symm.trans hread)

theorem exists_numeral_digits {digits : List Char} (hdigits : ∀ c ∈ digits, c.isDigit) (hsome : digits ≠ []) :
    ∃ numeral : Numeral, numeral.run = digits ∧ numeral.literal = ⟨Nat.ofDigitChars 10 digits 0, 0⟩ := by
  refine exists_numeral_of_ofRun? (fun c hc => isPart_of_isDigit (hdigits c hc)) ?_
  rw [ofRun?_digits hdigits, if_neg hsome]

theorem exists_numeral_point {whole fraction : List Char} (hwhole : ∀ c ∈ whole, c.isDigit)
    (hfraction : ∀ c ∈ fraction, c.isDigit) (hsome : whole ≠ []) : ∃ numeral : Numeral,
      numeral.run = whole ++ '.' :: fraction ∧
        numeral.literal = ⟨Nat.ofDigitChars 10 (whole ++ fraction) 0, fraction.length⟩ := by
  refine exists_numeral_of_ofRun? ?_ ?_
  · intro c hc
    rw [List.mem_append, List.mem_cons] at hc
    rw [isPart_iff]
    rcases hc with hc | rfl | hc
    · exact .inl (hwhole c hc)
    · exact .inr rfl
    · exact .inl (hfraction c hc)
  · rw [ofRun?_point hwhole, if_pos ⟨List.append_ne_nil_of_left_ne_nil hsome _, List.all_eq_true.2 hfraction⟩]

end Literal

end Reckoner
