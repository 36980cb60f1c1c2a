import Reckoner.Proofs.Parser.Completeness
import Reckoner.Proofs.Parser.Runs
import Reckoner.Proofs.Parser.Soundness
import Reckoner.Proofs.Scan.Nesting
import Reckoner.Proofs.Scan.Readers

/-!
# Evaluation and the automaton

Whether a text has a value, and what is wrong with it otherwise, can be read off a run of the automaton. The value
cannot, but it does not depend on the limit: the grammar gives a text at most one tree. Only the character behind an opening
that leads too deep is not to be seen in a run; it is looked up in the text.
-/

namespace Reckoner

open Scan

variable {limit : Option Nat} {bound : Nat} {text : String} {fault other : Fault} {tree : Expression}

namespace Fault

/-- A fault with the character that a text has behind an opening which leads too deep. -/
def lookedUp (text : List Char) : Fault → Fault
  | tooDeep opened _ => tooDeep opened text[opened + 1]?
  | fault => fault

@[simp] theorem kind_withoutNext (fault : Fault) : fault.withoutNext.kind = fault.kind := by
  cases fault <;> rfl

@[simp] theorem lookedUp_withoutNext (text : List Char) (fault : Fault) :
    fault.withoutNext.lookedUp text = fault.lookedUp text := by
  cases fault <;> rfl

@[simp] theorem withoutNext_lookedUp (text : List Char) (fault : Fault) :
    (fault.lookedUp text).withoutNext = fault.withoutNext := by
  cases fault <;> rfl

@[simp] theorem lookedUp_lookedUp (text : List Char) (fault : Fault) :
    (fault.lookedUp text).lookedUp text = fault.lookedUp text := by
  cases fault <;> rfl

theorem ne_tooDeep_of_kind (hkind : fault.kind ≠ .unexpectedCharacter) (opened : Nat) (found : Option Char) :
    fault ≠ .tooDeep opened found := by
  rintro rfl
  exact hkind rfl

theorem withoutNext_eq_self (hdeep : ∀ opened found, fault ≠ .tooDeep opened found) : fault.withoutNext = fault := by
  cases fault with
  | tooDeep opened found => exact absurd rfl (hdeep opened found)
  | _ => rfl

theorem lookedUp_eq_self (hdeep : ∀ opened found, fault ≠ .tooDeep opened found) (text : List Char) :
    fault.lookedUp text = fault := by
  cases fault with
  | tooDeep opened found => exact absurd rfl (hdeep opened found)
  | _ => rfl

end Fault

namespace Expression

theorem lookedUp_of_parse (hread : parse limit text = .error fault) : fault.lookedUp text.toList = fault := by
  rw [parse, bind_eq_error_iff] at hread
  rcases hread with hread | ⟨parsed, -, hleft⟩
  · -- the cursor stands in the text, right behind the opening
    obtain ⟨_, stop, hruns, hstops⟩ := Parser.call_finishes limit (.expression 0 (.ofText text))
    have hresult : (Parser.Call.expression 0 (.ofText text)).result limit = .error fault := by
      change (Parser.expression limit 0 (.ofText text)).map Parsed.after = _
      rw [hread]
      rfl
    obtain ⟨passed, hpasses, -⟩ := hruns.exists_passes
    have hstop : stop.On text.toList := Cursor.On.of_passes ⟨Nat.zero_le _, rfl⟩ hpasses
    rw [hresult] at hstops
    cases fault with
    | tooDeep opened found =>
      obtain ⟨hposition, hfound⟩ : opened + 1 = stop.position ∧ found = stop.rest.head? := hstops
      rw [Fault.lookedUp, hfound, hstop.head?_rest, hposition]
    | _ => rfl
  · refine Fault.lookedUp_eq_self ?_ _
    rintro opened found rfl
    split at hleft <;> cases hleft

theorem parse_eq_error_iff : parse limit text = .error fault ↔
    run limit start text.toList = .error fault.withoutNext ∧ fault.lookedUp text.toList = fault := by
  rw [run_start]
  constructor
  · intro hread
    rw [hread]
    exact ⟨rfl, lookedUp_of_parse hread⟩
  · rintro ⟨hrun, hfault⟩
    cases hread : parse limit text with
    | error other =>
      rw [hread] at hrun
      have hsame : other.withoutNext = fault.withoutNext := Except.error.inj hrun
      rw [← lookedUp_of_parse hread, ← hfault, ← Fault.lookedUp_withoutNext, hsame, Fault.lookedUp_withoutNext]
    | ok tree =>
      rw [hread] at hrun
      exact absurd hrun nofun

theorem exists_parse_eq_ok_iff : (∃ tree, parse limit text = .ok tree) ↔ run limit start text.toList = .ok () := by
  rw [run_start]
  cases parse limit text with
  | error other => exact iff_of_false nofun nofun
  | ok tree => simp

/-- What is read within some limit is read the same without one. -/
theorem parse_none_of_ok (hread : parse limit text = .ok tree) : parse none text = .ok tree := by
  obtain ⟨phrase, hphrase, rfl⟩ := exists_derivedFrom_of_parse hread
  exact parse_of_derivedFrom hphrase

end Expression

/-- The greatest nesting in a text, as far as it can be read: three for each parenthesis that is open and one for each
sign that is pending. -/
def nestingPeak (text : String) : Nat := Scan.start.peak text.toList

/-- The value of a text that may nest as deeply as it likes. -/
def evaluateUnlimited (text : String) : Except Fault Binary64 := (Expression.parse none text).map Expression.value

theorem exists_evaluateUnlimited_iff :
    (∃ value, evaluateUnlimited text = .ok value) ↔ run none start text.toList = .ok () := by
  rw [← Expression.exists_parse_eq_ok_iff, evaluateUnlimited]
  cases Expression.parse none text <;> simp [Except.map]

theorem evaluate_eq_error_iff : evaluate text bound = .error fault ↔
    run (some bound) start text.toList = .error fault.withoutNext ∧ fault.lookedUp text.toList = fault := by
  rw [← Expression.parse_eq_error_iff, evaluate]
  cases Expression.parse (some bound) text <;> simp [Except.map]

theorem exists_evaluate_iff :
    (∃ value, evaluate text bound = .ok value) ↔ run (some bound) start text.toList = .ok () := by
  rw [← Expression.exists_parse_eq_ok_iff, evaluate]
  cases Expression.parse (some bound) text <;> simp [Except.map]

/-- Evaluation fails at a point that has been reached and refuses what comes next. -/
theorem exists_refuses (hfault : evaluate text bound = .error fault) (hdeep : ∀ opened found, fault ≠ .tooDeep opened found) :
    ∃ read rest point, text.toList = read ++ rest ∧ feed (some bound) start read = .ok point ∧
      Refuses point rest.head? fault := by
  obtain ⟨hrun, -⟩ := evaluate_eq_error_iff.1 hfault
  rw [Fault.withoutNext_eq_self hdeep] at hrun
  exact refuses_of_run hrun hdeep

theorem evaluate_of_refuses {read rest : List Char} {point : Scan}
    (hread : feed (some bound) start read = .ok point) (hrefuses : Refuses point rest.head? fault) :
    evaluate (.ofList (read ++ rest)) bound = .error fault := by
  rw [evaluate_eq_error_iff, String.toList_ofList, Fault.withoutNext_eq_self hrefuses.ne_tooDeep]
  exact ⟨hrefuses.run hread, Fault.lookedUp_eq_self hrefuses.ne_tooDeep _⟩

theorem exists_evaluate_append {read more : List Char} {point : Scan}
    (hread : feed (some bound) start read = .ok point) (hmore : run (some bound) point more = .ok ()) :
    ∃ value, evaluate (.ofList (read ++ more)) bound = .ok value := by
  rw [exists_evaluate_iff, String.toList_ofList, run_append, hread, ok_bind, hmore]

/-! ### The limit -/

/-- Evaluating a text within the limit is evaluating it without one. -/
theorem evaluate_eq (hpeak : nestingPeak text ≤ bound) : evaluate text bound = evaluateUnlimited text := by
  have hrun : run (some bound) start text.toList = run none start text.toList := run_some_of_peak_le hpeak
  rw [evaluate, evaluateUnlimited]
  cases hread : Expression.parse (some bound) text with
  | error fault =>
    rw [Expression.parse_eq_error_iff, hrun] at hread
    rw [Expression.parse_eq_error_iff.2 hread]
  | ok tree => rw [Expression.parse_none_of_ok hread]

/-- With the character at a position the nesting of a text first exceeds a bound. -/
def ExceedsAt (bound : Nat) (text : String) (position : Nat) : Prop :=
  position < text.toList.length ∧ nestingPeak (.ofList (text.toList.take position)) ≤ bound ∧
    bound < nestingPeak (.ofList (text.toList.take (position + 1)))

/-- A text that nests more deeply than the limit admits is read up to the first opening that leads too deep. -/
theorem exists_evaluate_tooDeep (hpeak : bound < nestingPeak text) : ∃ opened, ExceedsAt bound text opened ∧
    evaluate text bound = .error (.tooDeep opened text.toList[opened + 1]?) := by
  obtain ⟨read, c, rest, htext, hbefore, hbehind, hrun⟩ := exists_run_some_of_lt_peak (Nat.zero_le bound) hpeak
  refine ⟨read.length, ⟨?_, ?_, ?_⟩, evaluate_eq_error_iff.2 ⟨hrun.trans ?_, rfl⟩⟩
  · rw [htext, List.length_append, List.length_cons]
    omega
  · rwa [htext, List.take_left, nestingPeak, String.toList_ofList]
  · rwa [htext, List.take_length_add_append, nestingPeak, String.toList_ofList]
  · rw [start, Nat.zero_add, Fault.withoutNext]

/-- Unless the limit is noticed, evaluating a text is evaluating it without one. -/
theorem evaluateUnlimited_eq (hdeep : ∀ opened found, evaluate text bound ≠ .error (.tooDeep opened found)) :
    evaluateUnlimited text = evaluate text bound := by
  by_cases hpeak : nestingPeak text ≤ bound
  · exact (evaluate_eq hpeak).symm
  · obtain ⟨opened, -, htooDeep⟩ := exists_evaluate_tooDeep (Nat.lt_of_not_le hpeak)
    exact absurd htooDeep (hdeep _ _)

theorem evaluate_openings {count : Nat} (hdeep : bound < 3 * count) (rest : List Char) :
    evaluate (.ofList (List.replicate count '(' ++ rest)) bound =
      .error (.tooDeep (bound / 3) (List.replicate count '(' ++ rest)[bound / 3 + 1]?) := by
  rw [evaluate_eq_error_iff, String.toList_ofList]
  refine ⟨(run_openings (Nat.zero_le bound) (by rwa [nesting, Nat.zero_add]) rest).trans ?_, rfl⟩
  rw [Nat.zero_add]
  rfl

theorem evaluate_ne_tooDeep (hpeak : nestingPeak text ≤ bound) {opened : Nat} {found : Option Char} :
    evaluate text bound ≠ .error (.tooDeep opened found) := by
  intro hfault
  obtain ⟨hrun, -⟩ := evaluate_eq_error_iff.1 hfault
  rw [run_some_of_peak_le hpeak] at hrun
  exact run_none_ne_tooDeep hrun

end Reckoner
