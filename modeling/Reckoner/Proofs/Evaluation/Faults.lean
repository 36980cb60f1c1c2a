import Reckoner.Proofs.Evaluation.Basic

/-!
# Where a fault is found

A fault is found at the first character that cannot stand at its place: what precedes it can be completed, and what
follows it is of no concern. A malformed number is reported where it starts, and found where it ends.
-/

namespace Reckoner

open Scan

variable {text : String} {bound : Nat} {fault : Fault}

/-- A refusal is reported where it happens, unless a number is malformed. -/
theorem Scan.Refuses.found {scan : Scan} {next : Option Char} (hrefuses : Refuses scan next fault)
    (hkind : fault.kind ≠ .malformedNumber) :
    fault.position = scan.position ∧ fault.char? = next ∧
      ∀ start first others, scan.expects = .number start first others → (Literal.ofRun? (first :: others)).isSome := by
  induction hrefuses with
  | malformed => exact absurd rfl hkind
  | numberEnd hnext hread hrefuses ih =>
    obtain ⟨hposition, hchar, -⟩ := ih hkind
    refine ⟨hposition, hchar, ?_⟩
    intro start first others hexpects
    obtain ⟨rfl, rfl, rfl⟩ := Expectation.number.inj hexpects
    exact hread
  | _ => exact ⟨rfl, rfl, fun _ _ _ hexpects => absurd hexpects (by simp)⟩

theorem Scan.Refuses.malformed_of_kind {scan : Scan} {next : Option Char} (hrefuses : Refuses scan next fault)
    (hkind : fault.kind = .malformedNumber) :
    ∃ start first others, scan.expects = .number start first others ∧ fault = .malformedNumber start first others ∧
      Literal.ofRun? (first :: others) = none ∧ ∀ c ∈ next, Literal.isPart c = false := by
  induction hrefuses with
  | malformed hnext hread => exact ⟨_, _, _, rfl, rfl, hread, hnext⟩
  | numberEnd hnext hread hrefuses ih =>
    obtain ⟨start, first, others, hexpects, -⟩ := ih hkind
    exact absurd hexpects (by simp)
  | _ => exact absurd hkind (by simp [Fault.kind])

theorem Scan.Refuses.not_isBlank {scan : Scan} {next : Option Char} (hrefuses : Refuses scan next fault)
    (hkind : fault.kind ≠ .malformedNumber) : ∀ c ∈ next, Text.isBlank c = false := by
  induction hrefuses with
  | missingOperand hnext =>
    intro c hc
    rcases hnext c hc with rfl | rfl | rfl <;> decide
  | noOperand hpart hblank hopening hfollows =>
    intro c hc
    obtain rfl := Option.some.inj hc
    exact hblank
  | malformed => exact absurd rfl hkind
  | numberEnd hnext hread hrefuses ih => exact ih hkind
  | unclosed => exact fun c hc => absurd hc (by simp)
  | unclosedBefore hends hclosing =>
    intro c hc
    obtain rfl := Option.some.inj hc
    exact hends.1.1
  | leftOver hends henclosing =>
    intro c hc
    obtain rfl := Option.some.inj hc
    exact hends.1.1

/-- A malformed number is the whole run of literal characters from where it starts, and an operand may stand there. -/
theorem exists_malformed (hfault : evaluate text bound = .error fault) (hkind : fault.kind = .malformedNumber) :
    ∃ before first others rest enclosing, text.toList = before ++ (first :: others ++ rest) ∧
      fault = .malformedNumber before.length first others ∧ (∀ c ∈ first :: others, Literal.isPart c) ∧
      (∀ c ∈ rest.head?, Literal.isPart c = false) ∧ Literal.ofRun? (first :: others) = none ∧
      feed (some bound) start before = .ok ⟨before.length, enclosing, .operand⟩ ∧
      feed (some bound) start (before ++ first :: others) =
        .ok ⟨before.length + (others.length + 1), enclosing, .number before.length first others⟩ := by
  obtain ⟨read, rest, point, htext, hread, hrefuses⟩ := exists_refuses hfault (Fault.ne_tooDeep_of_kind (by simp [hkind]))
  obtain ⟨position, first, others, hexpects, rfl, hmalformed, hrest⟩ := hrefuses.malformed_of_kind hkind
  obtain ⟨before, rfl, hparts, hbefore⟩ := number_of_feed rfl hread hexpects
  obtain rfl : position = before.length := position_of_feed_start hbefore
  have hposition := position_of_feed hread
  refine ⟨before, first, others, rest, point.enclosing, by rw [htext, List.append_assoc], rfl, hparts, hrest, hmalformed,
    hbefore, ?_⟩
  obtain ⟨pointPosition, enclosing, expects⟩ := point
  cases hexpects
  rw [hread]
  simpa [start] using hposition

/-- Any other fault is of the next character, or the end of the text, and what precedes it can be completed. -/
theorem exists_found (hfault : evaluate text bound = .error fault) (hdeep : ∀ opened found, fault ≠ .tooDeep opened found)
    (hkind : fault.kind ≠ .malformedNumber) :
    ∃ read rest, text.toList = read ++ rest ∧ fault.position = read.length ∧ fault.char? = rest.head? ∧
      (∀ c ∈ rest.head?, Text.isBlank c = false) ∧ (∃ more value, evaluate (.ofList (read ++ more)) bound = .ok value) ∧
      ∀ other : List Char, other.head? = rest.head? → evaluate (.ofList (read ++ other)) bound = .error fault := by
  obtain ⟨read, rest, point, htext, hread, hrefuses⟩ := exists_refuses hfault hdeep
  obtain ⟨hposition, hchar, hnumber⟩ := hrefuses.found hkind
  rw [position_of_feed_start hread] at hposition
  refine ⟨read, rest, htext, hposition, hchar, hrefuses.not_isBlank hkind, ?_, ?_⟩
  · obtain ⟨more, hmore⟩ := exists_completion (settled_of_feed_start hread) hnumber
    exact ⟨more, exists_evaluate_append hread hmore⟩
  · intro other hother
    rw [← hother] at hrefuses
    exact evaluate_of_refuses hread hrefuses

/-- What the message of a fault quotes. -/
def Fault.quoted : Fault → List Char
  | unexpected _ found => [found]
  | unclosedBefore _ found => [found]
  | missingOperand _ found => found.toList
  | malformedNumber _ first others => first :: others
  | _ => []

/-- The message of a fault quotes nothing that is not in the text. -/
theorem mem_of_mem_quoted {c : Char} (hfault : evaluate text bound = .error fault) (hc : c ∈ fault.quoted) : c ∈ text.toList := by
  by_cases hkind : fault.kind = .malformedNumber
  · obtain ⟨before, first, others, rest, -, htext, rfl, -⟩ := exists_malformed hfault hkind
    rw [htext]
    exact List.mem_append_right _ (List.mem_append_left _ hc)
  · have hdeep (opened : Nat) (found : Option Char) : fault ≠ .tooDeep opened found := by
      rintro rfl
      exact List.not_mem_nil hc
    obtain ⟨read, rest, htext, -, hchar, -⟩ := exists_found hfault hdeep hkind
    have hfound : fault.char? = some c := by
      cases fault with
      | unexpected position found => exact congrArg some (List.mem_singleton.1 hc).symm
      | unclosedBefore position found => exact congrArg some (List.mem_singleton.1 hc).symm
      | missingOperand position found => exact Option.mem_toList.1 hc
      | malformedNumber position first others => exact absurd rfl hkind
      | unclosed opened length => exact absurd hc List.not_mem_nil
      | tooDeep opened found => exact absurd rfl (hdeep opened found)
    rw [htext]
    exact List.mem_append_right _ (List.mem_of_mem_head? (hchar ▸ hfound))

theorem takeWhile_isPart {run rest : List Char} (hparts : ∀ c ∈ run, Literal.isPart c)
    (hrest : ∀ c ∈ rest.head?, Literal.isPart c = false) : (run ++ rest).takeWhile Literal.isPart = run := by
  rw [List.takeWhile_append_of_pos hparts]
  cases rest with
  | nil => exact List.append_nil run
  | cons c rest => rw [List.takeWhile_cons_of_neg (by simp [hrest c rfl]), List.append_nil]

/-- A fault other than too deep a nesting is found at the earliest position, and depends on nothing to the right of it:
on no more than the character there, or the run of literal characters there if that is no number. -/
theorem fault_found_earliest (text : String) (fault : Fault) (hfault : evaluate text = .error fault)
    (hdeep : ∀ opened found, fault ≠ .tooDeep opened found) :
    fault.position ≤ text.toList.length ∧
      fault.char? = text.toList[fault.position]? ∧ (∀ c ∈ fault.char?, Text.isBlank c = false) ∧
      (∃ more value, evaluate (.ofList (text.toList.take fault.position ++ more)) = .ok value) ∧
      (fault.kind = .unexpectedCharacter ∨ fault.kind = .emptyOperand → fault.char? ≠ none →
        ∀ more, evaluate (.ofList (text.toList.take (fault.position + 1) ++ more)) = .error fault) ∧
      (fault.kind = .malformedNumber → ∀ more : List Char, (∀ c ∈ more.head?, Literal.isPart c = false) →
        evaluate (.ofList (text.toList.take
          (fault.position + ((text.toList.drop fault.position).takeWhile Literal.isPart).length) ++ more)) = .error fault) := by
  by_cases hkind : fault.kind = .malformedNumber
  · obtain ⟨before, first, others, rest, enclosing, htext, rfl, hparts, hrest, hmalformed, hbefore, hread⟩ :=
      exists_malformed hfault hkind
    rw [htext, Fault.position]
    refine ⟨?_, ?_, ?_, ?_, ?_, ?_⟩
    · rw [List.length_append]
      omega
    · simp [Fault.char?]
    · intro c hc
      obtain rfl := Option.some.inj hc
      exact Literal.isBlank_of_isPart (hparts first List.mem_cons_self)
    · rw [List.take_left]
      exact ⟨_, exists_evaluate_append hbefore run_zero⟩
    · intro hother
      rw [hkind] at hother
      exact absurd hother (by simp)
    · intro _ more hmore
      rw [List.drop_left, takeWhile_isPart hparts hrest, ← List.append_assoc, ← List.length_append, List.take_left]
      exact evaluate_of_refuses hread (.malformed hmore hmalformed)
  · obtain ⟨read, rest, htext, hposition, hchar, hblank, hviable, hstable⟩ := exists_found hfault hdeep hkind
    rw [htext, hposition]
    refine ⟨?_, ?_, ?_, ?_, ?_, ?_⟩
    · rw [List.length_append]
      omega
    · rw [hchar, List.getElem?_append_right (Nat.le_refl _), Nat.sub_self, List.head?_eq_getElem?]
    · rw [hchar]
      exact hblank
    · rw [List.take_left]
      exact hviable
    · intro _ hsome more
      cases rest with
      | nil => exact absurd hchar hsome
      | cons c rest =>
        rw [List.take_length_add_append, List.append_assoc]
        exact hstable (c :: more) rfl
    · exact fun hmalformed => absurd hmalformed hkind

theorem fault_found_earliest_operator : evaluate "(1+*2" = .error (.missingOperand 3 (some '*')) ∧
    ∀ more, evaluate (.ofList ("(1+*".toList ++ more)) = .error (.missingOperand 3 (some '*')) := by
  have hfault : evaluate "(1+*2" = .error (.missingOperand 3 (some '*')) := evaluate_eq_error_iff.2 ⟨rfl, rfl⟩
  obtain ⟨-, -, -, -, hstable, -⟩ := fault_found_earliest _ _ hfault (by simp)
  exact ⟨hfault, hstable (.inr rfl) (by simp [Fault.char?])⟩

end Reckoner
