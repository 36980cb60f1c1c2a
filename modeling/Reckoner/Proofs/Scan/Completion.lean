import Reckoner.Proofs.Scan.Runs

/-!
# Completion

Wherever no number is malformed, a text can be completed: a digit in place of an operand that is missing, and one closing
parenthesis for each that is open.
-/

namespace Reckoner

def openParentheses (enclosing : List Enclosure) : Nat := enclosing.countP fun enclosure => !enclosure.isSign

theorem openParentheses_behindOperand (enclosing : List Enclosure) :
    openParentheses (behindOperand enclosing) = openParentheses enclosing := by
  induction enclosing with
  | nil => rfl
  | cons enclosure enclosing ih =>
    cases enclosure with
    | parenthesis position => rfl
    | sign => exact ih.trans (List.countP_cons_of_neg (by decide)).symm

theorem openParentheses_parenthesis (position : Nat) (enclosing : List Enclosure) :
    openParentheses (.parenthesis position :: enclosing) = openParentheses enclosing + 1 :=
  List.countP_cons_of_pos rfl

theorem behindOperand_suffix (enclosing : List Enclosure) : behindOperand enclosing <:+ enclosing :=
  List.dropWhile_suffix _

theorem behindOperand_ne_sign (enclosing outer : List Enclosure) : behindOperand enclosing ≠ .sign :: outer := by
  intro hsign
  have hlength := (behindOperand_suffix outer).length_le
  have hsettled := behindOperand_behindOperand enclosing
  rw [hsign, behindOperand_sign] at hsettled
  rw [hsettled, List.length_cons] at hlength
  omega

namespace Scan

variable {limit : Option Nat} {position : Nat} {enclosing : List Enclosure} {scan next : Scan}

theorem run_closings (hsettled : behindOperand enclosing = enclosing) :
    run limit ⟨position, enclosing, .operator⟩ (List.replicate (openParentheses enclosing) ')') = .ok () := by
  induction hopen : openParentheses enclosing generalizing position enclosing with
  | zero =>
    match enclosing with
    | [] => rfl
    | .parenthesis opened :: outer => exact absurd hopen (by rw [openParentheses_parenthesis]; omega)
    | .sign :: outer => exact absurd hsettled (behindOperand_ne_sign _ _)
  | succ count ih =>
    match enclosing with
    | [] => exact absurd hopen (by simp [openParentheses])
    | .parenthesis opened :: outer =>
      have houter : openParentheses (behindOperand outer) = count := by
        rw [openParentheses_parenthesis] at hopen
        rw [openParentheses_behindOperand]
        omega
      rw [List.replicate_succ, run_cons, step_operator_closing, ok_bind]
      exact ih (behindOperand_behindOperand outer) houter
    | .sign :: outer => exact absurd hsettled (behindOperand_ne_sign _ _)

theorem run_number_closings {start : Nat} {first : Char} {others : List Char}
    (hread : (Literal.ofRun? (first :: others)).isSome) :
    run limit ⟨position, enclosing, .number start first others⟩ (List.replicate (openParentheses enclosing) ')') =
      .ok () := by
  have hends : ∀ c ∈ (List.replicate (openParentheses enclosing) ')').head?, Literal.isPart c = false := by
    intro c hc
    rw [List.eq_of_mem_replicate (List.mem_of_mem_head? hc)]
    decide
  rw [run_complete hends hread, ← openParentheses_behindOperand]
  exact run_closings (behindOperand_behindOperand enclosing)

theorem run_zero :
    run limit ⟨position, enclosing, .operand⟩ ('0' :: List.replicate (openParentheses enclosing) ')') = .ok () := by
  rw [run_cons, step_operand_part (by decide), ok_bind]
  exact run_number_closings (by decide)

/-! ### Behind an operand -/

/-- Whether an operand ends at a point. -/
def HasOperand (scan : Scan) : Prop :=
  match scan.expects with
  | .operand => False
  | .operator => True
  | .number _ first others => (Literal.ofRun? (first :: others)).isSome

theorem step_of_hasOperand {c : Char} (hoperand : scan.HasOperand) (hsettled : scan.Settled)
    (hpart : Literal.isPart c = false) :
    step limit scan c = step limit ⟨scan.position, behindOperand scan.enclosing, .operator⟩ c := by
  obtain ⟨position, enclosing, expects⟩ := scan
  cases expects with
  | operand => exact hoperand.elim
  | operator => rw [hsettled rfl]
  | number start first others => exact step_number_complete hpart hoperand

theorem finish_of_hasOperand (hoperand : scan.HasOperand) (hsettled : scan.Settled) :
    finish scan = finishOperator scan.position (behindOperand scan.enclosing) := by
  obtain ⟨position, enclosing, expects⟩ := scan
  cases expects with
  | operand => exact hoperand.elim
  | operator => rw [hsettled rfl]; rfl
  | number start first others => exact finish_complete hoperand

theorem run_closings_of_hasOperand (hoperand : scan.HasOperand) (hsettled : scan.Settled) :
    run limit scan (List.replicate (openParentheses scan.enclosing) ')') = .ok () := by
  obtain ⟨position, enclosing, expects⟩ := scan
  cases expects with
  | operand => exact hoperand.elim
  | operator => exact run_closings (hsettled rfl)
  | number start first others => exact run_number_closings hoperand

theorem Move.hasOperand (hmove : Move ')' scan next) : scan.HasOperand := by
  cases hmove with
  | number hpart => exact absurd hpart (by decide)
  | operandBlank hblank => exact absurd hblank (by decide)
  | opening hopening => exact absurd hopening (by simp [Opening.ofChar?])
  | part hpart => exact absurd hpart (by decide)
  | numberEnd hpart hread hmove => exact hread
  | operatorBlank => trivial
  | operator => trivial
  | closing => trivial

theorem hasOperand_of_finish (hmissing : finish scan ≠ .error (.missingOperand scan.position none))
    (hmalformed : ∀ start first others, finish scan ≠ .error (.malformedNumber start first others)) :
    scan.HasOperand := by
  obtain ⟨position, enclosing, expects⟩ := scan
  cases expects with
  | operand => exact hmissing rfl
  | operator => trivial
  | number start first others =>
    show (Literal.ofRun? (first :: others)).isSome
    by_contra hread
    exact hmalformed start first others (finish_malformed (by simpa using hread))

/-- A text may end behind an operand that nothing encloses. -/
theorem finish_eq_ok_iff (hsettled : scan.Settled) :
    finish scan = .ok () ↔ scan.HasOperand ∧ behindOperand scan.enclosing = [] := by
  constructor
  · intro hfinish
    have hoperand : scan.HasOperand := hasOperand_of_finish (by simp [hfinish]) (by simp [hfinish])
    refine ⟨hoperand, ?_⟩
    rw [finish_of_hasOperand hoperand hsettled] at hfinish
    cases henclosing : behindOperand scan.enclosing with
    | nil => rfl
    | cons enclosure outer =>
      cases enclosure with
      | parenthesis opened => exact absurd (henclosing ▸ hfinish) (by simp [finishOperator])
      | sign => exact absurd henclosing (behindOperand_ne_sign _ _)
  · rintro ⟨hoperand, henclosing⟩
    rw [finish_of_hasOperand hoperand hsettled, henclosing]
    rfl

theorem finish_eq_unclosed_iff {opened length : Nat} (hsettled : scan.Settled) :
    finish scan = .error (.unclosed opened length) ↔
      scan.HasOperand ∧ scan.position = length ∧
        ∃ outer, behindOperand scan.enclosing = .parenthesis opened :: outer := by
  constructor
  · intro hfinish
    have hoperand : scan.HasOperand := hasOperand_of_finish (by simp [hfinish]) (by simp [hfinish])
    rw [finish_of_hasOperand hoperand hsettled] at hfinish
    cases henclosing : behindOperand scan.enclosing with
    | nil => exact absurd (henclosing ▸ hfinish) (by simp [finishOperator])
    | cons enclosure outer =>
      cases enclosure with
      | parenthesis position =>
        rw [henclosing] at hfinish
        obtain ⟨rfl, hlength⟩ := Fault.unclosed.inj (Except.error.inj hfinish)
        exact ⟨hoperand, hlength, outer, rfl⟩
      | sign => exact absurd henclosing (behindOperand_ne_sign _ _)
  · rintro ⟨hoperand, rfl, outer, henclosing⟩
    rw [finish_of_hasOperand hoperand hsettled, henclosing]
    rfl

theorem exists_completion (hsettled : scan.Settled)
    (hnumber : ∀ start first others, scan.expects = .number start first others →
      (Literal.ofRun? (first :: others)).isSome) : ∃ more, run limit scan more = .ok () := by
  obtain ⟨position, enclosing, expects⟩ := scan
  cases expects with
  | operand => exact ⟨_, run_zero⟩
  | operator => exact ⟨_, run_closings (hsettled rfl)⟩
  | number start first others => exact ⟨_, run_number_closings (hnumber start first others rfl)⟩

/-! ### Where an operand is awaited -/

theorem not_move_of_ends {c : Char} (hends : EndsExpression c) (hclosing : c ≠ ')') :
    ¬ Move c ⟨position, enclosing, .operator⟩ next := by
  intro hmove
  cases hmove with
  | operatorBlank hblank => exact absurd (hends.1.1.symm.trans hblank) (by simp)
  | operator hoperator => exact absurd hoperator (by simp [hends.1.2, hends.2])
  | closing hc => exact hclosing hc

/-- A digit behind a blank can only be an operand, so that one is awaited in front of the blank. -/
theorem expects_of_blank_zero {text : List Char} (hrun : run limit scan (' ' :: '0' :: text) = .ok ()) :
    scan.expects = .operand := by
  obtain ⟨position, enclosing, expects⟩ := scan
  rw [run_cons, bind_eq_ok_iff] at hrun
  obtain ⟨blank, hblank, hrun⟩ := hrun
  rw [run_cons, bind_eq_ok_iff] at hrun
  obtain ⟨zero, hzero, -⟩ := hrun
  cases expects with
  | operand => rfl
  | operator =>
    rw [step_operator_blank (by decide)] at hblank
    obtain rfl := Except.ok.inj hblank
    exact absurd (move_of_step hzero) (not_move_of_ends ⟨⟨by decide, rfl⟩, rfl⟩ (by decide))
  | number start first others =>
    cases hread : Literal.ofRun? (first :: others) with
    | none =>
      rw [step_number_malformed (by decide) hread] at hblank
      exact absurd hblank (by simp)
    | some literal =>
      rw [step_number_complete (by decide) (Option.isSome_of_eq_some hread), step_operator_blank (by decide)] at hblank
      obtain rfl := Except.ok.inj hblank
      exact absurd (move_of_step hzero) (not_move_of_ends ⟨⟨by decide, rfl⟩, rfl⟩ (by decide))

theorem run_blank_zero :
    run limit ⟨position, enclosing, .operand⟩ (' ' :: '0' :: List.replicate (openParentheses enclosing) ')') =
      .ok () := by
  rw [run_cons, step_operand_blank (by decide), ok_bind]
  exact run_zero

end Scan

end Reckoner
