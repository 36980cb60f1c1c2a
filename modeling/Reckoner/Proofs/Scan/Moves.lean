import Reckoner.Proofs.Scan.Steps

/-!
# What a step can come to

Every character that the automaton takes is one of the moves below, and every fault that it finds, apart from too deep a
nesting, is one of the refusals. A refusal sees the next character, or the end of the text, and nothing behind it.
-/

namespace Reckoner

theorem Opening.not_isBlank_of_ofChar? {c : Char} {opening : Opening} (hopening : ofChar? c = some opening) :
    Text.isBlank c = false := by
  unfold ofChar? at hopening
  by_cases hparenthesis : c = '('
  · rw [hparenthesis]
    decide
  by_cases hminus : c = '-'
  · rw [hminus]
    decide
  by_cases hplus : c = '+'
  · rw [hplus]
    decide
  rw [if_neg hparenthesis, if_neg hminus, if_neg hplus] at hopening
  exact absurd hopening (by simp)

theorem Operator.not_isBlank_of_isSome {c : Char} (hoperator : (additive? c).isSome ∨ (multiplicative? c).isSome) :
    Text.isBlank c = false := by
  unfold additive? multiplicative? at hoperator
  by_cases hplus : c = '+'
  · rw [hplus]
    decide
  by_cases hminus : c = '-'
  · rw [hminus]
    decide
  by_cases htimes : c = '*'
  · rw [htimes]
    decide
  by_cases hover : c = '/'
  · rw [hover]
    decide
  rw [if_neg hplus, if_neg hminus, if_neg htimes, if_neg hover] at hoperator
  exact absurd hoperator (by simp)

namespace Scan

inductive Move (c : Char) : Scan → Scan → Prop
  | number {position : Nat} {enclosing : List Enclosure} (hpart : Literal.isPart c) :
      Move c ⟨position, enclosing, .operand⟩ ⟨position + 1, enclosing, .number position c []⟩
  | operandBlank {position : Nat} {enclosing : List Enclosure} (hblank : Text.isBlank c) :
      Move c ⟨position, enclosing, .operand⟩ ⟨position + 1, enclosing, .operand⟩
  | opening {position : Nat} {enclosing : List Enclosure} {opening : Opening}
      (hopening : Opening.ofChar? c = some opening) :
      Move c ⟨position, enclosing, .operand⟩ ⟨position + 1, opening.enclosure position :: enclosing, .operand⟩
  | part {position start : Nat} {enclosing : List Enclosure} {first : Char} {others : List Char}
      (hpart : Literal.isPart c) :
      Move c ⟨position, enclosing, .number start first others⟩
        ⟨position + 1, enclosing, .number start first (others ++ [c])⟩
  | numberEnd {position start : Nat} {enclosing : List Enclosure} {first : Char} {others : List Char} {next : Scan}
      (hpart : Literal.isPart c = false) (hread : (Literal.ofRun? (first :: others)).isSome)
      (hmove : Move c ⟨position, behindOperand enclosing, .operator⟩ next) :
      Move c ⟨position, enclosing, .number start first others⟩ next
  | operatorBlank {position : Nat} {enclosing : List Enclosure} (hblank : Text.isBlank c) :
      Move c ⟨position, enclosing, .operator⟩ ⟨position + 1, enclosing, .operator⟩
  | operator {position : Nat} {enclosing : List Enclosure}
      (hoperator : (Operator.additive? c).isSome ∨ (Operator.multiplicative? c).isSome) :
      Move c ⟨position, enclosing, .operator⟩ ⟨position + 1, enclosing, .operand⟩
  | closing {position opened : Nat} {outer : List Enclosure} (hclosing : c = ')') :
      Move c ⟨position, .parenthesis opened :: outer, .operator⟩ ⟨position + 1, behindOperand outer, .operator⟩

/-- A point cannot be followed by the next character, or by the end of the text. -/
inductive Refuses : Scan → Option Char → Fault → Prop
  | missingOperand {position : Nat} {enclosing : List Enclosure} {next : Option Char}
      (hnext : ∀ c ∈ next, c = ')' ∨ c = '*' ∨ c = '/') :
      Refuses ⟨position, enclosing, .operand⟩ next (.missingOperand position next)
  | noOperand {position : Nat} {enclosing : List Enclosure} {c : Char} (hpart : Literal.isPart c = false)
      (hblank : Text.isBlank c = false) (hopening : Opening.ofChar? c = none)
      (hfollows : Parser.followsOperand c = false) :
      Refuses ⟨position, enclosing, .operand⟩ (some c) (.unexpected position c)
  | malformed {position start : Nat} {enclosing : List Enclosure} {first : Char} {others : List Char}
      {next : Option Char} (hnext : ∀ c ∈ next, Literal.isPart c = false)
      (hread : Literal.ofRun? (first :: others) = none) :
      Refuses ⟨position, enclosing, .number start first others⟩ next (.malformedNumber start first others)
  | numberEnd {position start : Nat} {enclosing : List Enclosure} {first : Char} {others : List Char}
      {next : Option Char} {fault : Fault} (hnext : ∀ c ∈ next, Literal.isPart c = false)
      (hread : (Literal.ofRun? (first :: others)).isSome)
      (hrefuses : Refuses ⟨position, behindOperand enclosing, .operator⟩ next fault) :
      Refuses ⟨position, enclosing, .number start first others⟩ next fault
  | unclosed {position opened : Nat} {outer : List Enclosure} :
      Refuses ⟨position, .parenthesis opened :: outer, .operator⟩ none (.unclosed opened position)
  | unclosedBefore {position opened : Nat} {outer : List Enclosure} {c : Char} (hends : EndsExpression c)
      (hclosing : c ≠ ')') :
      Refuses ⟨position, .parenthesis opened :: outer, .operator⟩ (some c) (.unclosedBefore position c)
  | leftOver {position : Nat} {enclosing : List Enclosure} {c : Char} (hends : EndsExpression c)
      (henclosing : ∀ opened outer, enclosing ≠ .parenthesis opened :: outer) :
      Refuses ⟨position, enclosing, .operator⟩ (some c) (.unexpected position c)

theorem Move.step {c : Char} {scan next : Scan} (hmove : Move c scan next) : step none scan c = .ok next := by
  induction hmove with
  | number hpart => exact step_operand_part hpart
  | operandBlank hblank => exact step_operand_blank hblank
  | opening hopening =>
    rw [step_operand_opening (Opening.not_isPart_of_ofChar? hopening) (Opening.not_isBlank_of_ofChar? hopening)
      hopening]
    rfl
  | part hpart => exact step_number_part hpart
  | numberEnd hpart hread hmove ih => rw [step_number_complete hpart hread, ih]
  | operatorBlank hblank => exact step_operator_blank hblank
  | operator hoperator => exact step_operator_operator (Operator.not_isBlank_of_isSome hoperator) hoperator
  | closing hclosing =>
    subst hclosing
    exact step_operator_closing

theorem Refuses.step {limit : Option Nat} {c : Char} {scan : Scan} {next : Option Char} {fault : Fault}
    (hrefuses : Refuses scan next fault) (hnext : next = some c) : step limit scan c = .error fault := by
  induction hrefuses with
  | missingOperand hoperand =>
    subst hnext
    rcases hoperand c rfl with rfl | rfl | rfl <;> rfl
  | noOperand hpart hblank hopening hfollows =>
    obtain rfl := Option.some.inj hnext
    rw [step_operand_other hpart hblank hopening, hfollows]
    rfl
  | malformed hpart hread => exact step_number_malformed (hpart c hnext) hread
  | numberEnd hpart hread hrefuses ih => rw [step_number_complete (hpart c hnext) hread, ih hnext]
  | unclosed => exact absurd hnext (by simp)
  | unclosedBefore hends hclosing =>
    obtain rfl := Option.some.inj hnext
    exact step_operator_unclosed hends hclosing
  | leftOver hends henclosing =>
    obtain rfl := Option.some.inj hnext
    rw [step_operator_ends hends, stepClosing.eq_2 _ _ _ henclosing]

theorem Refuses.finish {scan : Scan} {next : Option Char} {fault : Fault} (hrefuses : Refuses scan next fault)
    (hnext : next = none) : finish scan = .error fault := by
  induction hrefuses with
  | missingOperand => rw [hnext]; rfl
  | malformed hpart hread => exact finish_malformed hread
  | numberEnd hpart hread hrefuses ih => rw [finish_complete hread, ih hnext]
  | unclosed => rfl
  | noOperand => exact absurd hnext (by simp)
  | unclosedBefore => exact absurd hnext (by simp)
  | leftOver => exact absurd hnext (by simp)

/-! ### Nothing else can happen -/

theorem operator_moves_or_refuses (position : Nat) (enclosing : List Enclosure) (c : Char) :
    (∃ next, Move c ⟨position, enclosing, .operator⟩ next) ∨
      ∃ fault, Refuses ⟨position, enclosing, .operator⟩ (some c) fault := by
  by_cases hblank : Text.isBlank c
  · exact .inl ⟨_, .operatorBlank hblank⟩
  by_cases hoperator : (Operator.additive? c).isSome ∨ (Operator.multiplicative? c).isSome
  · exact .inl ⟨_, .operator hoperator⟩
  obtain ⟨hadditive, hmultiplicative⟩ := not_or.1 hoperator
  have hends : EndsExpression c :=
    ⟨⟨by simpa using hblank, by simpa using hmultiplicative⟩, by simpa using hadditive⟩
  match enclosing with
  | .parenthesis opened :: outer =>
    by_cases hclosing : c = ')'
    · exact .inl ⟨_, .closing hclosing⟩
    · exact .inr ⟨_, .unclosedBefore hends hclosing⟩
  | [] => exact .inr ⟨_, .leftOver hends (by simp)⟩
  | .sign :: outer => exact .inr ⟨_, .leftOver hends (by simp)⟩

theorem followsOperand_of_openings {c : Char} (hopening : Opening.ofChar? c = none)
    (hfollows : ¬ (c = ')' ∨ c = '*' ∨ c = '/')) : Parser.followsOperand c = false := by
  obtain ⟨hclosing, htimes, hover⟩ := by simpa only [not_or] using hfollows
  unfold Opening.ofChar? at hopening
  unfold Parser.followsOperand Operator.additive? Operator.multiplicative?
  by_cases hplus : c = '+'
  · rw [hplus] at hopening
    exact absurd hopening (by decide)
  by_cases hminus : c = '-'
  · rw [hminus] at hopening
    exact absurd hopening (by decide)
  rw [if_neg hplus, if_neg hminus, if_neg htimes, if_neg hover]
  simpa using hclosing

theorem operand_moves_or_refuses (position : Nat) (enclosing : List Enclosure) (c : Char) :
    (∃ next, Move c ⟨position, enclosing, .operand⟩ next) ∨
      ∃ fault, Refuses ⟨position, enclosing, .operand⟩ (some c) fault := by
  by_cases hpart : Literal.isPart c
  · exact .inl ⟨_, .number hpart⟩
  by_cases hblank : Text.isBlank c
  · exact .inl ⟨_, .operandBlank hblank⟩
  cases hopening : Opening.ofChar? c with
  | some opening => exact .inl ⟨_, .opening hopening⟩
  | none =>
    by_cases hfollows : c = ')' ∨ c = '*' ∨ c = '/'
    · refine .inr ⟨_, .missingOperand ?_⟩
      intro d hd
      obtain rfl := Option.some.inj hd
      exact hfollows
    · have hnot := followsOperand_of_openings hopening hfollows
      exact .inr ⟨_, .noOperand (by simpa using hpart) (by simpa using hblank) hopening hnot⟩

theorem moves_or_refuses (scan : Scan) (c : Char) :
    (∃ next, Move c scan next) ∨ ∃ fault, Refuses scan (some c) fault := by
  obtain ⟨position, enclosing, expects⟩ := scan
  cases expects with
  | operand => exact operand_moves_or_refuses position enclosing c
  | operator => exact operator_moves_or_refuses position enclosing c
  | number start first others =>
    by_cases hpart : Literal.isPart c
    · exact .inl ⟨_, .part hpart⟩
    have hnext : ∀ d ∈ some c, Literal.isPart d = false := by
      intro d hd
      obtain rfl := Option.some.inj hd
      simpa using hpart
    cases hread : Literal.ofRun? (first :: others) with
    | none => exact .inr ⟨_, .malformed hnext hread⟩
    | some literal =>
      have hsome := Option.isSome_of_eq_some hread
      rcases operator_moves_or_refuses position (behindOperand enclosing) c with ⟨next, hmove⟩ | ⟨fault, hrefuses⟩
      · exact .inl ⟨next, .numberEnd (by simpa using hpart) hsome hmove⟩
      · exact .inr ⟨fault, .numberEnd hnext hsome hrefuses⟩

theorem operator_ends_or_refuses (position : Nat) (enclosing : List Enclosure) :
    finish ⟨position, enclosing, .operator⟩ = .ok () ∨
      ∃ fault, Refuses ⟨position, enclosing, .operator⟩ none fault := by
  match enclosing with
  | .parenthesis opened :: outer => exact .inr ⟨_, .unclosed⟩
  | [] => exact .inl rfl
  | .sign :: outer => exact .inl rfl

theorem ends_or_refuses (scan : Scan) : finish scan = .ok () ∨ ∃ fault, Refuses scan none fault := by
  obtain ⟨position, enclosing, expects⟩ := scan
  cases expects with
  | operand => exact .inr ⟨_, .missingOperand (by simp)⟩
  | operator => exact operator_ends_or_refuses position enclosing
  | number start first others =>
    cases hread : Literal.ofRun? (first :: others) with
    | none => exact .inr ⟨_, .malformed (by simp) hread⟩
    | some literal =>
      have hsome := Option.isSome_of_eq_some hread
      rcases operator_ends_or_refuses position (behindOperand enclosing) with hfinish | ⟨fault, hrefuses⟩
      · exact .inl (by rw [finish_complete hsome, hfinish])
      · exact .inr ⟨fault, .numberEnd (by simp) hsome hrefuses⟩

theorem finish_eq_error_iff {scan : Scan} {fault : Fault} : finish scan = .error fault ↔ Refuses scan none fault := by
  constructor
  · intro hfinish
    rcases ends_or_refuses scan with hends | ⟨other, hrefuses⟩
    · exact absurd (hends.symm.trans hfinish) (by simp)
    · obtain rfl := Except.error.inj ((hrefuses.finish rfl).symm.trans hfinish)
      exact hrefuses
  · exact fun hrefuses => hrefuses.finish rfl

end Scan

/-! ### The limit -/

theorem nesting_behindOperand_le (enclosing : List Enclosure) :
    nesting (behindOperand enclosing) ≤ nesting enclosing := by
  induction enclosing with
  | nil => exact Nat.le_refl _
  | cons enclosure enclosing ih =>
    cases enclosure with
    | parenthesis position => exact Nat.le_refl _
    | sign =>
      rw [behindOperand_sign, nesting_cons]
      omega

namespace Scan

variable {limit : Option Nat} {c : Char} {scan next : Scan} {fault : Fault}

theorem Move.nesting_le (hmove : Move c scan next) (hexpects : scan.expects ≠ .operand) :
    nesting next.enclosing ≤ nesting scan.enclosing := by
  induction hmove with
  | number => exact absurd rfl hexpects
  | operandBlank => exact absurd rfl hexpects
  | opening => exact absurd rfl hexpects
  | part => exact Nat.le_refl _
  | numberEnd hpart hread hmove ih => exact (ih (by simp)).trans (nesting_behindOperand_le _)
  | operatorBlank => exact Nat.le_refl _
  | operator => exact Nat.le_refl _
  | @closing position opened outer =>
    rw [nesting_cons]
    exact (nesting_behindOperand_le outer).trans (Nat.le_add_right _ _)

/-- A move is taken unless it leads deeper than the limit admits. -/
theorem Move.step_limit (hmove : Move c scan next) :
    Scan.step limit scan c =
      if limit.all (nesting next.enclosing ≤ ·) ∨ nesting next.enclosing ≤ nesting scan.enclosing then .ok next
      else .error (.tooDeep scan.position none) := by
  induction hmove with
  | number hpart => rw [step_operand_part hpart, if_pos (.inr (Nat.le_refl _))]
  | operandBlank hblank => rw [step_operand_blank hblank, if_pos (.inr (Nat.le_refl _))]
  | @opening position enclosing opening hopening =>
    rw [step_operand_opening (Opening.not_isPart_of_ofChar? hopening) (Opening.not_isBlank_of_ofChar? hopening)
      hopening]
    -- the one move that leads deeper, so that the limit decides
    have hdeeper : ¬ nesting enclosing + opening.cost ≤ nesting enclosing := by
      cases opening <;> simp [Opening.cost]
    simp only [Parser.deepen, nesting_cons, Opening.cost_enclosure, hdeeper, or_false]
    split <;> rfl
  | part hpart => rw [step_number_part hpart, if_pos (.inr (Nat.le_refl _))]
  | @numberEnd position start enclosing first others next hpart hread hmove ih =>
    have hshallow := hmove.nesting_le (by simp)
    rw [step_number_complete hpart hread, ih, if_pos (.inr hshallow),
      if_pos (.inr (hshallow.trans (nesting_behindOperand_le enclosing)))]
  | operatorBlank hblank => rw [step_operator_blank hblank, if_pos (.inr (Nat.le_refl _))]
  | operator hoperator =>
    rw [step_operator_operator (Operator.not_isBlank_of_isSome hoperator) hoperator, if_pos (.inr (Nat.le_refl _))]
  | @closing position opened outer hclosing =>
    have hmove : Move c ⟨position, .parenthesis opened :: outer, .operator⟩ _ := .closing hclosing
    have hshallow := hmove.nesting_le (by simp)
    subst hclosing
    rw [step_operator_closing, if_pos (.inr hshallow)]

end Scan

end Reckoner
