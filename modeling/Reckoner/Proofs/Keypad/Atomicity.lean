import Reckoner.Proofs.Evaluation.Numbers
import Reckoner.Proofs.Keypad.Statements

/-!
# Failing steps

A step fails if its label is that of no key, or if it evaluates the expression and the value cannot be written. Then it has
done nothing: all of its statements that assign come behind those that can fail.
-/

namespace Reckoner

namespace Key

theorem ofLabel?_label (key : Key) : ofLabel? key.label.toString = some key := by
  rw [ofLabel?, Char.toString, String.toList_singleton]
  exact ofChar?_label key

theorem ofLabel?_eq_none_iff {label : String} : ofLabel? label = none ↔ ∀ key : Key, label ≠ key.label.toString := by
  constructor
  · rintro hnone key rfl
    rw [ofLabel?_label] at hnone
    exact absurd hnone (by simp)
  · intro hlabels
    rw [Option.eq_none_iff_forall_ne_some]
    intro key hkey
    refine hlabels key (String.toList_inj.1 ?_)
    rw [toList_of_ofLabel? hkey, Char.toString, String.toList_singleton]

end Key

namespace Session

variable {session : Session} {step : Step} {fault : FixedFault}

theorem outcome_eq_error_iff : session.outcome = .error fault ↔ session.expression ≠ "" ∧
    ∃ value, evaluate session.expression = .ok value ∧ value.fixedText session.places = .error fault := by
  unfold outcome
  split
  · rename_i hempty
    simp [hempty]
  · rename_i hsome
    cases hvalue : evaluate session.expression with
    | error fault => simp
    | ok value => simp [hsome, map_eq_error_iff]

/-- A step that evaluates ends the expression, with faults shown in some words. -/
theorem exists_conclude_of_evaluates (session : Session) (hevaluates : step.evaluates) :
    ∃ describe, session.step step = (session.conclude describe).mapError .unwritable := by
  cases step with
  | press label =>
    obtain rfl : label = "=" := beq_iff_eq.1 hevaluates
    exact ⟨Fault.message, rfl⟩
  | enter => exact ⟨fun _ => "Error", rfl⟩
  | toggle => exact absurd hevaluates (by simp [Step.evaluates])
  | assign expression => exact absurd hevaluates (by simp [Step.evaluates])

theorem exists_step_of_not_evaluates (session : Session) (hevaluates : ¬ step.evaluates)
    (hlabel : ∀ label, step = .press label → Key.ofLabel? label ≠ none) : ∃ next, session.step step = .ok next := by
  cases step with
  | press label =>
    obtain ⟨key, hkey⟩ := Option.ne_none_iff_exists'.1 (hlabel label rfl)
    have hequals : key ≠ .equals := fun hequals =>
      hevaluates (beq_iff_eq.2 ((Key.eq_equals_iff hkey).2 hequals))
    refine ⟨session.typeKey key, ?_⟩
    change session.press label = _
    rw [press, hkey]
    cases key with
    | equals => exact absurd rfl hequals
    | digit => rfl
    | point => rfl
    | operator => rfl
  | enter => exact absurd rfl hevaluates
  | toggle => exact ⟨_, rfl⟩
  | assign expression => exact ⟨_, rfl⟩

/-- Why a step fails. -/
theorem exists_stepFault_iff : (∃ fault, session.step step = .error fault) ↔
    (∃ label, step = .press label ∧ ∀ key : Key, label ≠ key.label.toString) ∨
      step.evaluates ∧ session.expression ≠ "" ∧ ∃ value, evaluate session.expression = .ok value ∧
        ∃ fault, value.fixedText session.places = .error fault := by
  simp only [← Key.ofLabel?_eq_none_iff]
  constructor
  · rintro ⟨fault, hfault⟩
    by_cases hevaluates : step.evaluates
    · obtain ⟨describe, hconclude⟩ := exists_conclude_of_evaluates session hevaluates
      rw [hconclude, mapError_eq_error_iff] at hfault
      obtain ⟨cause, hcause, -⟩ := hfault
      obtain ⟨hsome, value, hvalue, hunwritable⟩ := outcome_eq_error_iff.1 (map_eq_error_iff.1 hcause)
      exact .inr ⟨hevaluates, hsome, value, hvalue, cause, hunwritable⟩
    · refine .inl ?_
      by_contra hlabel
      obtain ⟨next, hnext⟩ := exists_step_of_not_evaluates session hevaluates fun label hpress hnone =>
        hlabel ⟨label, hpress, hnone⟩
      exact absurd (hnext.symm.trans hfault) (by simp)
  · rintro (⟨label, rfl, hnone⟩ | ⟨hevaluates, hsome, value, hvalue, cause, hunwritable⟩)
    · refine ⟨.unknownKey label, ?_⟩
      change session.press label = _
      rw [press, hnone]
    · obtain ⟨describe, hconclude⟩ := exists_conclude_of_evaluates session hevaluates
      have hcause := outcome_eq_error_iff.2 ⟨hsome, value, hvalue, hunwritable⟩
      refine ⟨.unwritable cause, ?_⟩
      rw [hconclude, mapError_eq_error_iff]
      exact ⟨cause, map_eq_error_iff.2 hcause, rfl⟩

theorem expression_of_evaluates {next : Session} (hstep : session.step step = .ok next) (hevaluates : step.evaluates) :
    next.expression = "" := by
  obtain ⟨describe, hconclude⟩ := exists_conclude_of_evaluates session hevaluates
  rw [hconclude] at hstep
  obtain ⟨display, rfl⟩ := exists_display_of_conclude (mapError_eq_ok_iff.1 hstep)
  rfl

/-- A step fails exactly if it presses what is no key, or evaluates an expression whose value cannot be written; a fault of
the expression is none of its faults. If it fails, nothing has been assigned, and if an evaluation does not fail, the
expression is empty. Apart from a zero with too many places, what cannot be written has too many digits or negative
places. -/
theorem perform_all_or_nothing (session : Session) (step : Step) :
    let ended := (Statements.perform step).on session
    ((∃ interruption, ended.1 = .error interruption) ↔
      (∃ label, step = .press label ∧ ∀ key : Key, label ≠ key.label.toString) ∨
        step.evaluates ∧ session.expression ≠ "" ∧ ∃ value, evaluate session.expression = .ok value ∧
          ∃ fault, value.fixedText session.places = .error fault) ∧
    (∀ value : Binary64, (∃ fault, value.fixedText session.places = .error fault) ↔
      session.places < 0 ∨ (0 ≤ session.places ∧ value.Crowded session.places) ∨
        (∃ negative, value = .finite negative .zero) ∧ (zeroPlacesLimit : Int) < session.places) ∧
    (∀ interruption, ended.1 = .error interruption →
      (∃ fault, interruption = .step fault ∧ session.step step = .error fault) ∧
      ended.2 = session ∧ session.after step = session) ∧
    (∀ result, ended.1 = .ok result →
      session.step step = .ok ended.2 ∧ (step.evaluates → ended.2.expression = "")) := by
  intro ended
  have hended : ended = Statements.whole session (session.step step) := Statements.on_perform step session
  refine ⟨?_, fun value => Binary64.exists_fixedFault_iff, ?_, ?_⟩
  · rw [← exists_stepFault_iff, hended]
    cases session.step step <;> simp [Statements.whole]
  · rw [hended]
    cases hstep : session.step step with
    | ok next => simp [Statements.whole]
    | error fault =>
      intro interruption hinterruption
      obtain rfl := Except.error.inj hinterruption
      exact ⟨⟨fault, rfl, rfl⟩, rfl, after_of_error hstep⟩
  · rw [hended]
    cases hstep : session.step step with
    | error fault => simp [Statements.whole]
    | ok next => exact fun _ _ => ⟨rfl, expression_of_evaluates hstep⟩

/-- A zero fails with too many places although it has a single digit. -/
theorem perform_fails_on_uncrowded_zero :
    let session : Session := ⟨.dark, 2000799, "0", "0"⟩
    ¬ ((∃ interruption, ((Statements.perform .enter).on session).1 = .error interruption) ↔
      (∃ label, Step.enter = .press label ∧ ∀ key : Key, label ≠ key.label.toString) ∨
        Step.enter.evaluates ∧ session.expression ≠ "" ∧ ∃ value, evaluate session.expression = .ok value ∧
          (session.places < 0 ∨ 0 ≤ session.places ∧ value.Crowded session.places)) := by
  intro session hclaimed
  have hfault : ∃ fault, session.step .enter = .error fault := by
    refine exists_stepFault_iff.2 (.inr ⟨rfl, by decide, .zero, evaluate_zero, ?_⟩)
    exact Binary64.exists_fixedFault_iff.2 (.inr (.inr ⟨⟨false, rfl⟩, by decide⟩))
  obtain ⟨fault, hfault⟩ := hfault
  have hended : ∃ interruption, ((Statements.perform .enter).on session).1 = .error interruption :=
    ⟨.step fault, by rw [Statements.on_perform, hfault]; rfl⟩
  rcases hclaimed.1 hended with ⟨label, hpress, -⟩ | ⟨-, -, value, hvalue, hnegative | ⟨-, hcrowded⟩⟩
  · exact absurd hpress (by simp)
  · exact absurd hnegative (by decide)
  · obtain rfl := Except.ok.inj (evaluate_zero.symm.trans hvalue)
    obtain ⟨negative, x, hzero, hdigits⟩ := hcrowded
    obtain ⟨-, rfl⟩ := Binary64.finite.inj hzero
    rw [Magnitude.scaled_zero] at hdigits
    exact absurd hdigits (by decide)

end Session

end Reckoner
