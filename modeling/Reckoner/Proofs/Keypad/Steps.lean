import Mathlib.Data.List.Induction
import Reckoner.Keypad.Session
import Reckoner.Proofs.Sequencing

/-!
# What a step does

A step that can be done types a key, evaluates the expression, switches the theme or puts another expression in place.
Whatever else is said of sessions follows from these four cases.
-/

namespace Reckoner

/-- Whether a step evaluates the expression. -/
def Step.evaluates : Step → Bool
  | enter => true
  | press label => label == "="
  | _ => false

namespace Key

theorem toList_of_ofLabel? {label : String} {key : Key} (hkey : ofLabel? label = some key) :
    label.toList = [key.label] := by
  unfold ofLabel? at hkey
  split at hkey
  · rename_i c hlabel
    rw [hlabel, label_of_ofChar? hkey]
  · exact absurd hkey (by simp)

theorem eq_equals_iff {label : String} {key : Key} (hkey : ofLabel? label = some key) : label = "=" ↔ key = equals := by
  constructor
  · rintro rfl
    exact Option.some.inj (hkey.symm.trans (by decide))
  · rintro rfl
    exact String.toList_inj.1 (toList_of_ofLabel? hkey)

end Key

namespace Session

inductive Change (session : Session) : Step → Session → Prop
  | typed {label : String} {key : Key} (hkey : Key.ofLabel? label = some key) (hequals : key ≠ .equals) :
      Change session (.press label) (session.typeKey key)
  | concluded {step : Step} (hevaluates : step.evaluates) (display : String) :
      Change session step { session with display := display, expression := "" }
  | toggled : Change session .toggle session.toggleTheme
  | assigned (expression : String) : Change session (.assign expression) (session.assign expression)

variable {session next : Session} {step : Step}

theorem exists_display_of_conclude {describe : Fault → String} (hconclude : session.conclude describe = .ok next) :
    ∃ display, next = { session with display := display, expression := "" } := by
  unfold conclude at hconclude
  cases houtcome : session.outcome with
  | error fault => exact absurd hconclude (by simp [houtcome, Except.map])
  | ok shown =>
    rw [houtcome] at hconclude
    cases shown with
    | error fault => exact ⟨describe fault, (Except.ok.inj hconclude).symm⟩
    | ok text => exact ⟨text, (Except.ok.inj hconclude).symm⟩

theorem change_of_step (hstep : session.step step = .ok next) : Change session step next := by
  cases step with
  | press label =>
    change session.press label = .ok next at hstep
    unfold press at hstep
    cases hkey : Key.ofLabel? label with
    | none => exact absurd hstep (by simp [hkey])
    | some key =>
      rw [hkey] at hstep
      have hpressed := mapError_eq_ok_iff.1 hstep
      by_cases hequals : key = .equals
      · subst hequals
        obtain ⟨display, rfl⟩ := exists_display_of_conclude hpressed
        have hevaluates : (Step.press label).evaluates := beq_iff_eq.2 ((Key.eq_equals_iff hkey).2 rfl)
        exact .concluded hevaluates display
      · unfold pressKey at hpressed
        split at hpressed
        · exact absurd rfl hequals
        · obtain rfl := Except.ok.inj hpressed
          exact .typed hkey hequals
  | enter =>
    obtain ⟨display, rfl⟩ := exists_display_of_conclude (mapError_eq_ok_iff.1 hstep)
    exact .concluded rfl display
  | toggle =>
    obtain rfl := Except.ok.inj hstep
    exact .toggled
  | assign expression =>
    obtain rfl := Except.ok.inj hstep
    exact .assigned expression

/-! ### Runs -/

theorem after_of_ok (hstep : session.step step = .ok next) : session.after step = next := by
  rw [after, hstep]

theorem after_of_error {fault : StepFault} (hstep : session.step step = .error fault) : session.after step = session := by
  rw [after, hstep]

theorem run_concat (session : Session) (steps : List Step) (step : Step) :
    session.run (steps ++ [step]) = (session.run steps).after step := by
  rw [run, List.foldl_append]
  rfl

/-- What holds of a session and is kept by every change holds after every run. -/
theorem run_induction (invariant : List Step → Session → Prop) (hstart : invariant [] session)
    (hchange : ∀ steps step next, (session.run steps).step step = .ok next → Change (session.run steps) step next →
      invariant steps (session.run steps) → invariant (steps ++ [step]) next)
    (hfault : ∀ steps step fault, (session.run steps).step step = .error fault →
      invariant steps (session.run steps) → invariant (steps ++ [step]) (session.run steps)) :
    ∀ steps, invariant steps (session.run steps) := by
  intro steps
  induction steps using List.reverseRecOn with
  | nil => exact hstart
  | append_singleton steps step ih =>
    rw [run_concat]
    cases hstep : (session.run steps).step step with
    | error fault =>
      rw [after_of_error hstep]
      exact hfault steps step fault hstep ih
    | ok next =>
      rw [after_of_ok hstep]
      exact hchange steps step next hstep (change_of_step hstep) ih

end Session

end Reckoner
