import Mathlib.Logic.Function.Iterate
import Reckoner.Proofs.Keypad.Steps
import Reckoner.Screen.Drawing

/-!
# Themes and calculations

No step reads the theme, and only the theme switch changes it. So sessions that differ in nothing but their themes do the
same, wherever the switch is used between their steps, and are drawn the same up to the caption.
-/

namespace Reckoner

def Step.isToggle : Step → Bool
  | toggle => true
  | _ => false

/-- What a step that could be done answers. -/
inductive Reply
  | display (text : String)
  | theme (theme : Theme)
  | nothing

/-- A step with its answer or fault, and the expression and the display after it. -/
structure Entry where
  step : Step
  reply : Except StepFault Reply
  expression : String
  display : String

namespace Session

/-- Keys answer the display, and the switch answers the theme. -/
def reply (session : Session) (step : Step) : Except StepFault Reply :=
  (session.step step).map fun next =>
    match step with
    | .press _ | .enter => .display next.display
    | .toggle => .theme next.theme
    | .assign _ => .nothing

def entry (session : Session) (step : Step) : Entry :=
  ⟨step, session.reply step, (session.after step).expression, (session.after step).display⟩

def transcript (session : Session) : List Step → List Entry
  | [] => []
  | step :: more => session.entry step :: (session.after step).transcript more

/-- Sessions that are the same but for their themes. -/
structure Alike (left right : Session) : Prop where
  places_eq : left.places = right.places
  expression_eq : left.expression = right.expression
  display_eq : left.display = right.display

def inTheme (theme : Theme) (session : Session) : Session := { session with theme := theme }

variable {session left right : Session} {step : Step} {steps : List Step}

/-! ### One step -/

theorem conclude_inTheme (describe : Fault → String) (theme : Theme) (session : Session) :
    (session.inTheme theme).conclude describe = (session.conclude describe).map (inTheme theme) := by
  change (session.outcome).map _ = _
  unfold conclude
  cases session.outcome with
  | error fault => rfl
  | ok shown => cases shown <;> rfl

theorem pressKey_inTheme (key : Key) (theme : Theme) (session : Session) :
    (session.inTheme theme).pressKey key = (session.pressKey key).map (inTheme theme) := by
  cases key with
  | equals => exact conclude_inTheme Fault.message theme session
  | digit => rfl
  | point => rfl
  | operator => rfl

/-- Apart from the switch a step does in every theme the same. -/
theorem step_inTheme (hstep : step.isToggle = false) (theme : Theme) (session : Session) :
    (session.inTheme theme).step step = (session.step step).map (inTheme theme) := by
  cases step with
  | press label =>
    change (session.inTheme theme).press label = (session.press label).map (inTheme theme)
    unfold press
    cases Key.ofLabel? label with
    | none => rfl
    | some key =>
      dsimp only
      rw [pressKey_inTheme]
      cases session.pressKey key <;> rfl
  | enter =>
    change ((session.inTheme theme).conclude _).mapError _ = ((session.conclude _).mapError _).map (inTheme theme)
    rw [conclude_inTheme]
    cases session.conclude _ <;> rfl
  | toggle => exact absurd hstep (by simp [Step.isToggle])
  | assign expression => rfl

theorem after_inTheme (hstep : step.isToggle = false) (theme : Theme) (session : Session) :
    (session.inTheme theme).after step = (session.after step).inTheme theme := by
  unfold after
  rw [step_inTheme hstep]
  cases session.step step <;> rfl

theorem entry_inTheme (hstep : step.isToggle = false) (theme : Theme) (session : Session) :
    (session.inTheme theme).entry step = session.entry step := by
  unfold entry reply
  rw [step_inTheme hstep, after_inTheme hstep]
  cases step with
  | toggle => exact absurd hstep (by simp [Step.isToggle])
  | _ => cases session.step _ <;> rfl

theorem theme_after (session : Session) (step : Step) :
    (session.after step).theme = if step.isToggle then session.theme.toggled else session.theme := by
  cases hstep : session.step step with
  | error fault =>
    rw [after_of_error hstep]
    cases step with
    | toggle => exact absurd hstep (by simp [Session.step])
    | _ => rfl
  | ok next =>
    rw [after_of_ok hstep]
    cases change_of_step hstep with
    | typed => rfl
    | concluded hevaluates =>
      cases step with
      | toggle => exact absurd hevaluates (by simp [Step.evaluates])
      | _ => rfl
    | toggled => rfl
    | assigned => rfl

namespace Alike

theorem refl (session : Session) : session.Alike session := ⟨rfl, rfl, rfl⟩

theorem symm (halike : left.Alike right) : right.Alike left :=
  ⟨halike.places_eq.symm, halike.expression_eq.symm, halike.display_eq.symm⟩

theorem trans {other : Session} (halike : left.Alike right) (hother : right.Alike other) : left.Alike other :=
  ⟨halike.places_eq.trans hother.places_eq, halike.expression_eq.trans hother.expression_eq,
    halike.display_eq.trans hother.display_eq⟩

theorem eq_inTheme (halike : left.Alike right) : right = left.inTheme right.theme := by
  obtain ⟨hplaces, hexpression, hdisplay⟩ := halike
  cases right
  rw [inTheme, hplaces, hexpression, hdisplay]

theorem toggled_left (halike : left.Alike right) : (left.after .toggle).Alike right := ⟨halike.1, halike.2, halike.3⟩

theorem after (halike : left.Alike right) (step : Step) : (left.after step).Alike (right.after step) := by
  cases hstep : step.isToggle with
  | false =>
    rw [halike.eq_inTheme, after_inTheme hstep]
    exact ⟨rfl, rfl, rfl⟩
  | true =>
    cases step with
    | toggle => exact halike.toggled_left.symm.toggled_left.symm
    | _ => exact absurd hstep (by simp [Step.isToggle])

theorem entry_eq (halike : left.Alike right) (hstep : step.isToggle = false) : left.entry step = right.entry step := by
  rw [halike.eq_inTheme, entry_inTheme hstep]

/-! ### Runs -/

theorem run (halike : left.Alike right) (steps : List Step) : (left.run steps).Alike (right.run steps) := by
  induction steps generalizing left right with
  | nil => exact halike
  | cons step more ih => exact ih (halike.after step)

/-- A run comes to the same without the switch. -/
theorem run_filter (halike : left.Alike right) (steps : List Step) :
    (left.run steps).Alike (right.run (steps.filter (!·.isToggle))) := by
  induction steps generalizing left right with
  | nil => exact halike
  | cons step more ih =>
    cases step with
    | toggle => exact ih halike.toggled_left
    | _ => exact ih (halike.after _)

/-- Leaving out the switch leaves out its entries, and changes no other one. -/
theorem transcript_filter (halike : left.Alike right) (steps : List Step) :
    (left.transcript steps).filter (!·.step.isToggle) = right.transcript (steps.filter (!·.isToggle)) := by
  induction steps generalizing left right with
  | nil => rfl
  | cons step more ih =>
    rw [transcript]
    cases hstep : step.isToggle with
    | true =>
      obtain rfl : step = .toggle := by
        cases step <;> first | rfl | exact absurd hstep (by simp [Step.isToggle])
      rw [List.filter_cons_of_neg (by simp [entry, hstep]), List.filter_cons_of_neg (by simp [hstep])]
      exact ih halike.toggled_left
    | false =>
      rw [List.filter_cons_of_pos (by simp [entry, hstep]), List.filter_cons_of_pos (by simp [hstep]), transcript,
        halike.entry_eq hstep, ih (halike.after step)]

end Alike

theorem theme_run (session : Session) (steps : List Step) :
    (session.run steps).theme = Theme.toggled^[steps.countP Step.isToggle] session.theme := by
  induction steps generalizing session with
  | nil => rfl
  | cons step more ih =>
    change ((session.after step).run more).theme = _
    rw [ih, theme_after]
    cases hstep : step.isToggle with
    | true => rw [List.countP_cons_of_pos hstep, if_pos rfl, Function.iterate_succ_apply]
    | false => rw [List.countP_cons_of_neg (by simp [hstep]), if_neg Bool.false_ne_true]

end Session

/-! ### Drawings -/

namespace Drawing

/-- The lines of the box, which has the same characters in any theme. -/
def keypad : List (List Char) := [
  "┌───────┬───────┬───────┬───────┐",
  "│   7   │   8   │   9   │   /   │",
  "├───────┼───────┼───────┼───────┤",
  "│   4   │   5   │   6   │   *   │",
  "├───────┼───────┼───────┼───────┤",
  "│   1   │   2   │   3   │   -   │",
  "├───────┼───────┼───────┼───────┤",
  "│   0   │   .   │   =   │   +   │",
  "└───────┴───────┴───────┴───────┘"].map String.toList

theorem plain_box (session : Session) : session.table.box.map Line.plain = keypad := by
  have hlines (lines : List (List Char)) : lines = (lines.map String.ofList).map String.toList := by
    simp [Function.comp_def]
  have hnew (theme : Theme) : (Session.new theme 0).table.box.map Line.plain = keypad := by
    cases theme <;> exact hlines ((Session.new .dark 0).table.box.map Line.plain)
  exact hnew session.theme

variable [EmojiNames]

theorem captionLines_eq (theme : Theme) : Table.captionLines width (captionText theme) = [caption theme] := by
  cases theme <;> rfl

/-- The lines of a drawing above its caption. -/
def upper (display : String) : List (List Char) := [] :: (title display ++ keypad)

theorem plainText_eq (session : Session) :
    session.plainText = Text.joinLines (upper session.display ++ [caption session.theme]) := by
  have huniform (style : Style) (text : List Char) : (Line.uniform style text).plain = text := List.flatMap_singleton _ _
  have hlines : session.table.lines.map Line.plain = title session.display ++ keypad ++ [caption session.theme] := by
    rw [← plain_box session, ← captionLines_eq]
    simp [Table.lines, huniform, Function.comp_def]
    rfl
  rw [Session.plainText, Session.draw, Text.joinLines, upper, List.cons_append, List.flatMap_cons, ← hlines, List.flatMap_map]
  rfl

end Drawing

namespace Session

/-- Sessions that differ in nothing but their themes stay so after every step. Apart from the switch all of their steps have
the same answers or faults and leave the same expressions and displays, however often the switch is used between them, and
the theme has then been switched as often. The drawings differ at most in their captions. -/
theorem alike_regardless_of_theme [EmojiNames] (left right : Session) (steps others : List Step) (halike : left.Alike right)
    (hothers : steps.filter (!·.isToggle) = others.filter (!·.isToggle)) :
    (∀ count, (left.run (steps.take count)).Alike (right.run (steps.take count))) ∧
    (left.run steps).Alike (right.run others) ∧
    (left.transcript steps).filter (!·.step.isToggle) = (right.transcript others).filter (!·.step.isToggle) ∧
    (left.run steps).theme = Theme.toggled^[steps.countP Step.isToggle] left.theme ∧
    ∃ lines,
      (left.run steps).plainText = Text.joinLines (lines ++ [Drawing.caption (left.run steps).theme]) ∧
      (right.run others).plainText = Text.joinLines (lines ++ [Drawing.caption (right.run others).theme]) := by
  have hends : (left.run steps).Alike (right.run others) := by
    have hleft := halike.run_filter steps
    rw [hothers] at hleft
    exact hleft.trans ((Alike.refl right).run_filter others).symm
  refine ⟨fun count => halike.run _, hends, ?_, left.theme_run steps, Drawing.upper (left.run steps).display, ?_, ?_⟩
  · rw [halike.transcript_filter, hothers, (Alike.refl right).transcript_filter]
  · exact Drawing.plainText_eq _
  · rw [hends.display_eq]
    exact Drawing.plainText_eq _

/-- Among the steps are one that fails and one that evaluates. -/
theorem alike_regardless_of_theme_switched :
    let left : Session := ⟨.dark, 3, "1/", ""⟩
    let right : Session := ⟨.lite, 3, "1/", ""⟩
    let steps := [.press "3", .toggle, .press "x", .enter]
    let others := [.toggle, .press "3", .press "x", .toggle, .enter, .toggle]
    left.Alike right ∧ steps.filter (!·.isToggle) = others.filter (!·.isToggle) ∧
      (left.run steps).Alike (right.run others) ∧
      (left.transcript steps).filter (!·.step.isToggle) = (right.transcript others).filter (!·.step.isToggle) ∧
      (left.run steps).theme = Theme.toggled^[1] .dark := by
  intro left right steps others
  have halike : left.Alike right := ⟨rfl, rfl, rfl⟩
  obtain ⟨-, hends, htranscripts, htheme, -⟩ := alike_regardless_of_theme left right steps others halike rfl
  exact ⟨halike, rfl, hends, htranscripts, htheme⟩

end Session

end Reckoner
