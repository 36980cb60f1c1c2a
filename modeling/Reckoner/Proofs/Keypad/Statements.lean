import Reckoner.Proofs.Binary64.Limits
import Reckoner.Proofs.Keypad.Steps

/-!
# Steps as sequences of statements

A step read as statements that assign one part of a session after another. Statements can be interrupted, and what has been
assigned before an interruption stays assigned. Faults of the expression interrupt like the others, but are caught where
they are displayed. Run on a session, the statements do what the step does; so no interruption comes behind an assignment.
-/

namespace Reckoner

/-- What interrupts statements: a fault of the expression, or one of the step. -/
inductive Interruption
  | expression (fault : Fault)
  | step (fault : StepFault)

/-- Statements on a session. Their result is that of the last one, unless they are interrupted. -/
abbrev Statements (α : Type) := ExceptT Interruption (StateM Session) α

namespace Statements

def assignDisplay (text : String) : Statements Unit := modify fun session => { session with display := text }

def assignExpression (text : String) : Statements Unit := modify fun session => { session with expression := text }

def assignTheme (theme : Theme) : Statements Unit := modify fun session => { session with theme := theme }

/-- What the expression comes to, as text. -/
def evaluateExpression : Statements String := do
  let session ← get
  if session.expression = "" then return "0"
  match evaluate session.expression with
  | .error fault => throw (.expression fault)
  | .ok value =>
    match value.fixedText session.places with
    | .error fault => throw (.step (.unwritable fault))
    | .ok text => return text

/-- Displays a fault of the expression, and lets others pass. -/
def displayFault (describe : Fault → String) : Interruption → Statements Unit
  | .expression fault => assignDisplay (describe fault)
  | .step fault => throw (.step fault)

/-- Displays what the expression comes to, or its fault, and then clears it. -/
def conclude (describe : Fault → String) : Statements Unit := do
  tryCatch (do assignDisplay (← evaluateExpression)) (displayFault describe)
  assignExpression ""

/-- Takes away a joint at the end that the key replaces. -/
def dropReplaced (key : Key) : Statements Unit := do
  let text := (← get).expression.toList
  if key.isJoint && text.getLast?.any Key.isJointLabel then assignExpression (.ofList text.dropLast)

/-- Puts the label of a key in its place, and displays the expression. -/
def typeKey (key : Key) : Statements Unit := do
  dropReplaced key
  assignExpression (.ofList ((← get).expression.toList ++ [key.label]))
  assignDisplay (← get).expression

def pressKey : Key → Statements Unit
  | .equals => conclude Fault.message
  | key => typeKey key

def press (label : String) : Statements Unit :=
  match Key.ofLabel? label with
  | none => throw (.step (.unknownKey label))
  | some key => pressKey key

def toggle : Statements Unit := do assignTheme (← get).theme.toggled

def perform : Step → Statements Unit
  | .press label => press label
  | .enter => conclude fun _ => "Error"
  | .toggle => toggle
  | .assign expression => assignExpression expression

/-- How statements end on a session, and what they leave of it. -/
def on {α : Type} (statements : Statements α) (session : Session) : Except Interruption α × Session :=
  statements.run.run session

section Running

variable {α β : Type} {session next : Session}

theorem on_bind_of_ok {first : Statements α} (rest : α → Statements β) {result : α}
    (hfirst : first.on session = (.ok result, next)) : (first >>= rest).on session = (rest result).on next := by
  change ExceptT.bindCont rest (first.on session).1 (first.on session).2 = _
  rw [hfirst]
  rfl

theorem on_bind_of_error {first : Statements α} (rest : α → Statements β) {interruption : Interruption}
    (hfirst : first.on session = (.error interruption, next)) :
    (first >>= rest).on session = (.error interruption, next) := by
  change ExceptT.bindCont rest (first.on session).1 (first.on session).2 = _
  rw [hfirst]
  rfl

/-- What is caught has kept its assignments. -/
theorem on_tryCatch_of_error {statements : Statements α} {rescue : Interruption → Statements α}
    {interruption : Interruption} (hstatements : statements.on session = (.error interruption, next)) :
    (tryCatch statements rescue).on session = (rescue interruption).on next := by
  rw [on, ExceptT.run_tryCatch, StateT.run_bind, ← on, hstatements]
  rfl

theorem on_tryCatch_of_ok {statements : Statements α} {rescue : Interruption → Statements α} {result : α}
    (hstatements : statements.on session = (.ok result, next)) :
    (tryCatch statements rescue).on session = (.ok result, next) := by
  rw [on, ExceptT.run_tryCatch, StateT.run_bind, ← on, hstatements]
  rfl

end Running

/-! ### What the statements of a step do -/

section Steps

variable {session : Session}

/-- An end that has left all of a step done or nothing. -/
def whole (session : Session) : Except StepFault Session → Except Interruption Unit × Session
  | .ok next => (.ok (), next)
  | .error fault => (.error (.step fault), session)

/-- How an evaluation ends that has come to some outcome. -/
def ended : Except FixedFault (Except Fault String) → Except Interruption String
  | .ok (.ok text) => .ok text
  | .ok (.error fault) => .error (.expression fault)
  | .error fault => .error (.step (.unwritable fault))

theorem on_evaluateExpression (session : Session) :
    evaluateExpression.on session = (ended session.outcome, session) := by
  unfold Session.outcome
  change (if session.expression = "" then pure "0" else _ : Statements String).on session = _
  split
  · rfl
  · cases hvalue : evaluate session.expression with
    | error fault => rfl
    | ok value =>
      dsimp only
      cases value.fixedText session.places <;> rfl

/-- The display and the expression are assigned when nothing can interrupt any more. -/
theorem on_conclude (describe : Fault → String) (session : Session) :
    (conclude describe).on session = whole session ((session.conclude describe).mapError .unwritable) := by
  have hevaluated := on_evaluateExpression session
  unfold Session.conclude
  cases houtcome : session.outcome with
  | error fault =>
    rw [houtcome] at hevaluated
    have hdisplayed := on_bind_of_error assignDisplay hevaluated
    exact on_bind_of_error _ (on_tryCatch_of_error hdisplayed)
  | ok shown =>
    rw [houtcome] at hevaluated
    cases shown with
    | error fault =>
      have hdisplayed := on_bind_of_error assignDisplay hevaluated
      have hcaught : (displayFault describe (.expression fault)).on session =
        (.ok (), { session with display := describe fault }) := rfl
      exact on_bind_of_ok _ ((on_tryCatch_of_error hdisplayed).trans hcaught)
    | ok text =>
      have hdisplayed := on_bind_of_ok assignDisplay hevaluated
      exact on_bind_of_ok _ (on_tryCatch_of_ok hdisplayed)

theorem on_dropReplaced (key : Key) (session : Session) : (dropReplaced key).on session =
    (.ok (), if key.isJoint && session.expression.toList.getLast?.any Key.isJointLabel then
      { session with expression := String.ofList session.expression.toList.dropLast } else session) := by
  have hread : (get : Statements Session).on session = (.ok session, session) := rfl
  rw [dropReplaced, on_bind_of_ok _ hread]
  dsimp only
  split <;> rfl

theorem on_typeKey (key : Key) (session : Session) : (typeKey key).on session = (.ok (), session.typeKey key) := by
  have hdropped := on_dropReplaced key session
  rw [typeKey, on_bind_of_ok _ hdropped, Session.typeKey, Session.extend]
  split
  · change (Except.ok (), { session with
      expression := String.ofList ((String.ofList session.expression.toList.dropLast).toList ++ [key.label]),
      display := String.ofList ((String.ofList session.expression.toList.dropLast).toList ++ [key.label]) }) = _
    rw [String.toList_ofList]
  · rfl

theorem on_pressKey (key : Key) (session : Session) :
    (pressKey key).on session = whole session ((session.pressKey key).mapError .unwritable) := by
  cases key with
  | equals => exact on_conclude Fault.message session
  | digit => exact on_typeKey _ session
  | point => exact on_typeKey _ session
  | operator => exact on_typeKey _ session

/-- The statements of a step do all that the step does, or nothing. -/
theorem on_perform (step : Step) (session : Session) : (perform step).on session = whole session (session.step step) := by
  cases step with
  | press label =>
    change (press label).on session = whole session (session.press label)
    unfold press Session.press
    cases Key.ofLabel? label with
    | none => rfl
    | some key => exact on_pressKey key session
  | enter => exact on_conclude (fun _ => "Error") session
  | toggle => rfl
  | assign expression => rfl

end Steps

end Statements

end Reckoner
