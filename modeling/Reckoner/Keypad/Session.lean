import Reckoner.Binary64.Fixed
import Reckoner.Expression.Evaluation
import Reckoner.Keypad.Key
import Reckoner.Theme

/-!
# Sessions

What a calculator with a keypad remembers between keys: the expression typed so far, the text on its display, its theme
and how many decimal places it shows. A step that fails leaves all of it as it was.
-/

namespace Reckoner

structure Session where
  theme : Theme
  places : Int
  expression : String
  display : String
deriving DecidableEq

/-- Why a step cannot be done. A text that is no expression is none of the reasons: its fault is displayed. -/
inductive StepFault
  | unknownKey (label : String)
  | unwritable (fault : FixedFault)
deriving DecidableEq

/-- The explanation of a fault, where there is one. -/
def StepFault.message? : StepFault → Option String
  | unknownKey label =>
    let shown := Text.quote label
    some s!"Unknown key: {shown}"
  | unwritable fault => fault.message?

/-- One step in the use of a session: a key by its label, the ENTER key, the theme switch, or a new expression. -/
inductive Step
  | press (label : String)
  | enter
  | toggle
  | assign (expression : String)

namespace Session

/-- A session before any key is pressed. -/
def new (theme : Theme) (places : Int) : Session := ⟨theme, places, "", ""⟩

/-- An expression with a further key; a key that joins operands replaces another one at the end. -/
def extend (expression : List Char) (key : Key) : List Char :=
  if key.isJoint && expression.getLast?.any Key.isJointLabel then expression.dropLast ++ [key.label]
  else expression ++ [key.label]

/-- What evaluating the expression shows, or its fault. No expression at all stands for zero. -/
def outcome (session : Session) (limit : Nat := nestingLimit) : Except FixedFault (Except Fault String) :=
  if session.expression = "" then .ok (.ok "0")
  else match evaluate session.expression limit with
    | .error fault => .ok (.error fault)
    | .ok value => (value.fixedText session.places).map .ok

/-- Evaluates the expression and clears it; a fault is displayed in the words of `describe`. -/
def conclude (describe : Fault → String) (session : Session) (limit : Nat := nestingLimit) : Except FixedFault Session :=
  (session.outcome limit).map fun
    | .ok text => { session with display := text, expression := "" }
    | .error fault => { session with display := describe fault, expression := "" }

/-- The session with a further key in its expression, which is displayed. -/
def typeKey (key : Key) (session : Session) : Session :=
  let expression := String.ofList (extend session.expression.toList key)
  { session with expression := expression, display := expression }

/-- What a key does: `=` evaluates and explains faults, any other key extends the expression. -/
def pressKey (key : Key) (session : Session) (limit : Nat := nestingLimit) : Except FixedFault Session :=
  match key with
  | .equals => session.conclude Fault.message limit
  | key => .ok (session.typeKey key)

def press (label : String) (session : Session) (limit : Nat := nestingLimit) : Except StepFault Session :=
  match Key.ofLabel? label with
  | none => .error (.unknownKey label)
  | some key => (session.pressKey key limit).mapError .unwritable

/-- What the ENTER key does: it evaluates, and all faults look the same. -/
def enter (session : Session) (limit : Nat := nestingLimit) : Except FixedFault Session :=
  session.conclude (fun _ => "Error") limit

def toggleTheme (session : Session) : Session := { session with theme := session.theme.toggled }

def assign (expression : String) (session : Session) : Session := { session with expression := expression }

def step (session : Session) : Step → Except StepFault Session
  | .press label => session.press label
  | .enter => session.enter.mapError .unwritable
  | .toggle => .ok session.toggleTheme
  | .assign expression => .ok (session.assign expression)

/-- The session after a step, whether it could be done or not. -/
def after (session : Session) (step : Step) : Session :=
  match session.step step with
  | .ok next => next
  | .error _ => session

/-- The session after some steps. -/
def run (session : Session) (steps : List Step) : Session := steps.foldl after session

end Session

end Reckoner
