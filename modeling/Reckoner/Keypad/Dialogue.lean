import Reckoner.Keypad.Session
import Reckoner.Text.Case
import Reckoner.Text.Lines

/-!
# Dialogues

Using a session from lines of input. A line switches the theme, stands for the ENTER key when it is blank, ends the
dialogue, or is a run of keys among characters that do not count.
-/

namespace Reckoner

/-- What a line of input asks for. -/
inductive Request
  | leave
  | toggle
  | enter
  | keys (keys : List Key)

namespace Request

def ofLine (line : List Char) : Request :=
  let word := String.ofList (Text.normalized line)
  if word = "quit" ∨ word = "exit" then leave
  else if word = "theme" then toggle
  else if word = "" then enter
  else keys (line.filterMap Key.ofChar?)

end Request

namespace Session

/-- The session after some keys. -/
def pressKeys (session : Session) (keys : List Key) : Except FixedFault Session :=
  keys.foldlM (fun session key => session.pressKey key) session

/-- The session after a request, if that does not end the dialogue. -/
def answer (session : Session) : Request → Except FixedFault (Option Session)
  | .leave => .ok none
  | .toggle => .ok (some session.toggleTheme)
  | .enter => session.enter.map some
  | .keys keys => (session.pressKeys keys).map some

end Session

/-- The course of a dialogue: the session after each line that was dealt with, and how often a line was asked for. -/
structure Dialogue where
  sessions : List Session
  reads : Nat

/-- A dialogue goes on until a line ends it, or until a further line is asked for in vain. -/
def Session.converse (session : Session) : List (List Char) → Except FixedFault Dialogue
  | [] => .ok ⟨[], 1⟩
  | line :: more => do
    match ← session.answer (.ofLine line) with
    | none => return ⟨[], 1⟩
    | some next =>
      let course ← next.converse more
      return ⟨next :: course.sessions, course.reads + 1⟩

end Reckoner
