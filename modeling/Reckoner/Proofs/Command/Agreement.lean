import Reckoner.Proofs.Command.Evaluation
import Reckoner.Proofs.Keypad.Atomicity

/-!
# One calculator

The `=` key, the ENTER key and the command line come to the same text for the same expression; they differ in how they tell
of a fault, and the keys take no expression at all for zero.
-/

namespace Reckoner

namespace Session

variable {session : Session} {limit : Nat} {value : Binary64} {text : String} {fault : Fault}

theorem conclude_of_empty (describe : Fault → String) (limit : Nat) (hempty : session.expression = "") :
    session.conclude describe limit = .ok { session with display := "0", expression := "" } := by
  rw [conclude, outcome, if_pos hempty]
  rfl

theorem conclude_of_value (describe : Fault → String) (hsome : session.expression ≠ "")
    (hvalue : evaluate session.expression limit = .ok value) (htext : value.fixedText session.places = .ok text) :
    session.conclude describe limit = .ok { session with display := text, expression := "" } := by
  rw [conclude, outcome, if_neg hsome, hvalue]
  dsimp only
  rw [htext]
  rfl

theorem conclude_of_fault (describe : Fault → String) (hsome : session.expression ≠ "")
    (hfault : evaluate session.expression limit = .error fault) :
    session.conclude describe limit = .ok { session with display := describe fault, expression := "" } := by
  rw [conclude, outcome, if_neg hsome, hfault]
  rfl

theorem press_equals {next : Session} (hconclude : session.conclude Fault.message limit = .ok next) :
    session.press "=" limit = .ok next := by
  change (session.conclude Fault.message limit).mapError StepFault.unwritable = _
  rw [hconclude]
  rfl

end Session

namespace Command

theorem plainInteger?_toString : ∀ places < 16, Text.plainInteger? (toString (places : Nat)) = some (places : Int) := by
  decide

/-- Arguments with a number of places and, out of the way of the options, an expression. -/
theorem ofArguments_evaluate {places : Nat} (hplaces : places ≤ placesLimit) (expression : String) :
    ofArguments ["eval", "--places", toString places, "--", expression] =
      some (.evaluate expression (some places) false) := by
  have hlimit : placesLimit = 15 := rfl
  have hoption : Argument.ofText [.places, .raw] "--places" = .awaiting .places := rfl
  have hend : Argument.ofText [.places, .raw] "--" = .endOfOptions := rfl
  have harguments : Arguments.read [.places, .raw] ["--places", toString places, "--", expression] =
      some ⟨[(.places, toString places)], [expression]⟩ := by
    rw [Arguments.read, hoption]
    dsimp only
    rw [Arguments.read, hend]
    rfl
  have hrange : placesInRange? places = some places := by
    rw [placesInRange?, if_pos (by omega), Int.toNat_natCast]
  have hread : Arguments.places? ⟨[(.places, toString places)], [expression]⟩ = some (some places) := by
    change ((Text.plainInteger? (toString places)).bind placesInRange?).map some = _
    rw [plainInteger?_toString places (by omega), Option.bind_some, hrange, Option.map_some]
  change readEvaluate ["--places", toString places, "--", expression] = _
  rw [readEvaluate, harguments, Option.bind_eq_bind, Option.bind_some, hread]
  rfl

end Command

/-- How much nesting there is room for in an expression: where it is evaluated by itself, by the `=` key, by the ENTER key, and
among the arguments of the program. -/
structure Room where
  itself : Nat
  equals : Nat
  enter : Nat
  program : Nat

section Programs

variable {environment : String → Option String} {settings : Settings} {session : Session} {expression : String}
  {places : Nat}

/-- The error output with one text, which is wrapped to the width of the terminal. -/
def Outcome.reporting (text : String) : Outcome := ⟨1, "", Text.joinLines (Text.wrap 80 text.toList)⟩

/-- An expression comes to the same whether it is in a session in which the `=` key or the ENTER key is pressed, or among
the arguments of the program with the places of the session: to the text of its value, or to its fault, which the `=` key
shows, the ENTER key passes over, and the program reports. Each of them only takes an expression for too deep by itself that nests
more deeply than it has room for, and tells of the opening with which it finds that. Only for no expression at all the keys show
what is not its value. -/
theorem front_ends_agree [EmojiNames] (hload : Settings.load environment = .ok settings) (hplaces : places ≤ 15)
    (hsession : session.places = places) (hsome : expression ≠ "") (input : String) (room : Room) :
    let peak := nestingPeak expression
    let showing (text : String) : Session := { session with expression := "", display := text }
    let pressed := (session.assign expression).press "=" room.equals
    let entered := (session.assign expression).enter room.enter
    let program := runProgram ["eval", "--places", toString places, "--", expression] environment input room.program
    (∀ value, evaluate expression room.itself = .ok value → ∃ text, value.fixedText places = .ok text ∧
      (peak ≤ room.equals → pressed = .ok (showing text)) ∧
      (peak ≤ room.enter → entered = .ok (showing text)) ∧
      (peak ≤ room.program → program = ⟨0, text ++ "\n", ""⟩)) ∧
    (∀ fault, evaluate expression room.itself = .error fault → (∀ opened found, fault ≠ .tooDeep opened found) →
      (peak ≤ room.equals → pressed = .ok (showing fault.message)) ∧
      (peak ≤ room.enter → entered = .ok (showing "Error")) ∧
      (peak ≤ room.program → program = .reporting (fault.kind.name ++ ": " ++ fault.message))) ∧
    (room.equals < peak → ∃ opened, ExceedsAt room.equals expression opened ∧
      pressed = .ok (showing ("Expression nested too deeply at position " ++ toString (opened + 1)))) ∧
    (room.enter < peak → entered = .ok (showing "Error")) ∧
    (room.program < peak → ∃ opened, ExceedsAt room.program expression opened ∧
      program = .reporting ("unexpected-character: Expression nested too deeply at position " ++ toString (opened + 1))) ∧
    evaluate "" room.itself = .error (.missingOperand 0 none) ∧
    (session.assign "").press "=" room.equals = .ok (showing "0") ∧
    (session.assign "").enter room.enter = .ok (showing "0") := by
  intro peak showing pressed entered program
  have hcommand := Command.ofArguments_evaluate hplaces expression
  have hprogram : program = Command.runEvaluate settings expression (some places) false room.program :=
    runProgram_evaluate hcommand hload input room.program
  -- what each of them does with the outcome of its own evaluation
  have hpressed {fault : Fault} (hfault : evaluate expression room.equals = .error fault) :
      pressed = .ok (showing fault.message) :=
    Session.press_equals (Session.conclude_of_fault Fault.message hsome hfault)
  have hentered {fault : Fault} (hfault : evaluate expression room.enter = .error fault) :
      entered = .ok (showing "Error") := Session.conclude_of_fault (fun _ => "Error") hsome hfault
  have hreported {fault : Fault} (hfault : evaluate expression room.program = .error fault) :
      program = .reporting (fault.kind.name ++ ": " ++ fault.message) := by
    rw [hprogram, Command.runEvaluate_of_fault hfault]
    exact Outcome.badExpression_eq hfault
  refine ⟨fun value hvalue => ?_, fun fault hfault hdeep => ?_, fun hpeak => ?_, fun hpeak => ?_, fun hpeak => ?_, ?_, ?_, ?_⟩
  · obtain ⟨text, htext⟩ := Command.exists_written value hplaces false
    have hshown : value.fixedText (session.assign expression).places = .ok text := hsession ▸ htext
    have hfree := evaluateUnlimited_of_ok hvalue
    refine ⟨text, htext, fun hpeak => ?_, fun hpeak => ?_, fun hpeak => ?_⟩
    · exact Session.press_equals (Session.conclude_of_value Fault.message hsome ((evaluate_eq hpeak).trans hfree) hshown)
    · exact Session.conclude_of_value (fun _ => "Error") hsome ((evaluate_eq hpeak).trans hfree) hshown
    · rw [hprogram]
      exact Command.runEvaluate_of_value ((evaluate_eq hpeak).trans hfree) htext
  · have hfree : evaluateUnlimited expression = .error fault := by
      rw [evaluateUnlimited_eq fun opened found => by
        rw [hfault]
        exact fun htooDeep => hdeep opened found (Except.error.inj htooDeep), hfault]
    exact ⟨fun hpeak => hpressed ((evaluate_eq hpeak).trans hfree), fun hpeak => hentered ((evaluate_eq hpeak).trans hfree),
      fun hpeak => hreported ((evaluate_eq hpeak).trans hfree)⟩
  · obtain ⟨opened, hexceeds, htooDeep⟩ := exists_evaluate_tooDeep hpeak
    exact ⟨opened, hexceeds, hpressed htooDeep⟩
  · obtain ⟨opened, -, htooDeep⟩ := exists_evaluate_tooDeep hpeak
    exact hentered htooDeep
  · obtain ⟨opened, hexceeds, htooDeep⟩ := exists_evaluate_tooDeep hpeak
    refine ⟨opened, hexceeds, (hreported htooDeep).trans ?_⟩
    change Outcome.reporting ("unexpected-character" ++ ": " ++ ("Expression nested too deeply at position " ++ _)) = _
    rw [← String.append_assoc]
    rfl
  · exact evaluate_eq_error_iff.2 ⟨rfl, rfl⟩
  · exact Session.press_equals (Session.conclude_of_empty Fault.message room.equals rfl)
  · exact Session.conclude_of_empty (fun _ => "Error") room.enter rfl

theorem front_ends_agree_bracket :
    let session : Session := ⟨.lite, 2, "", "7"⟩
    let typed := session.assign "2/[a]"
    let program := runProgram ["eval", "--places", "2", "--", "2/[a]"] (fun _ => none) "" 990
    Settings.load (fun _ => none) = .ok ⟨.dark, 3⟩ ∧ 2 ≤ 15 ∧ session.places = (2 : Nat) ∧ "2/[a]" ≠ "" ∧
      typed.press "=" 998 = .ok { session with expression := "", display := "Unexpected: '[' at position 2" } ∧
      typed.enter 998 = .ok { session with expression := "", display := "Error" } ∧
      program = ⟨1, "", "unexpected-character: Unexpected: '[' at position 2\n"⟩ := by
  intro session typed program
  have hload : Settings.load (fun _ => none) = .ok ⟨.dark, 3⟩ := by decide
  have hplaces : session.places = (2 : Nat) := rfl
  have hsome : "2/[a]" ≠ "" := by decide
  have hfault : evaluate "2/[a]" = .error (.unexpected 2 '[') := evaluate_eq_error_iff.2 ⟨rfl, rfl⟩
  obtain ⟨-, hfaults, -⟩ := front_ends_agree hload (by decide) hplaces hsome "" ⟨nestingLimit, 998, 998, 990⟩
  obtain ⟨hpress, henter, hprogram⟩ := hfaults _ hfault nofun
  refine ⟨hload, by decide, hplaces, hsome, hpress (by decide), henter (by decide), (hprogram (by decide)).trans ?_⟩
  decide

/-- Where the `=` key leaves less room for nesting than there is for an expression by itself, it tells of another opening. -/
theorem press_equals_ne_message :
    let text := String.ofList (List.replicate 400 '(' ++ [])
    evaluate text 1000 = .error (.tooDeep 333 (some '(')) ∧
      (Fault.tooDeep 333 (some '(')).message = "Expression nested too deeply at position 334" ∧
      Session.press "=" ⟨.dark, 3, text, ""⟩ 998 = .ok ⟨.dark, 3, "", "Expression nested too deeply at position 333"⟩ := by
  have hpress (text : String) (hsome : text ≠ "") (hfault : evaluate text 998 = .error (.tooDeep 332 (some '('))) :
      Session.press "=" ⟨.dark, 3, text, ""⟩ 998 = .ok ⟨.dark, 3, "", (Fault.tooDeep 332 (some '(')).message⟩ :=
    Session.press_equals (Session.conclude_of_fault Fault.message hsome hfault)
  have hsome (c : Char) (rest : List Char) : String.ofList (c :: rest) ≠ "" := by
    rw [ne_eq, ← String.toList_inj, String.toList_ofList]
    exact List.cons_ne_nil c rest
  exact ⟨evaluate_openings (by decide) [], by decide, hpress _ (hsome _ _) (evaluate_openings (by decide) [])⟩

end Programs

end Reckoner
