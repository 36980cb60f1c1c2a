import Reckoner.Command.Outcome
import Reckoner.Proofs.Command.Settings
import Reckoner.Proofs.Keypad.Dialogue
import Reckoner.Proofs.Text.Lines

/-!
# Dialogues on the command line

What is written while a dialogue is held, by the course of its session: nothing but a drawing of every session and a
prompt for every line that is asked for. The places that can be set leave room for every number, so that no dialogue
breaks off.
-/

namespace Reckoner

/-- What a dialogue comes to whose input has some lines: the session is drawn before the first line and after each that
does not end the dialogue, and a prompt asks for each of these and for one more. -/
def Outcome.ofDialogue [EmojiNames] (session : Session) (lines : List (List Char)) : Outcome :=
  let handled := lines.takeWhile (!Request.isLast ·)
  ⟨0, String.join ((session.course handled).map Session.plainText),
    String.join (List.replicate (handled.length + 1) Command.prompt)⟩

namespace Command

variable {session : Session} {settings : Settings} {theme : Option String} {places : Option Nat} {chosen : Theme}

theorem runKeypad_eq [EmojiNames] (hroomy : session.Roomy) (input : String) :
    runKeypad session input = .ofDialogue session (Text.splitLines input) := by
  rw [runKeypad, Session.converse_eq hroomy, Outcome.ofDialogue]
  dsimp only
  rw [Session.cons_tail_course]

theorem openSession_eq (htheme : theme.elim (.ok settings.theme) (readTheme "--theme") = .ok chosen) :
    openSession settings theme places = .ok (.new chosen (places.getD settings.places)) := by
  cases theme with
  | none =>
    obtain rfl : settings.theme = chosen := Except.ok.inj htheme
    rfl
  | some raw =>
    have hread : readTheme "--theme" raw = .ok chosen := htheme
    simp only [openSession, hread]
    rfl

theorem run_keypad [EmojiNames] {environment : String → Option String} (hload : Settings.load environment = .ok settings)
    (htheme : theme.elim (.ok settings.theme) (readTheme "--theme") = .ok chosen)
    (hroomy : (Session.new chosen (places.getD settings.places)).Roomy) (input : String) :
    (keypad theme places).run environment input =
      .ofDialogue (.new chosen (places.getD settings.places)) (Text.splitLines input) := by
  rw [run, hload]
  dsimp only
  rw [openSession_eq htheme]
  exact runKeypad_eq hroomy input

end Command

theorem Session.roomy_new (theme : Theme) {places : Nat} (hplaces : places ≤ placesLimit) :
    (Session.new theme places).Roomy :=
  Settings.bounds_of_le_placesLimit hplaces

section Programs

variable {arguments : List String} {environment : String → Option String} {settings : Settings}
  {theme : Option String} {places : Option Nat} {chosen : Theme}

/-- Holding a dialogue is using a session. Whatever the input is, the program succeeds; it draws a new session of the
theme and places that are set, and the session after each of the lines up to one that ends the dialogue, with the keys, the
ENTER key or the theme switch that the line stands for, none of which fails; and it asks for every line that it reads, the
one that ends the dialogue or is missing among them. -/
theorem keypad_holds_dialogue [EmojiNames] (hcommand : Command.ofArguments arguments = some (.keypad theme places))
    (hload : Settings.load environment = .ok settings)
    (htheme : theme.elim (.ok settings.theme) (readTheme "--theme") = .ok chosen) (input : String) :
    ∃ lines, Text.HasLines (Text.withLineFeeds input.toList) lines ∧
      let session := Session.new chosen (places.getD settings.places)
      let steps := (lines.takeWhile (!Request.isLast ·)).flatMap Step.ofLine
      runProgram arguments environment input = .ofDialogue session lines ∧ session.done steps = steps := by
  have hplaces : places.getD settings.places ≤ placesLimit := Command.getD_places_le hcommand hload
  have hroomy := Session.roomy_new chosen hplaces
  refine ⟨Text.splitLines input, Text.hasLines_splitLines input, ?_, ?_⟩
  · rw [runProgram, hcommand]
    exact Command.run_keypad hload htheme hroomy input
  · refine Session.done_eq_self hroomy fun label hmem => ?_
    obtain ⟨line, -, hmem⟩ := List.mem_flatMap.1 hmem
    exact Session.isSome_of_mem_ofLine hmem

theorem keypad_holds_dialogue_with_blank_line :
    Command.ofArguments ["keypad", "--theme", "lite", "-p", "2"] = some (.keypad (some "lite") (some 2)) ∧
      ∃ lines, Text.HasLines (Text.withLineFeeds "1 / 8 =\r\n\n Theme\nquit\n9".toList) lines ∧
        let session := Session.new .lite 2
        let steps := (lines.takeWhile (!Request.isLast ·)).flatMap Step.ofLine
        runProgram ["keypad", "--theme", "lite", "-p", "2"] (fun _ => none) "1 / 8 =\r\n\n Theme\nquit\n9" =
          .ofDialogue session lines ∧ session.done steps = steps :=
  have hcommand : Command.ofArguments ["keypad", "--theme", "lite", "-p", "2"] = some (.keypad (some "lite") (some 2)) :=
    by decide
  have hload : Settings.load (fun _ => none) = .ok ⟨.dark, 3⟩ := by decide
  have htheme : (some "lite").elim (.ok Theme.dark) (readTheme "--theme") = .ok .lite := by decide
  ⟨hcommand, keypad_holds_dialogue hcommand hload htheme _⟩

/-- A carriage return ends a line of the input, with no line feed behind it: the lines between line feeds would not do. -/
theorem keypad_reads_line_at_carriage_return :
    ¬ ∃ lines, Text.HasLines "1\r2".toList lines ∧
      runProgram ["keypad"] (fun _ => none) "1\r2" = .ofDialogue (.new .dark 3) lines := by
  rintro ⟨lines, hlines, hrun⟩
  have hone : lines = ["1\r2".toList] := hlines.eq_splitOn.trans (by decide)
  have htwo : Text.splitLines "1\r2" = [['1'], ['2']] := by decide
  have hcommand : Command.ofArguments ["keypad"] = some (.keypad none none) := by decide
  have hload : Settings.load (fun _ => none) = .ok ⟨.dark, 3⟩ := by decide
  have hroomy := Session.roomy_new .dark (by decide : 3 ≤ placesLimit)
  have hheld : (Command.keypad none none).run (fun _ => none) "1\r2" =
      .ofDialogue (.new .dark 3) (Text.splitLines "1\r2") := Command.run_keypad hload rfl hroomy "1\r2"
  rw [runProgram, hcommand] at hrun
  have herrors := congrArg Outcome.errors (hheld.symm.trans hrun)
  rw [hone, htwo] at herrors
  exact absurd herrors (by decide)

end Programs

end Reckoner
