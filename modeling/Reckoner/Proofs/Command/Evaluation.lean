import Reckoner.Proofs.Binary64.Figures
import Reckoner.Proofs.Binary64.Fixed
import Reckoner.Proofs.Command.Messages
import Reckoner.Proofs.Command.Settings

/-!
# Evaluation on the command line

What evaluating an expression comes to: the settings are read first and the expression is evaluated after that, and every
value can be written with the places that can be set.
-/

namespace Reckoner

namespace Command

variable {settings other : Settings} {expression text : String} {places otherPlaces : Option Nat} {raw : Bool}
  {value : Binary64} {fault : Fault}

/-- The text of a value, as it is asked for. -/
def written (value : Binary64) (places : Nat) (raw : Bool) : Except FixedFault String :=
  if raw then .ok value.shortestText else value.fixedText places

theorem exists_written (value : Binary64) {places : Nat} (hplaces : places ≤ placesLimit) (raw : Bool) :
    ∃ text, written value places raw = .ok text := by
  unfold written
  split
  · exact ⟨_, rfl⟩
  · obtain ⟨hlow, hhigh⟩ := Settings.bounds_of_le_placesLimit hplaces
    exact value.exists_fixedText ⟨hlow, hhigh.trans (by decide)⟩

theorem isPrintable_of_mem_written {places : Nat} (htext : written value places raw = .ok text) {c : Char}
    (hc : c ∈ text.toList) : Text.isPrintable c := by
  unfold written at htext
  split at htext
  · obtain rfl := Except.ok.inj htext
    exact Binary64.isPrintable_of_mem_shortestText hc
  · exact Binary64.isPrintable_of_mem_fixedText htext hc

theorem runEvaluate_of_fault [EmojiNames] {limit : Nat} (hfault : Reckoner.evaluate expression limit = .error fault) :
    runEvaluate settings expression places raw limit = .badExpression fault := by
  rw [runEvaluate, hfault]

theorem runEvaluate_of_value [EmojiNames] {limit : Nat} (hvalue : Reckoner.evaluate expression limit = .ok value)
    (htext : written value (places.getD settings.places) raw = .ok text) :
    runEvaluate settings expression places raw limit = .success (text ++ "\n") := by
  rw [runEvaluate, hvalue]
  unfold written at htext
  dsimp only
  split at htext
  · rename_i hraw
    obtain rfl := Except.ok.inj htext
    rw [if_pos hraw]
  · rename_i hraw
    rw [if_neg hraw, htext]

/-- Of the settings, only the places matter, and only if they are used. -/
theorem runEvaluate_congr [EmojiNames] (hplaces : raw ∨ places.getD settings.places = otherPlaces.getD other.places) :
    runEvaluate settings expression places raw = runEvaluate other expression otherPlaces raw := by
  unfold runEvaluate
  rcases hplaces with hraw | hplaces
  · simp only [hraw, if_true]
  · rw [hplaces]

end Command

/-! ### How an evaluation ends -/

namespace Outcome

theorem failure_errors_ne [EmojiNames] (text : String) : (failure text).errors ≠ "" := by
  obtain ⟨line, more, hlines⟩ := List.exists_cons_of_ne_nil
    (Paragraph.lines_ne_nil terminalWidth (Markup.escape text.toList))
  change Text.joinLines _ ≠ ""
  rw [Text.joinLines, hlines, ← String.toList_inj.ne, String.toList_ofList]
  simp

/-- How a program ends that evaluates an expression in an environment: it succeeds with a line of output, or it fails
because of the first of the two variables and the expression that there is a fault of, and has no output. -/
structure EndsEvaluation [EmojiNames] (environment : String → Option String) (expression : String) (outcome : Outcome) : Prop where
  exitCode : outcome.exitCode = 0 ∨ outcome.exitCode = 1
  succeeds_iff : outcome.exitCode = 0 ↔
    Settings.Acceptable environment ∧ ∃ value, evaluate expression = .ok value
  success : outcome.exitCode = 0 →
    outcome.errors = "" ∧ ∃ line : List Char, '\n' ∉ line ∧ outcome.output = String.ofList line ++ "\n"
  failure : outcome.exitCode = 1 → outcome.output = "" ∧ outcome.errors ≠ ""
  cause : outcome.exitCode = 1 →
    (∃ fault, Settings.load environment = .error fault ∧ outcome = .badSettings fault) ∨
      ∃ fault, evaluate expression = .error fault ∧ outcome = .badExpression fault
  theme_first : ∀ fault, Settings.Rejects environment Settings.themeVariable readTheme fault →
    outcome = .badSettings fault
  places_next : Settings.Accepts environment Settings.themeVariable readTheme →
    ∀ fault, Settings.Rejects environment Settings.placesVariable readPlaces fault → outcome = .badSettings fault
  expression_last : Settings.Acceptable environment → ∀ fault, evaluate expression = .error fault →
    outcome = .badExpression fault

variable {environment : String → Option String} {expression text : String}

theorem endsEvaluation_of_bad_settings [EmojiNames] {fault : SettingFault} (hload : Settings.load environment = .error fault) :
    (badSettings fault).EndsEvaluation environment expression where
  exitCode := .inr rfl
  succeeds_iff := by
    refine ⟨fun hzero => absurd hzero Nat.one_ne_zero, fun hsettings => ?_⟩
    obtain ⟨settings, hgood⟩ := Settings.exists_load_iff.2 hsettings.1
    exact absurd (hload.symm.trans hgood) (by simp)
  success hzero := absurd hzero Nat.one_ne_zero
  failure _ := ⟨rfl, failure_errors_ne _⟩
  cause _ := .inl ⟨fault, hload, rfl⟩
  theme_first fault hfault := by
    rw [Except.error.inj (hload.symm.trans (Settings.load_of_theme_rejected hfault))]
  places_next htheme fault hfault := by
    rw [Except.error.inj (hload.symm.trans (Settings.load_of_places_rejected htheme hfault))]
  expression_last hsettings := by
    obtain ⟨settings, hgood⟩ := Settings.exists_load_iff.2 hsettings
    exact absurd (hload.symm.trans hgood) (by simp)

theorem endsEvaluation_of_fault [EmojiNames] {settings : Settings} {fault : Fault}
    (hload : Settings.load environment = .ok settings) (hfault : evaluate expression = .error fault) :
    (badExpression fault).EndsEvaluation environment expression where
  exitCode := .inr rfl
  succeeds_iff := by
    refine ⟨fun hzero => absurd hzero Nat.one_ne_zero, fun hsettings => ?_⟩
    obtain ⟨value, hvalue⟩ := hsettings.2
    exact absurd (hfault.symm.trans hvalue) (by simp)
  success hzero := absurd hzero Nat.one_ne_zero
  failure _ := ⟨rfl, failure_errors_ne _⟩
  cause _ := .inr ⟨fault, hfault, rfl⟩
  theme_first fault hfault := absurd (hload.symm.trans (Settings.load_of_theme_rejected hfault)) (by simp)
  places_next htheme fault hfault := absurd (hload.symm.trans (Settings.load_of_places_rejected htheme hfault)) (by simp)
  expression_last _ fault hother := by rw [Except.error.inj (hfault.symm.trans hother)]

theorem endsEvaluation_of_value [EmojiNames] {settings : Settings} {value : Binary64}
    (hload : Settings.load environment = .ok settings) (hvalue : evaluate expression = .ok value) (hline : '\n' ∉ text.toList) :
    (Outcome.success (text ++ "\n")).EndsEvaluation environment expression where
  exitCode := .inl rfl
  succeeds_iff := ⟨fun _ => ⟨Settings.exists_load_iff.1 ⟨settings, hload⟩, value, hvalue⟩, fun _ => rfl⟩
  success _ := ⟨rfl, text.toList, hline, by rw [String.ofList_toList]; rfl⟩
  failure hone := absurd hone Nat.zero_ne_one
  cause hone := absurd hone Nat.zero_ne_one
  theme_first fault hfault := absurd (hload.symm.trans (Settings.load_of_theme_rejected hfault)) (by simp)
  places_next htheme fault hfault := absurd (hload.symm.trans (Settings.load_of_places_rejected htheme hfault)) (by simp)
  expression_last _ fault hfault := absurd (hvalue.symm.trans hfault) (by simp)

end Outcome

section Programs

variable {arguments : List String} {environment : String → Option String} {expression : String} {places : Option Nat}
  {raw : Bool} {settings : Settings}

theorem runProgram_of_bad_settings [EmojiNames] {fault : SettingFault} {command : Command}
    (hcommand : Command.ofArguments arguments = some command) (hload : Settings.load environment = .error fault)
    (input : String) : runProgram arguments environment input = .badSettings fault := by
  rw [runProgram, hcommand]
  dsimp only
  rw [Command.run, hload]

theorem runProgram_evaluate [EmojiNames] (hcommand : Command.ofArguments arguments = some (.evaluate expression places raw))
    (hload : Settings.load environment = .ok settings) (input : String) (limit : Nat := nestingLimit) :
    runProgram arguments environment input limit = Command.runEvaluate settings expression places raw limit := by
  rw [runProgram, hcommand]
  dsimp only
  rw [Command.run, hload]

theorem runProgram_endsEvaluation [EmojiNames] (hcommand : Command.ofArguments arguments = some (.evaluate expression places raw))
    (environment : String → Option String) (input : String) :
    (runProgram arguments environment input).EndsEvaluation environment expression := by
  cases hload : Settings.load environment with
  | error fault =>
    rw [runProgram_of_bad_settings hcommand hload]
    exact Outcome.endsEvaluation_of_bad_settings hload
  | ok settings =>
    rw [runProgram_evaluate hcommand hload]
    cases hvalue : evaluate expression with
    | error fault =>
      rw [Command.runEvaluate_of_fault hvalue]
      exact Outcome.endsEvaluation_of_fault hload hvalue
    | ok value =>
      have hplaces : places.getD settings.places ≤ placesLimit := Command.getD_places_le hcommand hload
      obtain ⟨text, htext⟩ := Command.exists_written value hplaces raw
      rw [Command.runEvaluate_of_value hvalue htext]
      refine Outcome.endsEvaluation_of_value hload hvalue fun hmem => ?_
      exact (Paragraph.not_control_of_isPrintable (Command.isPrintable_of_mem_written htext hmem)).1 rfl

/-- The places that are asked for take the place of those that are set, and neither matter for a raw number. -/
theorem runProgram_congr [EmojiNames] {others : List String} {other : String → Option String} {otherPlaces : Option Nat}
    (hcommand : Command.ofArguments arguments = some (.evaluate expression places raw))
    (hothers : Command.ofArguments others = some (.evaluate expression otherPlaces raw))
    (hsettings : Settings.Acceptable environment) (hother : Settings.Acceptable other)
    (hplaces : raw ∨ places = otherPlaces ∧
      (places.isSome ∨ other Settings.placesVariable = environment Settings.placesVariable)) (input : String) :
    runProgram others other input = runProgram arguments environment input := by
  obtain ⟨settings, hload⟩ := Settings.exists_load_iff.2 hsettings
  obtain ⟨otherSettings, hotherLoad⟩ := Settings.exists_load_iff.2 hother
  rw [runProgram_evaluate hothers hotherLoad, runProgram_evaluate hcommand hload]
  refine Command.runEvaluate_congr (hplaces.imp_right ?_)
  rintro ⟨rfl, hsome | hvariable⟩
  · obtain ⟨count, rfl⟩ := Option.isSome_iff_exists.1 hsome
    rfl
  · rw [Settings.places_eq_of_load hload hotherLoad hvariable]

/-- An evaluation ends with a line of output or with the foremost fault of the settings and the expression. With bad
settings it ends in the same way whatever is evaluated; with good ones the theme does not matter, nor do the places that are
set if others are asked for, nor any places for a raw number. -/
theorem evaluation_outcome [EmojiNames] (hcommand : Command.ofArguments arguments = some (.evaluate expression places raw))
    (environment : String → Option String) (input : String) :
    let outcome := runProgram arguments environment input
    outcome.EndsEvaluation environment expression ∧
    (¬ Settings.Acceptable environment → ∀ others otherExpression otherPlaces otherRaw,
      Command.ofArguments others = some (.evaluate otherExpression otherPlaces otherRaw) →
      runProgram others environment input = outcome) ∧
    (Settings.Acceptable environment → ∀ other, Settings.Acceptable other →
      (other Settings.placesVariable = environment Settings.placesVariable →
        runProgram arguments other input = outcome) ∧
      (places.isSome → runProgram arguments other input = outcome) ∧
      (raw → ∀ others otherPlaces, Command.ofArguments others = some (.evaluate expression otherPlaces raw) →
        runProgram others other input = outcome)) := by
  refine ⟨runProgram_endsEvaluation hcommand environment input, ?_, fun hsettings other hother => ⟨?_, ?_, ?_⟩⟩
  · intro hsettings others otherExpression otherPlaces otherRaw hothers
    cases hload : Settings.load environment with
    | ok settings => exact absurd (Settings.exists_load_iff.1 ⟨settings, hload⟩) hsettings
    | error fault => rw [runProgram_of_bad_settings hothers hload, runProgram_of_bad_settings hcommand hload]
  · intro hvariable
    exact runProgram_congr hcommand hcommand hsettings hother (.inr ⟨rfl, .inr hvariable⟩) input
  · intro hsome
    exact runProgram_congr hcommand hcommand hsettings hother (.inr ⟨rfl, .inl hsome⟩) input
  · intro hraw others otherPlaces hothers
    exact runProgram_congr hcommand hothers hsettings hother (.inl hraw) input

theorem evaluation_outcome_with_places :
    let unset : String → Option String := fun _ => none
    let set : String → Option String := fun name => if name = "CALCPAD_PLACES" then some " 1_5" else none
    let outcome := runProgram ["eval", "-p2", "1/8"] unset ""
    Command.ofArguments ["eval", "-p2", "1/8"] = some (.evaluate "1/8" (some 2) false) ∧
      outcome.EndsEvaluation unset "1/8" ∧ runProgram ["eval", "-p2", "1/8"] set "" = outcome := by
  intro unset set outcome
  have hcommand : Command.ofArguments ["eval", "-p2", "1/8"] = some (.evaluate "1/8" (some 2) false) := by decide
  have hunset : Settings.Acceptable unset := Settings.exists_load_iff.1 ⟨⟨.dark, 3⟩, by decide⟩
  have hset : Settings.Acceptable set := Settings.exists_load_iff.1 ⟨⟨.dark, 15⟩, by decide⟩
  obtain ⟨hends, -, hindependent⟩ := evaluation_outcome hcommand unset ""
  exact ⟨hcommand, hends, (hindependent hunset set hset).2.1 rfl⟩

end Programs

end Reckoner
