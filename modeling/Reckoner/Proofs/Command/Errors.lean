import Reckoner.Proofs.Command.Dialogue
import Reckoner.Proofs.Command.Evaluation
import Reckoner.Proofs.Command.Readers
import Reckoner.Proofs.Text.Spaces

/-!
# The error output

Whatever the expression, the variables and the theme option hold, an error comes out on lines of printing characters that are
no longer than the terminal is wide, with no word cut that fits on a line. No more than one kind of character can be missing
of the text of the error: a backslash right before an opening bracket that belongs to no tag, which the mark-up that the text
is escaped for takes for its own. Nor does escaping keep the console from showing an emoji for its name. The faults of
expressions have no such backslash and no such name.
-/

namespace Reckoner

open Text

/-! ### Texts of errors -/

/-- The texts that a command reports when it fails in an environment, each with what it says first. -/
inductive ErrorText (environment : String → Option String) : Command → String → Prop
  | settings {command : Command} {fault : SettingFault} (hload : Settings.load environment = .error fault) :
      ErrorText environment command ("Invalid configuration: " ++ fault.message)
  | theme {raw : String} {places : Option Nat} {settings : Settings} {fault : SettingFault}
      (hload : Settings.load environment = .ok settings) (hfault : readTheme "--theme" raw = .error fault) :
      ErrorText environment (.keypad (some raw) places) fault.message
  | expression {expression : String} {places : Option Nat} {raw : Bool} {settings : Settings} {fault : Fault}
      (hload : Settings.load environment = .ok settings) (hfault : evaluate expression = .error fault) :
      ErrorText environment (.evaluate expression places raw) (fault.kind.name ++ ": " ++ fault.message)

/-- A command has one error in an environment: the settings come first, and with good settings each command has one cause. -/
theorem ErrorText.unique {environment : String → Option String} {command : Command} {left right : String}
    (hleft : ErrorText environment command left) (hright : ErrorText environment command right) : left = right := by
  cases hleft with
  | settings hload =>
    cases hright with
    | settings hother => rw [Except.error.inj (hload.symm.trans hother)]
    | theme hother _ => exact absurd (hload.symm.trans hother) (by simp)
    | expression hother _ => exact absurd (hload.symm.trans hother) (by simp)
  | theme hload hfault =>
    cases hright with
    | settings hother => exact absurd (hload.symm.trans hother) (by simp)
    | theme _ hother => rw [Except.error.inj (hfault.symm.trans hother)]
  | expression hload hfault =>
    cases hright with
    | settings hother => exact absurd (hload.symm.trans hother) (by simp)
    | expression _ hother => rw [Except.error.inj (hfault.symm.trans hother)]

/-- Printing characters of which the first is no space. -/
structure Reportable (cs : List Char) : Prop where
  printable : ∀ c ∈ cs, isPrintable c
  head_ne_space : cs.head? ≠ some ' '

namespace Reportable

variable {cs more : List Char}

theorem head_not_isBlank (hcs : Reportable cs) : ∀ c ∈ cs.head?, isBlank c = false := by
  intro c hc
  rw [Bool.eq_false_iff]
  intro hblank
  rw [eq_space_of_isBlank hblank (hcs.printable c (List.mem_of_mem_head? hc))] at hc
  exact hcs.head_ne_space hc

theorem append (hcs : cs.all isPrintable) (hhead : cs.head? ≠ some ' ') (hsome : cs ≠ []) (hmore : ∀ c ∈ more, isPrintable c) :
    Reportable (cs ++ more) where
  printable := List.forall_mem_append.2 ⟨List.all_eq_true.1 hcs, hmore⟩
  head_ne_space := by rwa [List.head?_append_of_ne_nil _ hsome]

/-- Leaving out backslashes that stand right before brackets does not bring a space to the front. -/
theorem withoutLoneSlashes (hcs : Reportable cs) : Reportable (Markup.withoutLoneSlashes cs) where
  printable c hc := hcs.printable c ((Markup.withoutLoneSlashes_sublist cs).subset hc)
  head_ne_space := by
    rcases Markup.head?_withoutLoneSlashes cs with hhead | hbracket
    · rw [hhead]
      exact hcs.head_ne_space
    · rw [hbracket]
      decide

end Reportable

namespace SettingFault

/-- What the setting was read from. -/
def source : SettingFault → String
  | notInteger source _ => source
  | outOfRange source _ => source
  | noTheme source _ => source

variable {fault : SettingFault} {raw : String}

theorem source_of_readTheme {source : String} (hfault : readTheme source raw = .error fault) : fault.source = source := by
  unfold readTheme at hfault
  split at hfault
  · exact absurd hfault (by simp)
  · rw [← Except.error.inj hfault, SettingFault.source]

theorem source_of_readPlaces {source : String} (hfault : readPlaces source raw = .error fault) : fault.source = source := by
  unfold readPlaces at hfault
  split at hfault
  · rw [← Except.error.inj hfault, SettingFault.source]
  · split at hfault
    · rw [← Except.error.inj hfault, SettingFault.source]
    · exact absurd hfault (by simp)

theorem source_of_load {environment : String → Option String} (hfault : Settings.load environment = .error fault) :
    fault.source = Settings.themeVariable ∨ fault.source = Settings.placesVariable := by
  rw [Settings.load_eq] at hfault
  rcases bind_eq_error_iff.1 hfault with htheme | ⟨theme, -, hrest⟩
  · obtain ⟨raw, -, -, hread⟩ := Settings.chosen_eq_error_iff.1 htheme
    exact .inl (source_of_readTheme hread)
  · rcases bind_eq_error_iff.1 hrest with hplaces | ⟨places, -, hreturn⟩
    · obtain ⟨raw, -, -, hread⟩ := Settings.chosen_eq_error_iff.1 hplaces
      exact .inr (source_of_readPlaces hread)
    · exact absurd hreturn (by rintro ⟨⟩)

/-- A message begins with the source, and what it quotes or names prints. -/
theorem exists_message (fault : SettingFault) : ∃ label tail, fault.message.toList = fault.source.toList ++ (label ++ tail) ∧
    label.all isPrintable ∧ ∀ c ∈ tail, isPrintable c := by
  cases fault with
  | notInteger source raw =>
    refine ⟨" must be an integer, got ".toList, (quote raw).toList, ?_, by decide, fun c hc => isPrintable_of_mem_quote hc⟩
    rw [← String.toList_append, ← String.toList_append, ← String.append_assoc]
    rfl
  | outOfRange source value =>
    refine ⟨" must be between 0 and 15, got ".toList, (toString value).toList, ?_, by decide, fun c hc =>
      isPrintable_of_isOrdinary (isOrdinary_of_mem_decimal hc)⟩
    rw [← String.toList_append, ← String.toList_append, ← String.append_assoc]
    exact congrArg String.toList (message_outOfRange source value)
  | noTheme source raw =>
    refine ⟨" must be one of: dark, lite; got ".toList, (quote raw).toList, ?_, by decide, fun c hc =>
      isPrintable_of_mem_quote hc⟩
    have hchoices : ", ".intercalate (Theme.all.map Theme.name) = "dark, lite" := by decide
    show (source ++ " must be one of: " ++ ", ".intercalate (Theme.all.map Theme.name) ++ "; got " ++ quote raw).toList = _
    rw [hchoices, ← String.toList_append, ← String.toList_append]
    simp only [String.append_assoc]
    rfl

theorem reportable_message {first : List Char} (hfirst : (first ++ fault.source.toList).all isPrintable)
    (hhead : (first ++ fault.source.toList).head? ≠ some ' ') (hsome : first ++ fault.source.toList ≠ []) :
    Reportable (first ++ fault.message.toList) := by
  obtain ⟨label, tail, hmessage, hlabel, htail⟩ := fault.exists_message
  have hprintable : ∀ c ∈ label ++ tail, isPrintable c :=
    List.forall_mem_append.2 ⟨List.all_eq_true.1 hlabel, htail⟩
  rw [hmessage, ← List.append_assoc]
  exact .append hfirst hhead hsome hprintable

end SettingFault

theorem ErrorText.reportable {environment : String → Option String} {command : Command} {text : String}
    (htext : ErrorText environment command text) : Reportable text.toList := by
  cases htext with
  | settings hload =>
    rw [String.toList_append]
    apply SettingFault.reportable_message <;>
      rcases SettingFault.source_of_load hload with hsource | hsource <;> rw [hsource] <;> decide
  | @theme raw places settings fault hload hfault =>
    rw [← List.nil_append fault.message.toList]
    apply SettingFault.reportable_message <;> rw [SettingFault.source_of_readTheme hfault] <;> decide
  | @expression expression places raw settings fault hload hfault =>
    have hkind : (fault.kind.name ++ ": ").toList ≠ [] ∧ (fault.kind.name ++ ": ").toList.head? ≠ some ' ' := by
      cases fault.kind <;> decide
    refine ⟨(Fault.verbatim_report hfault).printable, ?_⟩
    rw [String.toList_append, List.head?_append_of_ne_nil _ hkind.1]
    exact hkind.2

/-! ### Lines of errors -/

/-- Lines of printing characters that fit the terminal and differ from a text in nothing but the number of spaces, with every
word that fits on a line on one line, between what is in front of it and what is behind it. -/
structure Shows (lines : List (List Char)) (text : List Char) : Prop where
  printable : ∀ line ∈ lines, ∀ c ∈ line, isPrintable c
  length_le : ∀ line ∈ lines, line.length ≤ 80
  kept : withoutSpaces lines.flatten = withoutSpaces text
  whole : ∀ before word after, text = before ++ word ++ after → Spaced before word after → word.length ≤ 80 →
    ∃ front left right back, lines = front ++ (left ++ word ++ right) :: back ∧
      withoutSpaces (front.flatten ++ left) = withoutSpaces before ∧
      withoutSpaces (right ++ back.flatten) = withoutSpaces after

theorem shows_wrap {cs : List Char} (hcs : Reportable cs) (hone : ∀ c ∈ cs, columnsOf c = 1) : Shows (wrap 80 cs) cs where
  printable line hline c hc := hcs.printable c (mem_of_mem_wrap hline hc)
  length_le := length_of_mem_wrap (by decide) hone
  kept := withoutSpaces_wrap 80 hcs.printable
  whole := by
    rintro before word after rfl hword hlength
    refine exists_wrap_of_spaced hcs.head_not_isBlank hcs.printable hword ?_
    rwa [columns_eq_length fun c hc => hone c (List.mem_append_left _ (List.mem_append_right _ hc))]

theorem count_joinLines {c : Char} (hc : c ≠ '\n') (lines : List (List Char)) :
    (joinLines lines).toList.count c = lines.flatten.count c := by
  rw [joinLines, String.toList_ofList]
  induction lines with
  | nil => rfl
  | cons line more ih =>
    have hfeed : ['\n'].count c = 0 := List.count_eq_zero.2 (by simpa using hc)
    rw [List.flatMap_cons, List.flatten_cons, List.count_append, List.count_append, List.count_append, ih, hfeed, Nat.add_zero]

theorem faithful_of_shows {lines : List (List Char)} {cs : List Char} (hlines : Shows lines (Markup.withoutLoneSlashes cs))
    (hshown : withoutSpaces lines.flatten = withoutSpaces cs) : Markup.Faithful cs := by
  apply Markup.faithful_of_count
  rw [← count_withoutSpaces (by decide), ← hlines.kept, hshown, count_withoutSpaces (by decide)]

/-- An error is shown as it is but for some backslashes, and it is shown as it is only without these. -/
theorem exists_lines_of_failure [EmojiNames] {text : String} (htext : Reportable text.toList)
    (hone : ∀ c ∈ text.toList, columnsOf c = 1) (hnames : Markup.NamesNoEmoji (Markup.withoutLoneSlashes text.toList)) :
    ∃ lines, (Outcome.failure text).errors = joinLines lines ∧ Shows lines (Markup.withoutLoneSlashes text.toList) ∧
      (Shows lines text.toList ↔ Markup.Faithful text.toList) := by
  have hreportable := htext.withoutLoneSlashes
  have hshows := shows_wrap hreportable fun c hc => hone c ((Markup.withoutLoneSlashes_sublist text.toList).subset hc)
  refine ⟨_, ?_, hshows, fun hwhole => faithful_of_shows hshows hwhole.kept, fun hfaithful => ?_⟩
  · rw [Outcome.failure, Paragraph.lines_of_shown Outcome.terminalWidth (Markup.shown_escape_eq hnames) hreportable.printable]
    rfl
  · rw [Markup.withoutLoneSlashes_eq_self hfaithful] at hshows ⊢
    exact hshows

/-! ### How commands fail -/

section Programs

variable {arguments : List String} {environment : String → Option String} {command : Command}

/-- A command fails with a text of an error, and reports nothing else. -/
theorem exists_errorText [EmojiNames] (hcommand : Command.ofArguments arguments = some command) {input : String}
    (hexit : (runProgram arguments environment input).exitCode = 1) :
    ∃ text, ErrorText environment command text ∧ runProgram arguments environment input = .failure text := by
  cases hload : Settings.load environment with
  | error fault => exact ⟨_, .settings hload, runProgram_of_bad_settings hcommand hload input⟩
  | ok settings =>
    cases command with
    | evaluate expression places raw =>
      rcases (runProgram_endsEvaluation hcommand environment input).cause hexit with ⟨fault, hbad, -⟩ | ⟨fault, hfault, hrun⟩
      · exact absurd (hload.symm.trans hbad) (by simp)
      · exact ⟨_, .expression hload hfault, hrun⟩
    | keypad theme places =>
      have hroomy (chosen : Theme) : (Session.new chosen (places.getD settings.places)).Roomy :=
        Session.roomy_new chosen (Command.getD_places_le hcommand hload)
      have hheld {chosen : Theme} (htheme : theme.elim (.ok settings.theme) (readTheme "--theme") = .ok chosen) :
          (runProgram arguments environment input).exitCode = 0 := by
        rw [runProgram, hcommand]
        exact congrArg Outcome.exitCode (Command.run_keypad hload htheme (hroomy chosen) input)
      cases theme with
      | none => exact absurd (hheld rfl) (by rw [hexit]; decide)
      | some raw =>
        cases htheme : readTheme "--theme" raw with
        | ok chosen => exact absurd (hheld htheme) (by rw [hexit]; decide)
        | error fault =>
          have hopen : Command.openSession settings (some raw) places = .error fault := by
            rw [Command.openSession, htheme]
            rfl
          refine ⟨_, .theme hload htheme, ?_⟩
          rw [runProgram, hcommand]
          dsimp only
          rw [Command.run, hload]
          dsimp only
          rw [hopen]

/-- A command that fails reports an error on lines that fit the terminal, whatever the expression, the variables and the
theme option hold, unless it names an emoji that the console knows. Nothing but a backslash right before an opening bracket that
belongs to no tag is missing of it. The fault of an expression has no such backslash and names no emoji. -/
theorem error_output [EmojiNames] (hcommand : Command.ofArguments arguments = some command) (input : String)
    (hexit : (runProgram arguments environment input).exitCode = 1) : ∃ text, ErrorText environment command text ∧
      ((∀ c ∈ text.toList, columnsOf c = 1) → Markup.NamesNoEmoji (Markup.withoutLoneSlashes text.toList) → ∃ lines,
        (runProgram arguments environment input).errors = joinLines lines ∧
        Shows lines (Markup.withoutLoneSlashes text.toList) ∧
        (Shows lines text.toList ↔ Markup.Faithful text.toList)) ∧
      (Settings.Acceptable environment → ∀ expression places raw, command = .evaluate expression places raw →
        Markup.Faithful text.toList ∧ Markup.NamesNoEmoji (Markup.withoutLoneSlashes text.toList)) := by
  obtain ⟨text, htext, hrun⟩ := exists_errorText hcommand hexit
  refine ⟨text, htext, fun hone hnames => ?_, ?_⟩
  · rw [hrun]
    exact exists_lines_of_failure htext.reportable hone hnames
  · rintro hsettings expression places raw rfl
    cases htext with
    | settings hload =>
      obtain ⟨settings, hgood⟩ := Settings.exists_load_iff.2 hsettings
      exact absurd (hgood.symm.trans hload) (by simp)
    | expression hload hfault =>
      have hverbatim := Fault.verbatim_report hfault
      have hfaithful := Markup.faithful_of_plain hverbatim.plain
      rw [Markup.withoutLoneSlashes_eq_self hfaithful]
      exact ⟨hfaithful, hverbatim.apart.namesNoEmoji⟩

/-- A theme with a tag, an escape character, a bracket that belongs to no tag and a backslash. -/
theorem error_output_of_theme :
    let raw := "[b]\x1b[0m\\"
    let text := "--theme must be one of: dark, lite; got '[b]\\x1b[0m\\\\'"
    Command.ofArguments ["keypad", "--theme", raw] = some (.keypad (some raw) none) ∧
      (runProgram ["keypad", "--theme", raw] (fun _ => none) "").exitCode = 1 ∧
      ∃ lines, (runProgram ["keypad", "--theme", raw] (fun _ => none) "").errors = joinLines lines ∧ Shows lines text.toList := by
  intro raw text
  have hcommand : Command.ofArguments ["keypad", "--theme", raw] = some (.keypad (some raw) none) := by decide
  have hexit : (runProgram ["keypad", "--theme", raw] (fun _ => none) "").exitCode = 1 := by decide
  have hload : Settings.load (fun _ => none) = .ok ⟨.dark, 3⟩ := by decide
  have hbad : readTheme "--theme" raw = .error (.noTheme "--theme" raw) := by decide
  obtain ⟨reported, htext, hlines, -⟩ := error_output hcommand "" hexit
  have hmessage : (SettingFault.noTheme "--theme" raw).message = text := by decide
  obtain rfl : reported = text := (htext.unique (.theme hload hbad)).trans hmessage
  have hone : text.toList.all fun c => columnsOf c == 1 := by decide
  have hcolumns : ∀ c ∈ text.toList, columnsOf c = 1 := fun c hc => beq_iff_eq.1 (List.all_eq_true.1 hone c hc)
  obtain ⟨lines, herrors, -, hfaithful⟩ := hlines hcolumns fun _ _ _ _ _ => rfl
  refine ⟨hcommand, hexit, lines, herrors, hfaithful.2 (Markup.faithful_of_count ?_)⟩
  decide

/-- Of the two backslashes that a quoted theme has for its one, the error output shows one. -/
theorem error_output_lacks_backslash :
    let environment : String → Option String := fun name => if name = "CALCPAD_THEME" then some "\\[" else none
    let text := "Invalid configuration: CALCPAD_THEME must be one of: dark, lite; got '\\\\['"
    ErrorText environment (.evaluate "1" none false) text ∧ (∀ c ∈ text.toList, columnsOf c = 1) ∧
      Command.ofArguments ["eval", "1"] = some (.evaluate "1" none false) ∧
      (runProgram ["eval", "1"] environment "").exitCode = 1 ∧
      ∀ lines, (runProgram ["eval", "1"] environment "").errors = joinLines lines →
        withoutSpaces lines.flatten ≠ withoutSpaces text.toList := by
  intro environment text
  have hload : Settings.load environment = .error (.noTheme "CALCPAD_THEME" "\\[") := by decide
  have hcommand : Command.ofArguments ["eval", "1"] = some (.evaluate "1" none false) := by decide
  have hmessage : text = "Invalid configuration: " ++ (SettingFault.noTheme "CALCPAD_THEME" "\\[").message := by decide
  have htext : ErrorText environment (.evaluate "1" none false) text := hmessage ▸ .settings hload
  have hrun : runProgram ["eval", "1"] environment "" = .failure text := by
    rw [runProgram_of_bad_settings hcommand hload, hmessage]
    rfl
  have hone : text.toList.all fun c => columnsOf c == 1 := by decide
  have hcolumns : ∀ c ∈ text.toList, columnsOf c = 1 := fun c hc => beq_iff_eq.1 (List.all_eq_true.1 hone c hc)
  refine ⟨htext, hcolumns, hcommand, by rw [hrun]; rfl, fun lines herrors hwhole => ?_⟩
  obtain ⟨shown, hshown, hshows, -⟩ := exists_lines_of_failure htext.reportable hcolumns fun _ _ _ _ _ => rfl
  have hcount : lines.flatten.count '\\' = shown.flatten.count '\\' := by
    rw [← count_joinLines (by decide), ← count_joinLines (by decide), ← herrors, ← hshown, hrun]
  rw [← count_withoutSpaces (by decide), ← count_withoutSpaces (by decide) shown.flatten, hwhole, hshows.kept] at hcount
  exact absurd hcount (by decide)

end Programs

end Reckoner
