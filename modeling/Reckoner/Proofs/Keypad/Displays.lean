import Reckoner.Proofs.Binary64.Figures
import Reckoner.Proofs.Command.Messages
import Reckoner.Proofs.Keypad.Faults
import Reckoner.Text.Columns

/-!
# What displays are made of

A display is what has been typed, a number, or what is said of a fault, and a message quotes only what has been typed. So
however a session is used, its display does not begin with a blank, its characters take a column each and mean nothing to
mark-up, and no two of its colons are so close that an emoji could be named between them.
-/

namespace Reckoner

namespace Text

variable {c : Char}

theorem columnsOf_of_isLegible (hlegible : isLegible c) : columnsOf c = 1 := by
  rcases isLegible_iff.1 hlegible with hordinary | rfl | rfl | rfl
  · simp only [isOrdinary, Bool.and_eq_true, decide_eq_true_eq] at hordinary
    exact columnsOf_of_ascii hordinary.1.1.1.1 hordinary.1.1.1.2
  · decide
  · decide
  · decide

theorem isLegible_ne_bracket (hlegible : isLegible c) : c ≠ '[' := by
  rintro rfl
  exact absurd hlegible (by decide)

/-- Legible characters, the first of which is no blank, with a blank between every two colons. -/
structure Presentable (cs : List Char) : Prop where
  legible : ∀ c ∈ cs, isLegible c
  head_not_isBlank : ∀ c ∈ cs.head?, isBlank c = false
  apart : Markup.Apart cs

theorem presentable_of_all {cs : List Char} (hlegible : cs.all fun c => isLegible c && c != ':')
    (hhead : cs.head?.all (!isBlank ·)) : Presentable cs where
  legible c hc := (Bool.and_eq_true_iff.1 (List.all_eq_true.1 hlegible c hc)).1
  head_not_isBlank c hc := by
    rw [hc] at hhead
    simpa using hhead
  apart := .of_notMem fun hmem => absurd (List.all_eq_true.1 hlegible ':' hmem) (by decide)

end Text

open Text

/-! ### Typed texts, numbers and messages -/

namespace Typable

variable {text : List Char}

theorem ordinary (htext : Typable text) : ∀ c ∈ text, isOrdinary c := by
  intro c hc
  rcases htext.isDigit_or_mem_joints c hc with hdigit | hjoint
  · exact isOrdinary_of_isDigit hdigit
  · exact List.all_eq_true.1 (by decide : joints.all isOrdinary) c hjoint

theorem presentable (htext : Typable text) : Presentable text where
  legible c hc := isLegible_of_isOrdinary (htext.ordinary c hc)
  head_not_isBlank c hc := not_isBlank_of_typable (htext.isDigit_or_mem_joints c (List.mem_of_mem_head? hc))
  apart := .of_notMem fun hmem => absurd (htext.ordinary ':' hmem) (by decide)

end Typable

theorem isDigit_of_mem_head_fixedNumeral {scaled places : Nat} {c : Char}
    (hc : c ∈ (fixedNumeral scaled places).head?) : c.isDigit := by
  have hwhole : c ∈ (Nat.toDigits 10 (scaled / 10 ^ places)).head? := by
    unfold fixedNumeral at hc
    dsimp only at hc
    split at hc
    · exact hc
    · rwa [List.head?_append_of_ne_nil _ Nat.toDigits_ne_nil] at hc
  exact Text.isDigit_of_mem_toDigits (List.mem_of_mem_head? hwhole)

theorem Binary64.presentable_fixedText {value : Binary64} {places : Int} {text : String}
    (htext : value.fixedText places = .ok text) : Presentable text.toList where
  legible c hc := isLegible_of_mem_fixedText htext hc
  apart := .of_notMem fun hmem => by
    rcases isOrdinary_or_eq_of_mem_fixedText htext hmem with hordinary | hinfinity
    · exact absurd hordinary (by decide)
    · exact absurd hinfinity (by decide)
  head_not_isBlank c hc := by
    unfold fixedText at htext
    split at htext
    · exact absurd htext (by simp)
    · split at htext
      · obtain rfl := Except.ok.inj htext
        obtain rfl := Option.some.inj hc
        decide
      · rename_i negative
        obtain rfl := Except.ok.inj htext
        cases negative <;> (obtain rfl := Option.some.inj hc; decide)
      · rename_i negative x
        split at htext
        · exact absurd htext (by simp)
        · obtain rfl := Except.ok.inj htext
          obtain rfl := Option.some.inj hc
          decide
        · obtain rfl := Except.ok.inj htext
          rw [String.toList_ofList] at hc
          cases negative with
          | false => exact Literal.isBlank_of_isPart (Literal.isPart_of_isDigit (isDigit_of_mem_head_fixedNumeral hc))
          | true =>
            obtain rfl := Option.some.inj hc
            decide

theorem Fault.head_message_not_isBlank (fault : Fault) : ∀ c ∈ fault.message.toList.head?, isBlank c = false := by
  have hhead (left : String) {right : String} (hleft : left.toList.head?.any (!isBlank ·)) :
      ∀ c ∈ (left ++ right).toList.head?, isBlank c = false := by
    intro c hc
    obtain ⟨first, hfirst, hblank⟩ := (Option.any_eq_true _ _).1 hleft
    rw [String.toList_append, List.head?_append, hfirst] at hc
    obtain rfl := Option.some.inj hc
    simpa using hblank
  cases fault with
  | unexpected position found => exact hhead "Unexpected: " (by decide)
  | unclosedBefore position found => exact hhead "Expected ')' but found " (by decide)
  | unclosed opened length => exact hhead "Missing closing parenthesis for '(' at position " (by decide)
  | missingOperand position found => exact hhead "Expected a number, '(' or sign but found " (by decide)
  | malformedNumber position first others =>
    rw [message_malformedNumber]
    exact hhead "Malformed number " (by decide)
  | tooDeep opened found => exact hhead "Expression nested too deeply at position " (by decide)

theorem Fault.presentable_message {text : String} {fault : Fault} (htext : Typable text.toList)
    (hfault : evaluate text = .error fault) : Presentable fault.message.toList where
  legible := by
    apply List.all_eq_true.1
    apply all_isLegible_message
    exact List.all_eq_true.2 fun c hc => isLegible_of_isOrdinary (htext.ordinary c (mem_of_mem_quoted hfault hc))
  head_not_isBlank := fault.head_message_not_isBlank
  apart := (verbatim_message_of_error hfault).apart

/-! ### Runs -/

namespace Session

variable {session next : Session} {step : Step}

/-- What an evaluation displays. -/
theorem display_of_conclude {describe : Fault → String} (hconclude : session.conclude describe = .ok next) :
    next.display = "0" ∨ (∃ value : Binary64, value.fixedText session.places = .ok next.display) ∨
      ∃ fault, evaluate session.expression = .error fault ∧ next.display = describe fault := by
  unfold conclude outcome at hconclude
  by_cases hempty : session.expression = ""
  · rw [if_pos hempty] at hconclude
    obtain rfl := Except.ok.inj hconclude
    exact .inl rfl
  · rw [if_neg hempty] at hconclude
    cases hvalue : evaluate session.expression with
    | error fault =>
      rw [hvalue] at hconclude
      obtain rfl := Except.ok.inj hconclude
      exact .inr (.inr ⟨fault, rfl, rfl⟩)
    | ok value =>
      rw [hvalue] at hconclude
      dsimp only at hconclude
      cases htext : value.fixedText session.places with
      | error fault =>
        rw [htext] at hconclude
        exact absurd hconclude (by simp [Except.map])
      | ok text =>
        rw [htext] at hconclude
        obtain rfl := Except.ok.inj hconclude
        exact .inr (.inl ⟨value, htext⟩)

/-- A step that displays anything displays what is legible. -/
theorem presentable_of_step (hexpression : Typable session.expression.toList) (hnext : Typable next.expression.toList)
    (hstep : session.step step = .ok next) (hdisplay : Presentable session.display.toList) :
    Presentable next.display.toList := by
  have hzero : Presentable "0".toList := presentable_of_all (by decide) (by decide)
  have hconclude (describe : Fault → String)
      (hdescribe : ∀ fault, evaluate session.expression = .error fault → Presentable (describe fault).toList)
      (hconclude : session.conclude describe = .ok next) : Presentable next.display.toList := by
    rcases display_of_conclude hconclude with hempty | ⟨value, hvalue⟩ | ⟨fault, hfault, hshown⟩
    · rw [hempty]
      exact hzero
    · exact value.presentable_fixedText hvalue
    · rw [hshown]
      exact hdescribe fault hfault
  cases step with
  | press label =>
    change session.press label = .ok next at hstep
    unfold press at hstep
    cases hkey : Key.ofLabel? label with
    | none => exact absurd hstep (by simp [hkey])
    | some key =>
      rw [hkey] at hstep
      have hpressed := mapError_eq_ok_iff.1 hstep
      unfold pressKey at hpressed
      split at hpressed
      · exact hconclude _ (fun fault hfault => Fault.presentable_message hexpression hfault) hpressed
      · obtain rfl := Except.ok.inj hpressed
        exact hnext.presentable
  | enter => exact hconclude _ (fun _ _ => presentable_of_all (by decide) (by decide)) (mapError_eq_ok_iff.1 hstep)
  | toggle =>
    obtain rfl := Except.ok.inj hstep
    exact hdisplay
  | assign expression =>
    obtain rfl := Except.ok.inj hstep
    exact hdisplay

/-- However the keys and the switch are used, the display is legible and does not begin with a blank. -/
theorem presentable_of_run (theme : Theme) (places : Int) {steps : List Step} (hassign : ∀ text, .assign text ∉ steps) :
    Presentable ((new theme places).run steps).display.toList := by
  refine run_induction (fun steps next => (∀ text, .assign text ∉ steps) → Presentable next.display.toList)
    ?_ ?_ ?_ steps hassign
  · exact fun _ => show Presentable "".toList from presentable_of_all (by decide) (by decide)
  · intro steps step next hstep _ ih hassign
    have hbefore : ∀ text, .assign text ∉ steps := fun text hmem => hassign text (List.mem_append_left _ hmem)
    have hnext : (new theme places).run (steps ++ [step]) = next := by
      rw [run_concat, after_of_ok hstep]
    refine presentable_of_step (typable_of_run theme places hbefore) ?_ hstep (ih hbefore)
    rw [← hnext]
    exact typable_of_run theme places hassign
  · intro steps step fault _ ih hassign
    exact ih fun text hmem => hassign text (List.mem_append_left _ hmem)

end Session

end Reckoner
