import Reckoner.Command.Outcome
import Reckoner.Proofs.Evaluation.Faults
import Reckoner.Proofs.Screen.Paragraph
import Reckoner.Proofs.Text.Quoted

/-!
# Messages on the error output

The fault of an expression is reported by its kind and its message, which appear on the error output as they are, wrapped to
the width of the terminal. Whatever the expression is, what a message quotes of it prints, and an opening bracket or a colon in
it stands alone.
-/

namespace Reckoner

namespace Paragraph

variable {cs more : List Char}

theorem notMem_of_ordinary {c : Char} (hcs : cs.all Text.isOrdinary) (hc : Text.isOrdinary c = false) : c ∉ cs := fun hmem => by
  simpa [hc] using List.all_eq_true.1 hcs c hmem

namespace Verbatim

theorem of_ordinary (hcs : cs.all Text.isOrdinary) : Verbatim cs where
  printable c hc := Text.isPrintable_of_isOrdinary (List.all_eq_true.1 hcs c hc)
  plain := .inl (notMem_of_ordinary hcs (by decide))
  apart := .of_notMem (notMem_of_ordinary hcs (by decide))

/-- Ordinary characters around a verbatim text mean nothing to mark-up. -/
theorem plain_append (hcs : Verbatim cs) (hmore : more.all Text.isOrdinary) : '\\' ∉ more ++ cs ∨ '[' ∉ more ++ cs := by
  have hmark (c : Char) (hordinary : Text.isOrdinary c = false) (hc : c ∉ cs) : c ∉ more ++ cs := fun hmem =>
    (List.mem_append.1 hmem).elim (notMem_of_ordinary hmore hordinary) hc
  exact hcs.plain.imp (hmark '\\' (by decide)) (hmark '[' (by decide))

theorem ordinary_append (hcs : Verbatim cs) (hmore : more.all Text.isOrdinary) : Verbatim (more ++ cs) where
  printable := List.forall_mem_append.2 ⟨(of_ordinary hmore).printable, hcs.printable⟩
  plain := hcs.plain_append hmore
  apart := .notMem_append (notMem_of_ordinary hmore (by decide)) hcs.apart

theorem append_ordinary (hcs : Verbatim cs) (hmore : more.all Text.isOrdinary) : Verbatim (cs ++ more) where
  printable := List.forall_mem_append.2 ⟨hcs.printable, (of_ordinary hmore).printable⟩
  plain := by simpa [or_comm, and_comm] using hcs.plain_append hmore
  apart := hcs.apart.append_notMem (notMem_of_ordinary hmore (by decide))

/-- The colon behind a title has a space behind it, and begins no name. -/
theorem titled {title text : String} (htext : Verbatim text.toList) (htitle : title.toList.all Text.isOrdinary) :
    Verbatim (title ++ ": " ++ text).toList := by
  have hcolon : Verbatim (':' :: ' ' :: text.toList) := by
    refine ⟨?_, ?_, .colon_blank (by decide) htext.apart⟩
    · exact List.forall_mem_cons.2 ⟨by decide, List.forall_mem_cons.2 ⟨by decide, htext.printable⟩⟩
    · simpa using htext.plain
  have hsplit : (title ++ ": " ++ text).toList = title.toList ++ ':' :: ' ' :: text.toList := by
    rw [String.toList_append, String.toList_append, List.append_assoc]
    rfl
  rw [hsplit]
  exact hcolon.ordinary_append htitle

end Verbatim

theorem verbatim_quote {text : String} (hplain : '\\' ∉ Text.quoted text.toList ∨ '[' ∉ text.toList)
    (hcolon : ':' ∉ text.toList) : Verbatim (Text.quote text).toList := by
  rw [Text.quote, String.toList_ofList]
  exact ⟨fun c hc => Text.isPrintable_of_mem_quoted hc, hplain.imp_right (Text.notMem_quoted (by decide) (by decide)),
    .of_notMem (Text.notMem_quoted (by decide) (by decide) hcolon)⟩

/-- A single character needs no backslash if it is an opening bracket or a colon. -/
theorem verbatim_quote_char (c : Char) : Verbatim (Text.quote c.toString).toList := by
  have hsingle (d : Char) (hd : d ≠ c) : d ∉ c.toString.toList := by
    rw [Char.toString, String.toList_singleton, List.mem_singleton]
    exact hd
  by_cases hcolon : c = ':'
  · subst hcolon
    exact ⟨fun c hc => Text.isPrintable_of_mem_quote hc, .inl (by decide), .of_count_le_one (by decide)⟩
  · by_cases hbracket : c = '['
    · subst hbracket
      exact verbatim_quote (.inl (by decide)) (by decide)
    · exact verbatim_quote (.inr (hsingle '[' (Ne.symm hbracket))) (hsingle ':' (Ne.symm hcolon))

end Paragraph

namespace Fault

open Paragraph

theorem message_unclosed (opened length : Nat) :
    (unclosed opened length).message = "Missing closing parenthesis for '('" ++ (" at position " ++ toString opened) := rfl

theorem message_malformedNumber (position : Nat) (first : Char) (others : List Char) :
    (malformedNumber position first others).message =
      "Malformed number " ++ (Text.quote (String.ofList (first :: others)) ++ (" at position " ++ toString position)) := by
  rw [← String.append_assoc, ← String.append_assoc]
  rfl

theorem message_tooDeep (opened : Nat) (found : Option Char) :
    (tooDeep opened found).message = "Expression nested too deeply" ++ (" at position " ++ toString (opened + 1)) := rfl

theorem all_isOrdinary_position (position : Nat) : (" at position " ++ toString position).toList.all Text.isOrdinary := by
  rw [String.toList_append, List.all_append, Bool.and_eq_true]
  exact ⟨by decide, List.all_eq_true.2 fun c hc => Text.isOrdinary_of_mem_toString hc⟩

theorem verbatim_describe (position : Nat) (found : Option Char) : Verbatim (describe position found).toList := by
  cases found with
  | none =>
    change Verbatim "end of input".toList
    exact .of_ordinary (by decide)
  | some c =>
    change Verbatim (Text.quote c.toString ++ " at position " ++ toString position).toList
    rw [String.append_assoc, String.toList_append]
    exact (verbatim_quote_char c).append_ordinary (all_isOrdinary_position position)

theorem verbatim_message {fault : Fault} (hquoted : ∀ position first others,
    fault = .malformedNumber position first others → '[' ∉ first :: others ∧ ':' ∉ first :: others) :
    Verbatim fault.message.toList := by
  cases fault with
  | unexpected position found =>
    have htitle : "Unexpected: " = "Unexpected" ++ ": " := by decide
    change Verbatim ("Unexpected: " ++ describe position (some found)).toList
    rw [htitle]
    exact (verbatim_describe position found).titled (by decide)
  | unclosedBefore position found =>
    change Verbatim ("Expected ')' but found " ++ describe position (some found)).toList
    rw [String.toList_append]
    exact (verbatim_describe position found).ordinary_append (by decide)
  | unclosed opened length =>
    rw [message_unclosed, String.toList_append]
    exact (Verbatim.of_ordinary (all_isOrdinary_position opened)).ordinary_append (by decide)
  | missingOperand position found =>
    change Verbatim ("Expected a number, '(' or sign but found " ++ describe position found).toList
    rw [String.toList_append]
    exact (verbatim_describe position found).ordinary_append (by decide)
  | malformedNumber position first others =>
    have hrun : '[' ∉ (String.ofList (first :: others)).toList ∧ ':' ∉ (String.ofList (first :: others)).toList := by
      rw [String.toList_ofList]
      exact hquoted position first others rfl
    rw [message_malformedNumber, String.toList_append, String.toList_append]
    exact ((verbatim_quote (.inr hrun.1) hrun.2).append_ordinary (all_isOrdinary_position position)).ordinary_append (by decide)
  | tooDeep opened found =>
    rw [message_tooDeep, String.toList_append]
    exact (Verbatim.of_ordinary (all_isOrdinary_position (opened + 1))).ordinary_append (by decide)

/-! ### Messages on displays -/

section Legible

open Text

theorem all_isLegible_append {left right : String} (hleft : left.toList.all isLegible) (hright : right.toList.all isLegible) :
    (left ++ right).toList.all isLegible := by
  rw [String.toList_append, List.all_append, hleft, hright]
  rfl

theorem all_isLegible_position (position : Nat) : (" at position " ++ toString position).toList.all isLegible :=
  List.all_eq_true.2 fun c hc => isLegible_of_isOrdinary (List.all_eq_true.1 (all_isOrdinary_position position) c hc)

theorem all_isLegible_quote {text : String} (htext : text.toList.all isLegible) : (Text.quote text).toList.all isLegible := by
  rw [Text.quote, String.toList_ofList]
  exact List.all_eq_true.2 fun c hc => isLegible_of_mem_quoted (List.all_eq_true.1 htext) hc

theorem all_isLegible_describe (position : Nat) {found : Option Char} (hfound : found.toList.all isLegible) :
    (describe position found).toList.all isLegible := by
  cases found with
  | none =>
    show "end of input".toList.all isLegible
    decide
  | some c =>
    show (Text.quote c.toString ++ " at position " ++ toString position).toList.all isLegible
    rw [String.append_assoc]
    refine all_isLegible_append (all_isLegible_quote ?_) (all_isLegible_position position)
    rwa [Char.toString, String.toList_singleton]

/-- A message is legible if what it quotes is. -/
theorem all_isLegible_message {fault : Fault} (hquoted : fault.quoted.all isLegible) :
    fault.message.toList.all isLegible := by
  cases fault with
  | unexpected position found => exact all_isLegible_append (by decide) (all_isLegible_describe position hquoted)
  | unclosedBefore position found => exact all_isLegible_append (by decide) (all_isLegible_describe position hquoted)
  | unclosed opened length =>
    rw [message_unclosed]
    exact all_isLegible_append (by decide) (all_isLegible_position opened)
  | missingOperand position found => exact all_isLegible_append (by decide) (all_isLegible_describe position hquoted)
  | malformedNumber position first others =>
    rw [message_malformedNumber]
    refine all_isLegible_append (by decide) (all_isLegible_append (all_isLegible_quote ?_) (all_isLegible_position position))
    rwa [String.toList_ofList]
  | tooDeep opened found =>
    rw [message_tooDeep]
    exact all_isLegible_append (by decide) (all_isLegible_position (opened + 1))

end Legible

end Fault

/-- The message of a fault has nothing in it that could be taken for mark-up. -/
theorem Fault.verbatim_message_of_error {text : String} {bound : Nat} {fault : Fault}
    (hfault : evaluate text bound = .error fault) : Paragraph.Verbatim fault.message.toList := by
  refine Fault.verbatim_message fun position first others hmalformed => ?_
  obtain ⟨before, start, run, -, -, -, hrun, hparts, -⟩ := exists_malformed hfault (by rw [hmalformed]; rfl)
  obtain ⟨-, rfl, rfl⟩ := Fault.malformedNumber.inj (hmalformed.symm.trans hrun)
  exact ⟨fun hmem => absurd (hparts '[' hmem) (by decide), fun hmem => absurd (hparts ':' hmem) (by decide)⟩

/-- Nor has what is reported of an expression. -/
theorem Fault.verbatim_report {text : String} {bound : Nat} {fault : Fault} (hfault : evaluate text bound = .error fault) :
    Paragraph.Verbatim (fault.kind.name ++ ": " ++ fault.message).toList := by
  have hkind : fault.kind.name.toList.all Text.isOrdinary := by
    cases fault.kind <;> decide
  exact (Fault.verbatim_message_of_error hfault).titled hkind

/-- The fault of an expression is reported as it is, wrapped to the width of the terminal. -/
theorem Outcome.badExpression_eq [EmojiNames] {text : String} {bound : Nat} {fault : Fault}
    (hfault : evaluate text bound = .error fault) : badExpression fault =
      ⟨1, "", Text.joinLines (Text.wrap terminalWidth (fault.kind.name ++ ": " ++ fault.message).toList)⟩ := by
  change failure (fault.kind.name ++ ": " ++ fault.message) = _
  rw [failure, Paragraph.lines_escape terminalWidth (Fault.verbatim_report hfault)]

end Reckoner
