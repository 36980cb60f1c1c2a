import Reckoner.Diagnostic
import Reckoner.Proofs.Text.Digits
import Reckoner.Proofs.Text.Unquoted

/-!
# Reading diagnostics back

The text of a diagnostic holds nothing but printing characters, and all of its parts can be read from it in order: the texts
among them are quoted, and the position ends at the first comma. So a diagnostic is the only one that has its text.
-/

namespace Reckoner

namespace Text

/-- The integer that decimal digits stand for, behind a minus sign or not. -/
def ofDecimal : List Char → Int
  | '-' :: digits => -(Nat.ofDigitChars 10 digits 0 : Nat)
  | digits => (Nat.ofDigitChars 10 digits 0 : Nat)

theorem ofDecimal_toString (n : Int) : ofDecimal (toString n).toList = n := by
  have hvalue : Nat.ofDigitChars 10 (Nat.toDigits 10 n.natAbs) 0 = n.natAbs := Nat.ofDigitChars_ten_toDigits
  rw [toList_toString]
  split
  · rw [ofDecimal, hvalue]
    omega
  · rw [ofDecimal, hvalue]
    · omega
    · intro digits hdigits
      have hminus : '-' ∈ Nat.toDigits 10 n.natAbs := hdigits ▸ List.mem_cons_self
      exact absurd (isDigit_of_mem_toDigits hminus) (by decide)

end Text

namespace Diagnostic

open Text

/-- The text that is quoted in front or the word for its absence, and what stands behind it. -/
def unquoteOptional? (cs : List Char) : Option (Option String × List Char) :=
  match cs.dropPrefix? "None".toList with
  | some rest => some (none, rest)
  | none => (unquote? cs).map fun read => (some (String.ofList read.1), read.2)

/-- The diagnostic that has a text. -/
def ofText? (text : String) : Option Diagnostic := do
  let rest ← text.toList.dropPrefix? "ParseError(kind=".toList
  let (kindName, rest) ← unquote? rest
  let kind ← (FaultKind.ofName (String.ofList kindName)).toOption
  let rest ← rest.dropPrefix? ", message=".toList
  let (message, rest) ← unquote? rest
  let rest ← rest.dropPrefix? ", position=".toList
  let position := ofDecimal (rest.takeWhile (· != ','))
  let rest ← (rest.dropWhile (· != ',')).dropPrefix? ", char=".toList
  let (char, rest) ← unquoteOptional? rest
  if rest = [')'] then some ⟨kind, String.ofList message, position, char⟩ else none

theorem ofName_name (kind : FaultKind) : FaultKind.ofName kind.name = .ok kind := by
  cases kind <;> rfl

theorem dropPrefix?_append (label : String) (rest : List Char) :
    (label.toList ++ rest).dropPrefix? label.toList = some rest :=
  List.dropPrefix?_append_of_beq rest (beq_self_eq_true _)

theorem unquoteOptional?_quote? (char : Option String) (rest : List Char) :
    unquoteOptional? ((quote? char).toList ++ rest) = some (char, rest) := by
  cases char with
  | none =>
    rw [unquoteOptional?, quote?, dropPrefix?_append]
  | some text =>
    have hquoted : (quote? (some text)).toList = quoted text.toList := String.toList_ofList
    have hprefix : (quoted text.toList ++ rest).dropPrefix? "None".toList = none := by
      rcases quoteMark_cases text.toList with hmark | hmark <;> rw [quoted, hmark] <;> rfl
    rw [unquoteOptional?, hquoted, hprefix]
    dsimp only
    rw [unquote?_quoted, Option.map_some, String.ofList_toList]

/-- The parts of a text in order. -/
theorem toList_text (diagnostic : Diagnostic) : diagnostic.text.toList =
    "ParseError(kind=".toList ++ (quoted diagnostic.kind.name.toList ++ (", message=".toList ++
      (quoted diagnostic.message.toList ++ (", position=".toList ++ ((toString diagnostic.position).toList ++
        (", char=".toList ++ ((quote? diagnostic.char).toList ++ [')']))))))) := by
  show ("ParseError(kind=" ++ quote diagnostic.kind.name ++ ", message=" ++ quote diagnostic.message ++ ", position=" ++
    toString diagnostic.position ++ ", char=" ++ quote? diagnostic.char ++ ")").toList = _
  have hquote (text : String) : (quote text).toList = quoted text.toList := String.toList_ofList
  simp only [String.toList_append, List.append_assoc, hquote]
  rfl

theorem ofText?_text (diagnostic : Diagnostic) : ofText? diagnostic.text = some diagnostic := by
  have hcomma : ∀ c ∈ (toString diagnostic.position).toList, c != ',' := by
    intro c hc
    rw [bne_iff_ne]
    rintro rfl
    exact absurd (isDigit_or_of_mem_toString hc) (by decide)
  have hstop (rest : List Char) : ((toString diagnostic.position).toList ++ (", char=".toList ++ rest)).takeWhile (· != ',') =
      (toString diagnostic.position).toList := by
    rw [List.takeWhile_append_of_pos hcomma]
    exact List.append_nil _
  have hbehind (rest : List Char) : ((toString diagnostic.position).toList ++ (", char=".toList ++ rest)).dropWhile (· != ',') =
      ", char=".toList ++ rest := List.dropWhile_append_of_pos hcomma
  rw [ofText?, toList_text, dropPrefix?_append]
  simp only [Option.bind_eq_bind, Option.bind_some, unquote?_quoted, String.ofList_toList, ofName_name, Except.toOption,
    dropPrefix?_append, hstop, hbehind, ofDecimal_toString, unquoteOptional?_quote?, if_true]

theorem isPrintable_of_mem_text {diagnostic : Diagnostic} {c : Char} (hc : c ∈ diagnostic.text.toList) : isPrintable c := by
  have hlabel (label : String) (hlabel : label.toList.all isOrdinary) (hc : c ∈ label.toList) : isPrintable c :=
    isPrintable_of_isOrdinary (List.all_eq_true.1 hlabel c hc)
  rw [toList_text] at hc
  simp only [List.mem_append] at hc
  rcases hc with hc | hc | hc | hc | hc | hc | hc | hc | hc
  · exact hlabel _ (by decide) hc
  · exact isPrintable_of_mem_quoted hc
  · exact hlabel _ (by decide) hc
  · exact isPrintable_of_mem_quoted hc
  · exact hlabel _ (by decide) hc
  · exact isPrintable_of_isOrdinary (isOrdinary_of_mem_decimal hc)
  · exact hlabel _ (by decide) hc
  · cases hchar : diagnostic.char with
    | none =>
      rw [hchar] at hc
      exact hlabel "None" (by decide) hc
    | some text =>
      rw [hchar] at hc
      exact isPrintable_of_mem_quote hc
  · exact hlabel ")" (by decide) hc

/-- The text of a diagnostic prints, its parts can be read from it, and no other diagnostic has the same text. -/
theorem text_determines (diagnostic : Diagnostic) :
    (∀ c ∈ diagnostic.text.toList, isPrintable c) ∧ ofText? diagnostic.text = some diagnostic ∧
      ∀ other : Diagnostic, other.text = diagnostic.text → other.kind = diagnostic.kind ∧
        other.message = diagnostic.message ∧ other.position = diagnostic.position ∧ other.char = diagnostic.char := by
  refine ⟨fun c hc => isPrintable_of_mem_text hc, ofText?_text diagnostic, fun other hother => ?_⟩
  have hread := ofText?_text other
  rw [hother, ofText?_text] at hread
  obtain rfl := Option.some.inj hread
  exact ⟨rfl, rfl, rfl, rfl⟩

end Diagnostic

end Reckoner
