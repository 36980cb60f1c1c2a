import Reckoner.Proofs.Screen.Markup
import Reckoner.Screen.Paragraph
import Reckoner.Text.Printable

/-!
# Texts as paragraphs

There is always a line to show, even of an empty text. A text of printing characters is shown by its escaped form as the
lines it is wrapped to, as long as it has no backslashes or no opening brackets, and a blank between every two colons: there is
then nothing that could be taken for mark-up, for the name of an emoji, for the end of a line or for a control.
-/

namespace Reckoner

namespace Text

theorem place_ne_nil (width : Nat) (line : List Char) (parts : List (List Char)) : place width line parts ≠ [] := by
  fun_induction place width line parts with
  | case1 line => exact List.cons_ne_nil _ _
  | case2 line word more hfits ih => exact ih
  | case3 line word more hlong hfits ih => exact List.cons_ne_nil _ _
  | case4 line word more hlong hwide pieces last hcut before ih => exact List.append_ne_nil_of_right_ne_nil _ ih

theorem wrap_ne_nil (width : Nat) (cs : List Char) : wrap width cs ≠ [] := by
  rw [wrap, ne_eq, List.map_eq_nil_iff]
  exact place_ne_nil width [] (words cs)

end Text

namespace Paragraph

variable {c : Char} {cs : List Char}

theorem lines_ne_nil [EmojiNames] (width : Nat) (markup : List Char) : lines width markup ≠ [] := by
  obtain ⟨line, more, hlines⟩ := List.exists_cons_of_ne_nil
    (List.splitOn_ne_nil '\n' ((Markup.shown markup).filter (!isLeftOut ·)))
  rw [lines, hlines, List.flatMap_cons]
  exact List.append_ne_nil_of_left_ne_nil (Text.wrap_ne_nil width _) _

/-- Printing characters among which there is nothing that could be taken for mark-up. -/
structure Verbatim (cs : List Char) : Prop where
  printable : ∀ c ∈ cs, Text.isPrintable c
  plain : '\\' ∉ cs ∨ '[' ∉ cs
  apart : Markup.Apart cs

theorem not_control_of_isPrintable (hprintable : Text.isPrintable c) : c ≠ '\n' ∧ c ≠ '\t' ∧ isLeftOut c = false := by
  have hcontrols : ['\n', '\t', '\x07', '\x08', '\x0B', '\x0C', '\r'].all fun c => !Text.isPrintable c := by decide
  have hc : c ∉ ['\n', '\t', '\x07', '\x08', '\x0B', '\x0C', '\r'] := fun hmem => by
    simpa [hprintable] using List.all_eq_true.1 hcontrols c hmem
  simp only [List.mem_cons, List.not_mem_nil, or_false, not_or] at hc
  simp [isLeftOut, hc]

theorem expandTabs_eq_self (htab : '\t' ∉ cs) (column : Nat) : expandTabs column cs = cs := by
  fun_induction expandTabs column cs with
  | case1 => rfl
  | case2 => simp at htab
  | case3 column c rest _ ih => rw [ih fun hmem => htab (List.mem_cons_of_mem _ hmem)]

/-- Mark-up that shows printing characters only shows them on the lines that they are wrapped to. -/
theorem lines_of_shown [EmojiNames] (width : Nat) {markup : List Char} (hshown : Markup.shown markup = cs)
    (hprintable : ∀ c ∈ cs, Text.isPrintable c) : lines width markup = Text.wrap width cs := by
  have hcontrol := fun c hc => not_control_of_isPrintable (hprintable c hc)
  have hkept : cs.filter (!isLeftOut ·) = cs := List.filter_eq_self.2 fun c hc => by simp [hcontrol c hc]
  have hfeed : '\n' ∉ cs := fun hmem => (hcontrol _ hmem).1 rfl
  have htab : '\t' ∉ cs := fun hmem => (hcontrol _ hmem).2.1 rfl
  rw [lines, hshown, hkept, List.splitOn_eq_singleton hfeed, List.flatMap_singleton, expandTabs_eq_self htab]

/-- A verbatim text is shown on the lines that it is wrapped to. -/
theorem lines_escape [EmojiNames] (width : Nat) (hverbatim : Verbatim cs) :
    lines width (Markup.escape cs) = Text.wrap width cs :=
  lines_of_shown width (Markup.shown_escape hverbatim.plain hverbatim.apart.namesNoEmoji) hverbatim.printable

end Paragraph

end Reckoner
