import Reckoner.Text.Lines

/-!
# The lines of a text

What it is for a text to consist of some lines, said without splitting it. The lines are then unique, and those that an
input is split into are the lines of it once every end of a line is a line feed.
-/

namespace Reckoner.Text

/-- A line feed ends a line, and what stands behind the last line feed is a line unless it is empty. -/
inductive HasLines : List Char → List (List Char) → Prop
  | none : HasLines [] []
  | last {line : List Char} (hline : '\n' ∉ line) (hsome : line ≠ []) : HasLines line [line]
  | ended {line rest : List Char} {lines : List (List Char)} (hline : '\n' ∉ line) (hrest : HasLines rest lines) :
      HasLines (line ++ '\n' :: rest) (line :: lines)

/-- A list without its last element, if that is empty. -/
def withoutEmptyLast (lines : List (List Char)) : List (List Char) :=
  if lines.getLast? = some [] then lines.dropLast else lines

theorem splitLines_eq (text : String) :
    splitLines text = withoutEmptyLast ((withLineFeeds text.toList).splitOn '\n') := rfl

theorem withoutEmptyLast_cons {line : List Char} {lines : List (List Char)} (hsome : lines ≠ []) :
    withoutEmptyLast (line :: lines) = line :: withoutEmptyLast lines := by
  rw [withoutEmptyLast, withoutEmptyLast, List.getLast?_cons_of_ne_nil hsome, List.dropLast_cons_of_ne_nil hsome]
  split <;> rfl

theorem HasLines.eq_splitOn {cs : List Char} {lines : List (List Char)} (hlines : HasLines cs lines) :
    lines = withoutEmptyLast (cs.splitOn '\n') := by
  induction hlines with
  | none => rfl
  | last hline hsome =>
    rw [List.splitOn_eq_singleton hline, withoutEmptyLast, List.getLast?_singleton, if_neg (by simpa using hsome)]
  | ended hline _ ih =>
    rw [List.splitOn_append_cons_self_of_not_mem hline, withoutEmptyLast_cons (List.splitOn_ne_nil _ _), ← ih]

theorem exists_hasLines (cs : List Char) : ∃ lines, HasLines cs lines := by
  induction hlength : cs.length using Nat.strongRecOn generalizing cs with
  | _ length ih =>
    by_cases hfeed : '\n' ∈ cs
    · obtain ⟨line, rest, rfl, hline⟩ := List.eq_append_cons_of_mem hfeed
      have hshorter : rest.length < length := by
        rw [← hlength, List.length_append, List.length_cons]
        omega
      obtain ⟨lines, hlines⟩ := ih rest.length hshorter rest rfl
      exact ⟨line :: lines, .ended hline hlines⟩
    · by_cases hempty : cs = []
      · subst hempty
        exact ⟨[], .none⟩
      · exact ⟨[cs], .last hfeed hempty⟩

theorem hasLines_splitLines (text : String) : HasLines (withLineFeeds text.toList) (splitLines text) := by
  obtain ⟨lines, hlines⟩ := exists_hasLines (withLineFeeds text.toList)
  rw [splitLines_eq, ← hlines.eq_splitOn]
  exact hlines

/-- Lines that are written are what stands before the line feeds, and nothing stands behind the last. -/
theorem splitOn_joinLines {lines : List (List Char)} (hlines : ∀ line ∈ lines, '\n' ∉ line) :
    (joinLines lines).toList.splitOn '\n' = lines ++ [[]] := by
  rw [joinLines, String.toList_ofList]
  induction lines with
  | nil => rfl
  | cons line more ih =>
    obtain ⟨hline, hmore⟩ := List.forall_mem_cons.1 hlines
    rw [List.flatMap_cons, List.append_assoc]
    show List.splitOn '\n' (line ++ '\n' :: List.flatMap (· ++ ['\n']) more) = _
    rw [List.splitOn_append_cons_self_of_not_mem hline, ih hmore]
    rfl

end Reckoner.Text
