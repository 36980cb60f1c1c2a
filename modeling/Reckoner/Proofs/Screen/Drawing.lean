import Reckoner.Proofs.Keypad.Displays
import Reckoner.Proofs.Keypad.Themes
import Reckoner.Proofs.Screen.Console
import Reckoner.Proofs.Text.Lines

/-!
# The display in the drawing

The lines of the title are the lines that the display is wrapped to, set against the right edge. Nothing but spaces is added
or left out on the way, so the drawing shows all of the display, in order, and every line is as wide as the box.
-/

namespace Reckoner

open Text

namespace Drawing

variable {cs line : List Char}

/-- A line of the title. -/
def titleLine (line : List Char) : List Char := Table.flushRight width (bare line)

/-! ### One line -/

theorem length_titleLine (hline : ∀ c ∈ line, isLegible c) (hwidth : columns (bare line) ≤ width) :
    (titleLine line).length = width := by
  have hone : ∀ c ∈ bare line, columnsOf c = 1 := by
    intro c hc
    obtain ⟨blanks, hcs, -⟩ := exists_eq_bare_append line
    exact columnsOf_of_isLegible (hline c (hcs ▸ List.mem_append_left _ hc))
  rw [titleLine, Table.flushRight, List.length_append, List.length_replicate, columns_eq_length hone]
  rw [columns_eq_length hone] at hwidth
  omega

theorem withoutSpaces_titleLine (hline : ∀ c ∈ line, isLegible c) : withoutSpaces (titleLine line) = withoutSpaces line := by
  rw [titleLine, Table.withoutSpaces_flushRight, withoutSpaces_bare fun c hc => isPrintable_of_isLegible (hline c hc)]

theorem mem_titleLine {c : Char} (hc : c ∈ titleLine line) : c = ' ' ∨ c ∈ line := by
  obtain ⟨blanks, hcs, -⟩ := exists_eq_bare_append line
  rcases List.mem_append.1 hc with hc | hc
  · exact .inl (List.eq_of_mem_replicate hc)
  · exact .inr (hcs ▸ List.mem_append_left _ hc)

/-- A word stays between what stands before and behind it on its line. -/
theorem titleLine_append {word : List Char} (hsome : word ≠ []) (hword : ∀ c ∈ word, isBlank c = false)
    (left right : List Char) : ∃ count,
      titleLine (left ++ word ++ right) = List.replicate count ' ' ++ left ++ word ++ bare right := by
  refine ⟨width - columns (left ++ word ++ bare right), ?_⟩
  rw [titleLine, Table.flushRight, bare_append_word hsome hword, ← List.append_assoc, ← List.append_assoc]

/-! ### All lines -/

theorem withoutSpaces_flatten_titleLine {lines : List (List Char)} (hlines : ∀ c ∈ lines.flatten, isLegible c) :
    withoutSpaces (lines.map titleLine).flatten = withoutSpaces lines.flatten :=
  withoutSpaces_flatten_map fun _ hline => withoutSpaces_titleLine fun c hc => hlines c (List.mem_flatten_of_mem hline hc)

theorem presentable_shown {display : String} (hdisplay : Presentable display.toList) : Presentable (shown display) := by
  unfold shown
  split
  · exact presentable_of_all (by decide) (by decide)
  · exact hdisplay

theorem shown_ne_nil (display : String) : shown display ≠ [] := by
  unfold shown
  split
  · exact List.cons_ne_nil _ _
  · rename_i hsome
    exact mt String.toList_eq_nil_iff.1 hsome

theorem inert_of_legible (hlegible : ∀ c ∈ cs, isLegible c) (hapart : Markup.Apart cs) : Inert cs where
  printable c hc := isPrintable_of_isLegible (hlegible c hc)
  one c hc := columnsOf_of_isLegible (hlegible c hc)
  bracket hmem := isLegible_ne_bracket (hlegible _ hmem) rfl
  apart := hapart

/-- The lines that a text is wrapped to, before they are cropped. -/
def placed (cs : List Char) : List (List Char) := place width [] (words cs)

theorem flatten_placed (cs : List Char) : (placed cs).flatten = cs := flatten_place_words width cs

theorem legible_of_mem_placed (hcs : Presentable cs) : ∀ line ∈ placed cs, ∀ c ∈ line, isLegible c := by
  intro line hline c hc
  apply hcs.legible
  rw [← flatten_placed cs]
  exact List.mem_flatten_of_mem hline hc

section Title

variable [EmojiNames]

theorem title_ne_nil (display : String) : title display ≠ [] :=
  mt List.map_eq_nil_iff.1 (Paragraph.lines_ne_nil width (shown display))

theorem title_eq {display : String} (hshown : Presentable (shown display)) :
    title display = (placed (shown display)).map titleLine := by
  show (Paragraph.lines width (shown display)).map (fun line => Table.flushRight width (bare line)) = _
  rw [Table.lines_of_inert width (inert_of_legible hshown.legible hshown.apart), wrap, List.map_map, placed]
  apply List.map_congr_left
  intro line _
  show Table.flushRight width (bare (crop width line)) = titleLine line
  rw [bare_crop, titleLine]

variable {display : String} (hshown : Presentable (shown display))

include hshown

theorem length_of_mem_title : ∀ line ∈ title display, line.length = 33 := by
  intro line hline
  rw [title_eq hshown] at hline
  obtain ⟨begun, hbegun, rfl⟩ := List.mem_map.1 hline
  apply length_titleLine (legible_of_mem_placed hshown begun hbegun)
  exact columns_bare_le_of_mem_place (by decide) (Nat.zero_le _) begun hbegun

theorem withoutSpaces_title : withoutSpaces (title display).flatten = withoutSpaces (shown display) := by
  have hlegible : ∀ c ∈ (placed (shown display)).flatten, isLegible c := by
    rw [flatten_placed]
    exact hshown.legible
  rw [title_eq hshown, withoutSpaces_flatten_titleLine hlegible, flatten_placed]

/-- A word that fits on a line stands on one line, between what precedes and what follows it. -/
theorem exists_titleLine_of_spaced {before word after : List Char} (htext : shown display = before ++ word ++ after)
    (hword : Spaced before word after) (hlength : word.length ≤ 33) : ∃ front left right back,
      title display = front ++ (left ++ word ++ right) :: back ∧
        withoutSpaces (front.flatten ++ left) = withoutSpaces before ∧
        withoutSpaces (right ++ back.flatten) = withoutSpaces after := by
  have hlegible : ∀ c ∈ before ++ word ++ after, isLegible c := htext ▸ hshown.legible
  obtain ⟨hfront, hbehind⟩ := List.forall_mem_append.1 hlegible
  obtain ⟨hbefore, hmiddle⟩ := List.forall_mem_append.1 hfront
  have hisWord : IsWord before word after := hword.isWord fun c hc => isPrintable_of_isLegible (hmiddle c hc)
  have hhead : ∀ c ∈ (before ++ word ++ after).head?, isBlank c = false := htext ▸ hshown.head_not_isBlank
  have hcolumns : columns word ≤ width := by
    rw [columns_eq_length fun c hc => columnsOf_of_isLegible (hmiddle c hc)]
    exact hlength
  obtain ⟨front, left, right, back, hplaced, rfl, rfl⟩ := hisWord.exists_line hhead hcolumns
  obtain ⟨hdone, hleft⟩ := List.forall_mem_append.1 hbefore
  obtain ⟨hright, hback⟩ := List.forall_mem_append.1 hbehind
  obtain ⟨count, hline⟩ := titleLine_append hword.ne_nil hisWord.not_isBlank left right
  refine ⟨front.map titleLine, List.replicate count ' ' ++ left, bare right, back.map titleLine, ?_, ?_, ?_⟩
  · rw [title_eq hshown, htext, placed, hplaced, List.map_append, List.map_cons, hline]
  · rw [withoutSpaces_append, withoutSpaces_append, withoutSpaces_append, withoutSpaces_replicate,
      withoutSpaces_flatten_titleLine hdone, List.nil_append]
  · rw [withoutSpaces_append, withoutSpaces_append, withoutSpaces_bare fun c hc => isPrintable_of_isLegible (hright c hc),
      withoutSpaces_flatten_titleLine hback]

theorem length_title (hspace : ' ' ∉ shown display) : (title display).length = ((shown display).length + 32) / 33 := by
  have hblank : ∀ c ∈ shown display, isBlank c = false :=
    not_isBlank_of_printable hspace fun c hc => isPrintable_of_isLegible (hshown.legible c hc)
  have hsome := List.length_pos_iff.2 (shown_ne_nil display)
  have hlength : (placed (shown display)).length = ((shown display).length - 1) / 33 + 1 :=
    length_place_words (by decide) (shown_ne_nil display) hblank fun c hc => columnsOf_of_isLegible (hshown.legible c hc)
  rw [title_eq hshown, List.length_map, hlength]
  omega

theorem isLegible_of_mem_title : ∀ line ∈ title display, ∀ c ∈ line, isLegible c := by
  intro line hline c hc
  rw [title_eq hshown] at hline
  obtain ⟨begun, hbegun, rfl⟩ := List.mem_map.1 hline
  rcases mem_titleLine hc with rfl | hmem
  · decide
  · exact legible_of_mem_placed hshown begun hbegun c hmem

theorem feed_not_mem_title : ∀ line ∈ title display, '\n' ∉ line := by
  intro line hline hfeed
  exact absurd (isLegible_of_mem_title hshown line hline _ hfeed) (by decide)

end Title

/-! ### Below the title -/

/-- The lines of the box and the caption. -/
def lower (theme : Theme) : List (List Char) := keypad ++ [caption theme]

theorem caption_eq (theme : Theme) : caption theme = match theme with
    | .dark => "           theme: DARK           ".toList
    | .lite => "           theme: LITE           ".toList := by
  cases theme <;> exact String.toList_ofList.symm

theorem length_of_mem_lower (theme : Theme) : ∀ line ∈ lower theme, line.length = 33 := by
  rw [lower, ← plain_box (.new theme 0)]
  cases theme <;> decide

theorem feed_not_mem_lower (theme : Theme) : ∀ line ∈ lower theme, '\n' ∉ line := by
  rw [lower, ← plain_box (.new theme 0)]
  cases theme <;> decide

theorem splitOn_plainText [EmojiNames] {session : Session} (hshown : Presentable (shown session.display)) :
    session.plainText.toList.splitOn '\n' = [] :: (title session.display ++ lower session.theme) ++ [[]] := by
  have hlines : ∀ line ∈ [] :: (title session.display ++ lower session.theme), '\n' ∉ line := by
    refine List.forall_mem_cons.2 ⟨List.not_mem_nil, List.forall_mem_append.2 ⟨feed_not_mem_title hshown, ?_⟩⟩
    exact feed_not_mem_lower session.theme
  have htext : session.plainText = joinLines ([] :: (title session.display ++ lower session.theme)) := by
    rw [plainText_eq, upper, lower, List.cons_append, List.append_assoc]
  rw [htext, splitOn_joinLines hlines]

end Drawing

open Drawing in
/-- However the keys and the switch of a session are used, its drawing is an empty line, the title, the box and the caption,
all as wide as the box. The title is what the display shows, with no difference but in the number of spaces. A word that fits
on a line is on one line, between what is in front of it and what is behind it, and a display without spaces takes no more
lines than it has to. -/
theorem Session.drawing_of_run [EmojiNames] (theme : Theme) (places : Int) (steps : List Step)
    (hassign : ∀ text, .assign text ∉ steps) :
    let session := (new theme places).run steps
    let title := Drawing.title session.display
    let keypad := [
      "┌───────┬───────┬───────┬───────┐",
      "│   7   │   8   │   9   │   /   │",
      "├───────┼───────┼───────┼───────┤",
      "│   4   │   5   │   6   │   *   │",
      "├───────┼───────┼───────┼───────┤",
      "│   1   │   2   │   3   │   -   │",
      "├───────┼───────┼───────┼───────┤",
      "│   0   │   .   │   =   │   +   │",
      "└───────┴───────┴───────┴───────┘"].map String.toList
    let caption := match session.theme with
      | .dark => "           theme: DARK           ".toList
      | .lite => "           theme: LITE           ".toList
    let text := if session.display = "" then ['0'] else session.display.toList
    session.plainText.toList.splitOn '\n' = [[]] ++ title ++ keypad ++ [caption] ++ [[]] ∧
    1 ≤ title.length ∧ keypad.length = 9 ∧
    (∀ line ∈ title ++ keypad ++ [caption], line.length = 33) ∧
    withoutSpaces title.flatten = withoutSpaces text ∧
    (∀ before word after, text = before ++ word ++ after → Spaced before word after → word.length ≤ 33 →
      ∃ front left right back, title = front ++ (left ++ word ++ right) :: back ∧
        withoutSpaces (front.flatten ++ left) = withoutSpaces before ∧
        withoutSpaces (right ++ back.flatten) = withoutSpaces after) ∧
    (' ' ∉ text → title.length = (text.length + 32) / 33) := by
  intro session title keypad caption text
  have hshown : Presentable (shown session.display) := presentable_shown (presentable_of_run theme places hassign)
  have hcaption : Drawing.caption session.theme = caption := caption_eq session.theme
  refine ⟨?_, ?_, rfl, ?_, withoutSpaces_title hshown, ?_, length_title hshown⟩
  · rw [splitOn_plainText hshown, lower, hcaption]
    simp only [List.cons_append, List.nil_append, List.append_assoc]
    rfl
  · exact List.length_pos_iff.2 (title_ne_nil session.display)
  · rw [List.append_assoc, ← hcaption]
    exact List.forall_mem_append.2 ⟨length_of_mem_title hshown, length_of_mem_lower session.theme⟩
  · exact fun before word after htext hword hlength => exists_titleLine_of_spaced hshown htext hword hlength

/-- Thirty-four digits are a word that does not fit on a line. -/
theorem Session.drawing_of_run_cut :
    let steps := .toggle :: List.replicate 34 (Step.press "7")
    let session := (new .dark 3).run steps
    (∀ text, .assign text ∉ steps) ∧ session.display.toList = List.replicate 34 '7' ∧
      (Drawing.title session.display).length = 2 ∧
      withoutSpaces (Drawing.title session.display).flatten = List.replicate 34 '7' := by
  intro steps session
  have hassign : ∀ text, .assign text ∉ steps := by simp [steps]
  have hdisplay : session.display.toList = List.replicate 34 '7' := by decide +kernel
  have hsome : session.display ≠ "" := by
    intro hempty
    exact absurd (hempty ▸ hdisplay : "".toList = List.replicate 34 '7') (by decide)
  obtain ⟨-, -, -, -, hkept, -, hlines⟩ := drawing_of_run .dark 3 steps hassign
  rw [if_neg hsome, hdisplay] at hkept hlines
  exact ⟨hassign, hdisplay, hlines (by decide), hkept⟩

end Reckoner
