import Reckoner.Proofs.Text.Blank
import Reckoner.Proofs.Text.Wrapped

/-!
# Spaces in wrapped texts

The space is the only blank that prints. So the lines that printing characters are wrapped to differ from the text in nothing
but the number of spaces, and a word that fits on a line stands on one line between what is in front of it and what is behind it.
-/

namespace Reckoner

open Text

variable {width : Nat} {c : Char} {cs line before word after : List Char}

def withoutSpaces (cs : List Char) : List Char := cs.filter (· != ' ')

/-- A text without spaces, and on either side of it a space or nothing. -/
structure Spaced (before word after : List Char) : Prop where
  ne_nil : word ≠ []
  not_mem : ' ' ∉ word
  space_before : ∀ c ∈ before.getLast?, c = ' '
  space_behind : ∀ c ∈ after.head?, c = ' '

theorem withoutSpaces_append (left right : List Char) :
    withoutSpaces (left ++ right) = withoutSpaces left ++ withoutSpaces right := List.filter_append ..

theorem withoutSpaces_replicate (count : Nat) : withoutSpaces (List.replicate count ' ') = [] :=
  List.filter_eq_nil_iff.2 fun c hc => by simp [List.eq_of_mem_replicate hc]

theorem count_withoutSpaces (hc : c ≠ ' ') (cs : List Char) : (withoutSpaces cs).count c = cs.count c :=
  List.count_filter (by simpa using hc)

theorem withoutSpaces_of_blanks (hblanks : ∀ c ∈ cs, isBlank c) (hprintable : ∀ c ∈ cs, isPrintable c) :
    withoutSpaces cs = [] :=
  List.filter_eq_nil_iff.2 fun c hc => by simp [eq_space_of_isBlank (hblanks c hc) (hprintable c hc)]

theorem withoutSpaces_flatten_map {f : List Char → List Char} {lines : List (List Char)}
    (hkept : ∀ line ∈ lines, withoutSpaces (f line) = withoutSpaces line) :
    withoutSpaces (lines.map f).flatten = withoutSpaces lines.flatten := by
  induction lines with
  | nil => rfl
  | cons line more ih =>
    obtain ⟨hline, hmore⟩ := List.forall_mem_cons.1 hkept
    rw [List.map_cons, List.flatten_cons, List.flatten_cons, withoutSpaces_append, withoutSpaces_append, hline, ih hmore]

theorem not_isBlank_of_printable (hspace : ' ' ∉ cs) (hprintable : ∀ c ∈ cs, isPrintable c) : ∀ c ∈ cs, isBlank c = false := by
  intro c hc
  rw [Bool.eq_false_iff]
  intro hblank
  rw [eq_space_of_isBlank hblank (hprintable c hc)] at hc
  exact hspace hc

theorem Spaced.isWord (hword : Spaced before word after) (hprintable : ∀ c ∈ word, isPrintable c) : IsWord before word after where
  ne_nil := hword.ne_nil
  not_isBlank := not_isBlank_of_printable hword.not_mem hprintable
  isBlank_before c hc := by
    rw [hword.space_before c hc]
    decide
  isBlank_behind c hc := by
    rw [hword.space_behind c hc]
    decide

namespace Text

/-! ### One line -/

theorem withoutSpaces_bare (hprintable : ∀ c ∈ line, isPrintable c) : withoutSpaces (bare line) = withoutSpaces line := by
  obtain ⟨blanks, hline, hblanks⟩ := exists_eq_bare_append line
  have hspaces : withoutSpaces blanks = [] :=
    withoutSpaces_of_blanks hblanks fun c hc => hprintable c (hline ▸ List.mem_append_right _ hc)
  calc withoutSpaces (bare line) = withoutSpaces (bare line ++ blanks) := by
        rw [withoutSpaces_append, hspaces, List.append_nil]
    _ = withoutSpaces line := by rw [← hline]

theorem withoutSpaces_crop (width : Nat) (hprintable : ∀ c ∈ line, isPrintable c) :
    withoutSpaces (crop width line) = withoutSpaces line := by
  have hcropped : ∀ c ∈ crop width line, isPrintable c := fun c hc => hprintable c (List.mem_of_mem_take hc)
  rw [← withoutSpaces_bare hcropped, bare_crop, withoutSpaces_bare hprintable]

theorem length_crop_le (hone : ∀ c ∈ line, columnsOf c = 1) (hwidth : columns (bare line) ≤ width) :
    (crop width line).length ≤ width := by
  obtain ⟨blanks, hline, -⟩ := exists_eq_bare_append line
  have hbare : ∀ c ∈ bare line, columnsOf c = 1 := fun c hc => hone c (hline ▸ List.mem_append_left _ hc)
  rw [columns_eq_length hbare] at hwidth
  rw [crop, List.length_take, Nat.max_eq_left hwidth]
  exact Nat.min_le_left _ _

theorem bare_append_word {left right : List Char} (hsome : word ≠ []) (hword : ∀ c ∈ word, isBlank c = false) :
    bare (left ++ word ++ right) = left ++ word ++ bare right := by
  refine bare_append (fun c hc => ?_) right
  rw [List.getLast?_append_of_ne_nil _ hsome] at hc
  exact hword c (List.mem_of_getLast? hc)

/-- What is cropped of a line does not reach a word on it. -/
theorem exists_crop_append (width : Nat) {left right : List Char} (hsome : word ≠ []) (hword : ∀ c ∈ word, isBlank c = false)
    (hprintable : ∀ c ∈ left ++ word ++ right, isPrintable c) :
    ∃ kept, crop width (left ++ word ++ right) = left ++ word ++ kept ∧ withoutSpaces kept = withoutSpaces right := by
  have hlong : (left ++ word).length ≤ max width (left ++ word ++ bare right).length := by
    simp only [List.length_append]
    omega
  have hkept : crop width (left ++ word ++ right) =
      left ++ word ++ right.take (max width (left ++ word ++ bare right).length - (left ++ word).length) := by
    rw [crop, bare_append_word hsome hword, List.take_append, List.take_of_length_le hlong]
  have hspaces := withoutSpaces_crop width hprintable
  rw [hkept, withoutSpaces_append, withoutSpaces_append _ right] at hspaces
  exact ⟨_, hkept, List.append_cancel_left hspaces⟩

/-! ### All lines -/

theorem flatten_place_words (width : Nat) (cs : List Char) : (place width [] (words cs)).flatten = cs := by
  rw [flatten_place, flatten_words, List.nil_append]

theorem mem_of_mem_place_words (hline : line ∈ place width [] (words cs)) (hc : c ∈ line) : c ∈ cs := by
  rw [← flatten_place_words width cs]
  exact List.mem_flatten_of_mem hline hc

theorem mem_of_mem_wrap (hline : line ∈ wrap width cs) (hc : c ∈ line) : c ∈ cs := by
  obtain ⟨placed, hplaced, rfl⟩ := List.mem_map.1 hline
  exact mem_of_mem_place_words hplaced (List.mem_of_mem_take hc)

theorem length_of_mem_wrap (hwidth : 1 < width) (hone : ∀ c ∈ cs, columnsOf c = 1) :
    ∀ line ∈ wrap width cs, line.length ≤ width := by
  intro line hline
  obtain ⟨placed, hplaced, rfl⟩ := List.mem_map.1 hline
  apply length_crop_le fun c hc => hone c (mem_of_mem_place_words hplaced hc)
  exact columns_bare_le_of_mem_place hwidth (Nat.zero_le _) placed hplaced

theorem withoutSpaces_wrap (width : Nat) (hprintable : ∀ c ∈ cs, isPrintable c) :
    withoutSpaces (wrap width cs).flatten = withoutSpaces cs := by
  have hkept : ∀ line ∈ place width [] (words cs), withoutSpaces (crop width line) = withoutSpaces line :=
    fun line hline => withoutSpaces_crop width fun c hc => hprintable c (mem_of_mem_place_words hline hc)
  rw [wrap, withoutSpaces_flatten_map hkept, flatten_place_words]

/-- A word that fits on a line stands on one line, between what precedes and what follows it. -/
theorem exists_wrap_of_spaced (hhead : ∀ c ∈ (before ++ word ++ after).head?, isBlank c = false)
    (hprintable : ∀ c ∈ before ++ word ++ after, isPrintable c) (hword : Spaced before word after)
    (hwidth : columns word ≤ width) : ∃ front left right back,
      wrap width (before ++ word ++ after) = front ++ (left ++ word ++ right) :: back ∧
        withoutSpaces (front.flatten ++ left) = withoutSpaces before ∧
        withoutSpaces (right ++ back.flatten) = withoutSpaces after := by
  have hisWord : IsWord before word after :=
    hword.isWord fun c hc => hprintable c (List.mem_append_left _ (List.mem_append_right _ hc))
  obtain ⟨front, left, right, back, hplaced, rfl, rfl⟩ := hisWord.exists_line hhead hwidth
  obtain ⟨hbegun, hbehind⟩ := List.forall_mem_append.1 hprintable
  obtain ⟨hbefore, hmiddle⟩ := List.forall_mem_append.1 hbegun
  obtain ⟨hdone, hleft⟩ := List.forall_mem_append.1 hbefore
  obtain ⟨hright, hback⟩ := List.forall_mem_append.1 hbehind
  have hline : ∀ c ∈ left ++ word ++ right, isPrintable c :=
    List.forall_mem_append.2 ⟨List.forall_mem_append.2 ⟨hleft, hmiddle⟩, hright⟩
  have hkept {lines : List (List Char)} (hlines : ∀ c ∈ lines.flatten, isPrintable c) :
      withoutSpaces (lines.map (crop width)).flatten = withoutSpaces lines.flatten :=
    withoutSpaces_flatten_map fun line hline => withoutSpaces_crop width fun c hc =>
      hlines c (List.mem_flatten_of_mem hline hc)
  obtain ⟨kept, hcrop, hspaces⟩ := exists_crop_append width hword.ne_nil hisWord.not_isBlank hline
  refine ⟨front.map (crop width), left, kept, back.map (crop width), ?_, ?_, ?_⟩
  · rw [wrap, hplaced, List.map_append, List.map_cons, hcrop]
  · rw [withoutSpaces_append, withoutSpaces_append, hkept hdone]
  · rw [withoutSpaces_append, withoutSpaces_append, hspaces, hkept hback]

end Text

end Reckoner
