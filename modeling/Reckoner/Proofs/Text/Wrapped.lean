import Mathlib.Data.List.SplitBy
import Reckoner.Proofs.Text.Trim
import Reckoner.Text.Wrapped

/-!
# What wrapping keeps together

Placing words moves from one state to the next: some lines are done and one has been begun. Whatever the state is, a word that
is no wider than a line ends up on the line that is begun or on the next one, whole and with all that precedes it in front. A
line exceeds the width only by blanks, and a text without blanks takes as few lines as possible.
-/

namespace Reckoner.Text

variable {width : Nat} {c : Char} {cs left right blanks line : List Char}

/-! ### Columns -/

theorem columns_cons (c : Char) (cs : List Char) : columns (c :: cs) = columnsOf c + columns cs := rfl

theorem columns_append (left right : List Char) : columns (left ++ right) = columns left + columns right := by
  induction left with
  | nil => rw [List.nil_append, columns, columns, List.foldr_nil, Nat.zero_add]
  | cons c rest ih => rw [List.cons_append, columns_cons, columns_cons, ih, Nat.add_assoc]

theorem columns_splitColumns_le (room : Nat) (cs : List Char) : columns (splitColumns room cs).1 ≤ room := by
  fun_induction splitColumns room cs with
  | case1 => exact Nat.zero_le _
  | case2 room c rest hfits front back hsplit ih =>
    rw [hsplit] at ih
    have hfront : columns front ≤ room - columnsOf c := ih
    rw [columns_cons]
    omega
  | case3 => exact Nat.zero_le _

theorem splitColumns_of_one (hone : ∀ c ∈ cs, columnsOf c = 1) (room : Nat) :
    splitColumns room cs = (cs.take room, cs.drop room) := by
  induction cs generalizing room with
  | nil => rw [splitColumns, List.take_nil, List.drop_nil]
  | cons c rest ih =>
    obtain ⟨hc, hrest⟩ := List.forall_mem_cons.1 hone
    rw [splitColumns, hc]
    cases room with
    | zero => rw [if_neg (by omega), List.take_zero, List.drop_zero]
    | succ room => rw [if_pos (by omega), Nat.add_sub_cancel, ih hrest, List.take_succ_cons, List.drop_succ_cons]

/-! ### Bare texts -/

theorem exists_eq_bare_append (cs : List Char) : ∃ blanks, cs = bare cs ++ blanks ∧ ∀ c ∈ blanks, isBlank c :=
  exists_eq_dropTrailing_append isBlank cs

theorem bare_append_blanks (hblanks : ∀ c ∈ blanks, isBlank c) : bare (cs ++ blanks) = bare cs :=
  dropTrailing_append_of_pos hblanks

/-- Blanks are dropped no further than to a character that is none. -/
theorem bare_append (hleft : ∀ c ∈ left.getLast?, isBlank c = false) (right : List Char) :
    bare (left ++ right) = left ++ bare right := dropTrailing_append hleft right

theorem bare_bare (cs : List Char) : bare (bare cs) = bare cs := by
  obtain ⟨blanks, hcs, hblanks⟩ := exists_eq_bare_append cs
  calc bare (bare cs) = bare (bare cs ++ blanks) := (bare_append_blanks hblanks).symm
    _ = bare cs := by rw [← hcs]

theorem bare_crop (width : Nat) (line : List Char) : bare (crop width line) = bare line := by
  obtain ⟨blanks, hline, hblanks⟩ := exists_eq_bare_append line
  have hkept : crop width line = bare line ++ blanks.take (max width (bare line).length - (bare line).length) := by
    calc crop width line = (bare line ++ blanks).take (max width (bare line).length) := by rw [crop, ← hline]
      _ = _ := by rw [List.take_append, List.take_of_length_le (Nat.le_max_right _ _)]
  rw [hkept, bare_append_blanks fun c hc => hblanks c (List.mem_of_mem_take hc), bare_bare]

theorem columns_bare_le (cs : List Char) : columns (bare cs) ≤ columns cs := by
  obtain ⟨blanks, hcs, -⟩ := exists_eq_bare_append cs
  calc columns (bare cs) ≤ columns (bare cs) + columns blanks := Nat.le_add_right _ _
    _ = columns (bare cs ++ blanks) := (columns_append _ _).symm
    _ = columns cs := by rw [← hcs]

theorem columns_bare_append_le (left right : List Char) :
    columns (bare (left ++ right)) ≤ columns left + columns (bare right) := by
  obtain ⟨blanks, hright, hblanks⟩ := exists_eq_bare_append right
  calc columns (bare (left ++ right)) = columns (bare (left ++ bare right ++ blanks)) := by
        rw [List.append_assoc, ← hright]
    _ = columns (bare (left ++ bare right)) := by rw [bare_append_blanks hblanks]
    _ ≤ columns (left ++ bare right) := columns_bare_le _
    _ = columns left + columns (bare right) := columns_append _ _

/-! ### The width of lines -/

theorem columns_cut_le (hwidth : 1 < width) (cs : List Char) :
    (∀ piece ∈ (cut width cs).1, columns piece ≤ width) ∧ columns (cut width cs).2 ≤ width := by
  fun_induction cut width cs with
  | case1 cs hlong pieces last hcut ih =>
    rw [hcut] at ih
    exact ⟨List.forall_mem_cons.2 ⟨columns_splitColumns_le width cs, ih.1⟩, ih.2⟩
  | case2 cs hshort => exact ⟨by simp, Nat.le_of_not_lt fun hlong => hshort ⟨hwidth, hlong⟩⟩

/-- Apart from blanks at its end, no line is wider than it may be. -/
theorem columns_bare_le_of_mem_place (hwidth : 1 < width) {parts : List (List Char)} (hline : columns (bare line) ≤ width) :
    ∀ placed ∈ place width line parts, columns (bare placed) ≤ width := by
  fun_induction place width line parts with
  | case1 line => simpa using hline
  | case2 line word more hfits ih => exact ih ((columns_bare_append_le line word).trans hfits)
  | case3 line word more hlong hfits ih => exact List.forall_mem_cons.2 ⟨hline, ih hfits⟩
  | case4 line word more hlong hwide pieces last hcut before ih =>
    obtain ⟨hpieces, hlast⟩ := columns_cut_le hwidth word
    rw [hcut] at hpieces hlast
    have hbefore : ∀ placed ∈ before, columns (bare placed) ≤ width := by
      intro placed hplaced
      by_cases hnil : line = []
      · simp [before, hnil] at hplaced
      · simp only [before, hnil, if_false, List.mem_singleton] at hplaced
        rwa [hplaced]
    refine List.forall_mem_append.2 ⟨List.forall_mem_append.2 ⟨hbefore, ?_⟩, ih ((columns_bare_le last).trans hlast)⟩
    exact fun piece hpiece => (columns_bare_le piece).trans (hpieces piece hpiece)

/-! ### Words -/

/-- Whether two neighbouring characters are of one word, with the blanks behind it. -/
def inWord (left right : Char) : Bool := !isBlank left || isBlank right

theorem words_eq_splitBy (hhead : ∀ c ∈ cs.head?, isBlank c = false) : words cs = cs.splitBy inWord := by
  have hsplit : cs.splitBy (fun left right => !isBlank left || isBlank right) = cs.splitBy inWord := rfl
  unfold words
  rw [hsplit]
  split
  · rename_i lead word more hlead
    have hsome : lead ≠ [] := List.ne_nil_of_mem_splitBy (hlead ▸ List.mem_cons_self)
    obtain ⟨first, rest, rfl⟩ := List.exists_cons_of_ne_nil hsome
    have hfirst : isBlank first = false := by
      refine hhead first ?_
      rw [← List.flatten_splitBy inWord cs, hlead]
      rfl
    rw [if_neg (by simp [hfirst]), hlead]
  · rfl

/-- A text without blanks, and on either side of it a blank or nothing. -/
structure IsWord (before word after : List Char) : Prop where
  ne_nil : word ≠ []
  not_isBlank : ∀ c ∈ word, isBlank c = false
  isBlank_before : ∀ c ∈ before.getLast?, isBlank c
  isBlank_behind : ∀ c ∈ after.head?, isBlank c

theorem isChain_inWord {word : List Char} (hword : ∀ c ∈ word, isBlank c = false) (hblanks : ∀ c ∈ blanks, isBlank c) :
    (word ++ blanks).IsChain fun left right => inWord left right := by
  apply List.Pairwise.isChain
  refine List.pairwise_append.2 ⟨?_, ?_, ?_⟩
  · exact List.pairwise_of_forall_mem_list fun left hleft right _ => by simp [inWord, hword left hleft]
  · exact List.pairwise_of_forall_mem_list fun left _ right hright => by simp [inWord, hblanks right hright]
  · exact fun left hleft right _ => by simp [inWord, hword left hleft]

/-- A word makes one of the words that are placed, with the blanks behind it. -/
theorem IsWord.exists_words {before word after : List Char} (hword : IsWord before word after)
    (hhead : ∀ c ∈ (before ++ word ++ after).head?, isBlank c = false) : ∃ front blanks back,
      words (before ++ word ++ after) = front ++ (word ++ blanks) :: back ∧ (∀ c ∈ blanks, isBlank c) ∧
        front.flatten = before ∧ blanks ++ back.flatten = after := by
  obtain ⟨blanks, rest, hafter, hblanks, hrest⟩ : ∃ blanks rest, after = blanks ++ rest ∧ (∀ c ∈ blanks, isBlank c) ∧
      ∀ c ∈ rest.head?, isBlank c = false := by
    refine ⟨after.takeWhile isBlank, after.dropWhile isBlank, List.takeWhile_append_dropWhile.symm,
      fun c hc => List.mem_takeWhile_imp hc, fun c hc => ?_⟩
    have hnot := List.head?_dropWhile_not isBlank after
    rw [hc] at hnot
    simpa using hnot
  have hlastBlank (x : Char) (hx : x ∈ (word ++ blanks).getLast?) (y : Char) (hy : y ∈ rest.head?) :
      inWord x y = false := by
    have hnonempty : blanks ≠ [] := by
      rintro rfl
      have hblank := hword.isBlank_behind y (hafter ▸ hy)
      rw [hrest y hy] at hblank
      exact Bool.false_ne_true hblank
    rw [List.getLast?_append_of_ne_nil _ hnonempty] at hx
    simp [inWord, hblanks x (List.mem_of_getLast? hx), hrest y hy]
  have hfirstBlank (x : Char) (hx : x ∈ before.getLast?) (y : Char) (hy : y ∈ (word ++ blanks ++ rest).head?) :
      inWord x y = false := by
    obtain ⟨first, others, rfl⟩ := List.exists_cons_of_ne_nil hword.ne_nil
    obtain rfl := Option.some.inj hy
    simp [inWord, hword.isBlank_before x hx, hword.not_isBlank first List.mem_cons_self]
  have hchunk : (word ++ blanks).splitBy inWord = [word ++ blanks] :=
    List.splitBy_of_isChain (List.append_ne_nil_of_left_ne_nil hword.ne_nil _) (isChain_inWord hword.not_isBlank hblanks)
  refine ⟨before.splitBy inWord, blanks, rest.splitBy inWord, ?_, hblanks, List.flatten_splitBy _ _, ?_⟩
  · rw [words_eq_splitBy hhead, hafter, List.append_assoc, ← List.append_assoc word, List.splitBy_append hfirstBlank,
      List.splitBy_append hlastBlank, hchunk]
    rfl
  · rw [List.flatten_splitBy, hafter]

theorem flatten_words (cs : List Char) : (words cs).flatten = cs := by
  have hsplit : (cs.splitBy fun left right => !isBlank left || isBlank right).flatten = cs := List.flatten_splitBy _ _
  unfold words
  split
  · rename_i lead word more hlead
    rw [hlead] at hsplit
    split
    · rwa [List.flatten_cons, List.append_assoc, ← List.flatten_cons, ← List.flatten_cons]
    · exact hsplit
  · exact hsplit

/-! ### Words on lines -/

/-- Placing some words leaves lines that are done and a line that has been begun, whatever words follow. -/
theorem exists_place_append (width : Nat) (line : List Char) (front : List (List Char)) : ∃ done begun,
    done.flatten ++ begun = line ++ front.flatten ∧
      ∀ rest, place width line (front ++ rest) = done ++ place width begun rest := by
  fun_induction place width line front with
  | case1 line => exact ⟨[], line, by simp, fun rest => rfl⟩
  | case2 line word more hfits ih =>
    obtain ⟨done, begun, hkept, hplace⟩ := ih
    refine ⟨done, begun, ?_, fun rest => ?_⟩
    · rw [hkept, List.flatten_cons, List.append_assoc]
    · rw [List.cons_append, place, if_pos hfits, hplace]
  | case3 line word more hlong hfits ih =>
    obtain ⟨done, begun, hkept, hplace⟩ := ih
    refine ⟨line :: done, begun, ?_, fun rest => ?_⟩
    · rw [List.flatten_cons, List.append_assoc, hkept, List.flatten_cons]
    · rw [List.cons_append, place, if_neg hlong, if_pos hfits, hplace]
      rfl
  | case4 line word more hlong hwide pieces last hcut before ih =>
    obtain ⟨done, begun, hkept, hplace⟩ := ih
    refine ⟨before ++ pieces ++ done, begun, ?_, fun rest => ?_⟩
    · have hpieces := flatten_cut width word
      rw [hcut] at hpieces
      have hbefore : before.flatten = line := by
        by_cases hline : line = [] <;> simp [before, hline]
      simp only [List.flatten_append, List.append_assoc, hkept, hbefore, List.flatten_cons, ← hpieces]
    · rw [List.cons_append, place, if_neg hlong, if_neg hwide, hcut]
      dsimp only
      rw [hplace, List.append_assoc _ done]

/-- A line that has been begun is the beginning of a line. -/
theorem exists_place_eq_cons (hline : line ≠ []) (parts : List (List Char)) : ∃ more back,
    place width line parts = (line ++ more) :: back ∧ more ++ back.flatten = parts.flatten := by
  fun_induction place width line parts with
  | case1 line => exact ⟨[], [], by simp, rfl⟩
  | case2 line word rest hfits ih =>
    obtain ⟨more, back, hplace, hkept⟩ := ih (List.append_ne_nil_of_left_ne_nil hline _)
    refine ⟨word ++ more, back, ?_, ?_⟩
    · rw [hplace, List.append_assoc]
    · rw [List.append_assoc, hkept, List.flatten_cons]
  | case3 line word rest hlong hfits ih =>
    refine ⟨[], place width word rest, by rw [List.append_nil], ?_⟩
    rw [List.nil_append, flatten_place, List.flatten_cons]
  | case4 line word rest hlong hwide pieces last hcut before ih =>
    have hpieces := flatten_cut width word
    rw [hcut] at hpieces
    refine ⟨[], pieces ++ place width last rest, ?_, ?_⟩
    · simp [before, hline]
    · simp only [List.nil_append, List.flatten_append, flatten_place, List.flatten_cons, ← hpieces, List.append_assoc]

/-- A word that is no wider than a line stands on one line, between what precedes and what follows it. -/
theorem IsWord.exists_line {before word after : List Char} (hword : IsWord before word after)
    (hhead : ∀ c ∈ (before ++ word ++ after).head?, isBlank c = false) (hwidth : columns word ≤ width) :
    ∃ front left right back, place width [] (words (before ++ word ++ after)) = front ++ (left ++ word ++ right) :: back ∧
      front.flatten ++ left = before ∧ right ++ back.flatten = after := by
  obtain ⟨chunks, blanks, others, hwords, hblanks, rfl, rfl⟩ := hword.exists_words hhead
  obtain ⟨done, begun, hkept, hplace⟩ := exists_place_append width [] chunks
  have hbare : columns (bare (word ++ blanks)) ≤ width := by
    rw [bare_append_blanks hblanks]
    exact (columns_bare_le word).trans hwidth
  have hbegun (line : List Char) : ∃ more back,
      place width (line ++ (word ++ blanks)) others = (line ++ word ++ (blanks ++ more)) :: back ∧
        more ++ back.flatten = others.flatten := by
    have hsome : line ++ (word ++ blanks) ≠ [] :=
      List.append_ne_nil_of_right_ne_nil _ (List.append_ne_nil_of_left_ne_nil hword.ne_nil _)
    obtain ⟨more, back, hline, hmore⟩ := exists_place_eq_cons hsome others
    exact ⟨more, back, by rw [hline]; simp only [List.append_assoc], hmore⟩
  rw [hwords, hplace, place]
  by_cases hfits : columns begun + columns (bare (word ++ blanks)) ≤ width
  · rw [if_pos hfits]
    obtain ⟨more, back, hline, hmore⟩ := hbegun begun
    refine ⟨done, begun, blanks ++ more, back, by rw [hline], hkept, ?_⟩
    rw [List.append_assoc, hmore]
  · rw [if_neg hfits, if_pos hbare]
    obtain ⟨more, back, hline, hmore⟩ := hbegun []
    refine ⟨done ++ [begun], [], blanks ++ more, back, ?_, ?_, ?_⟩
    · rw [List.nil_append] at hline
      rw [hline, List.append_assoc done]
      rfl
    · rw [List.flatten_concat, List.append_nil, hkept, List.nil_append]
    · rw [List.append_assoc, hmore]

/-! ### Texts without blanks -/

theorem length_cut (hwidth : 1 < width) (hone : ∀ c ∈ cs, columnsOf c = 1) :
    (cut width cs).1.length = (cs.length - 1) / width := by
  fun_induction cut width cs with
  | case1 cs hlong pieces last hcut ih =>
    rw [splitColumns_of_one hone] at ih hcut
    rw [columns_eq_length hone] at hlong
    have hrest := ih fun c hc => hone c (List.mem_of_mem_drop hc)
    rw [hcut, List.length_drop] at hrest
    have hlength : cs.length - 1 = cs.length - width - 1 + width := by omega
    rw [List.length_cons, hrest, hlength, Nat.add_div_right _ (Nat.zero_lt_of_lt hwidth)]
  | case2 cs hshort =>
    rw [columns_eq_length hone] at hshort
    rw [List.length_nil, Nat.div_eq_of_lt (by omega)]

/-- A text without blanks is cut into lines of which only the last may have room left. -/
theorem length_place_words (hwidth : 1 < width) (hsome : cs ≠ []) (hblank : ∀ c ∈ cs, isBlank c = false)
    (hone : ∀ c ∈ cs, columnsOf c = 1) : (place width [] (words cs)).length = (cs.length - 1) / width + 1 := by
  have hhead : ∀ c ∈ cs.head?, isBlank c = false := fun c hc => hblank c (List.mem_of_mem_head? hc)
  have hbare : bare cs = cs := by
    have hnil := bare_append (fun c hc => hblank c (List.mem_of_getLast? hc)) []
    rwa [List.append_nil, show bare [] = [] from rfl, List.append_nil] at hnil
  have hchunk : words cs = [cs] := by
    have hchain := isChain_inWord hblank (List.forall_mem_nil _)
    rw [List.append_nil] at hchain
    rw [words_eq_splitBy hhead, List.splitBy_of_isChain hsome hchain]
  have hcolumns : columns [] + columns cs = cs.length := by
    rw [columns_eq_length hone]
    exact Nat.zero_add _
  rw [hchunk, place, hbare, hcolumns]
  by_cases hfits : cs.length ≤ width
  · rw [if_pos hfits, Nat.div_eq_of_lt (by omega)]
    rfl
  · rw [if_neg hfits, columns_eq_length hone, if_neg hfits, ← length_cut hwidth hone]
    simp [place]

end Reckoner.Text
