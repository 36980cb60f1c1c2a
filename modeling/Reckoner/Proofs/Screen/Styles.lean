import Reckoner.Proofs.Screen.Drawing

/-!
# Styles in the drawing

A styled drawing read as a terminal reads it, character by character, with no knowledge of the spans that it is made of. Without
its escape sequences it is the plain drawing, and a style that begins ends on the same line, before another one begins. A console
is only known to be as it is documented, and all of this follows from the way in which it puts texts together, since the texts of
a session hold no escape character and no end of a line.
-/

namespace Reckoner

open Style (closing)

namespace Terminal

/-- What a terminal takes from a text at once: a character to show or the codes of an escape sequence. -/
inductive Piece
  | shown (c : Char)
  | sequence (codes : List Char)

/-- The codes of the escape sequence that a text begins with, and what stands behind it. -/
def sequence? : List Char → Option (List Char × List Char)
  | '\x1B' :: '[' :: rest =>
    match rest.dropWhile isCode with
    | 'm' :: behind => some (rest.takeWhile isCode, behind)
    | _ => none
  | _ => none

theorem length_of_sequence? {cs codes behind : List Char} (hcs : sequence? cs = some (codes, behind)) :
    behind.length < cs.length := by
  unfold sequence? at hcs
  split at hcs
  · rename_i rest
    have hdrop := (List.dropWhile_suffix (l := rest) isCode).length_le
    split at hcs
    · rename_i behind' hbehind
      obtain ⟨-, rfl⟩ := Prod.mk.inj (Option.some.inj hcs)
      rw [hbehind, List.length_cons] at hdrop
      simp only [List.length_cons]
      omega
    · exact absurd hcs (by simp)
  · exact absurd hcs (by simp)

def pieces : List Char → List Piece
  | [] => []
  | c :: rest =>
    match _ : sequence? (c :: rest) with
    | some (codes, behind) => .sequence codes :: pieces behind
    | none => .shown c :: pieces rest
termination_by cs => cs.length
decreasing_by
  · exact length_of_sequence? ‹_›
  · exact Nat.lt_succ_self _

def Piece.shown? : Piece → Option Char
  | shown c => some c
  | sequence _ => none

def Piece.codes? : Piece → Option (List Char)
  | shown _ => none
  | sequence codes => some codes

/-- A text without its escape sequences. -/
def withoutSequences (cs : List Char) : List Char := (pieces cs).filterMap Piece.shown?

/-- The codes of the escape sequences of a text. -/
def codesIn (cs : List Char) : List (List Char) := (pieces cs).filterMap Piece.codes?

/-- The codes of the style in which a text behind this one would be shown. -/
def inForce (cs : List Char) : Option (List Char) := (codesIn cs).getLast?.filter (· != closing)

variable {c : Char} {codes text rest styled plain : List Char} {all : List (List Char)}

/-! ### Reading -/

theorem sequence?_sequence (hcodes : ∀ c ∈ codes, isCode c) (rest : List Char) :
    sequence? (escapeSequence codes ++ rest) = some (codes, rest) := by
  have hm : isCode 'm' = false := by decide
  have hbehind : codes ++ ['m'] ++ rest = codes ++ 'm' :: rest := by rw [List.append_assoc]; rfl
  rw [escapeSequence, List.cons_append, List.cons_append, hbehind, sequence?]
  rw [List.dropWhile_append_of_pos hcodes, List.dropWhile_cons_of_neg (by simp [hm])]
  rw [List.takeWhile_append_of_pos hcodes, List.takeWhile_cons_of_neg (by simp [hm]), List.append_nil]
  rfl

theorem sequence?_of_ne (hc : c ≠ '\x1B') (rest : List Char) : sequence? (c :: rest) = none := by
  unfold sequence?
  split
  · rename_i heq
    exact absurd (List.cons.inj heq).1 hc
  · rfl

theorem pieces_sequence (hcodes : ∀ c ∈ codes, isCode c) (rest : List Char) :
    pieces (escapeSequence codes ++ rest) = .sequence codes :: pieces rest := by
  have hread := sequence?_sequence hcodes rest
  rw [escapeSequence, List.cons_append] at hread ⊢
  rw [pieces]
  split
  · rename_i codes' behind hfound
    obtain ⟨rfl, rfl⟩ := Prod.mk.inj (Option.some.inj (hread.symm.trans hfound))
    rfl
  · rename_i hfound
    exact absurd (hread.symm.trans hfound) (by simp)

theorem pieces_cons (hc : c ≠ '\x1B') (rest : List Char) : pieces (c :: rest) = .shown c :: pieces rest := by
  have hread := sequence?_of_ne hc rest
  rw [pieces]
  split
  · rename_i hfound
    exact absurd (hread.symm.trans hfound) (by simp)
  · rfl

theorem pieces_append (htext : ∀ c ∈ text, c ≠ '\x1B') (rest : List Char) :
    pieces (text ++ rest) = text.map .shown ++ pieces rest := by
  induction text with
  | nil => rfl
  | cons c text ih =>
    obtain ⟨hc, htext⟩ := List.forall_mem_cons.1 htext
    rw [List.cons_append, pieces_cons hc, ih htext]
    rfl

/-! ### Texts in which all styles end -/

/-- A character that is shown in its place, which is neither an escape character nor the end of a line. -/
def isClean (c : Char) : Bool := c != '\x1B' && c != '\n'

/-- A text in which a style ends before another one begins and before the end of its line; with what it shows and the codes of
all of its escape sequences. -/
inductive Tidy : List Char → List Char → List (List Char) → Prop
  | nil : Tidy [] [] []
  | char {c : Char} {styled plain : List Char} {all : List (List Char)} (hc : c ≠ '\x1B')
      (hrest : Tidy styled plain all) : Tidy (c :: styled) (c :: plain) all
  | span {codes text styled plain : List Char} {all : List (List Char)} (hcodes : ∀ c ∈ codes, isCode c)
      (hopens : codes ≠ closing) (htext : text.all isClean) (hrest : Tidy styled plain all) :
      Tidy (escapeSequence codes ++ (text ++ (escapeSequence closing ++ styled))) (text ++ plain) (codes :: closing :: all)

theorem isCode_of_mem_closing : ∀ c ∈ closing, isCode c := List.forall_mem_singleton.2 (by decide)

theorem ne_escape_of_clean (htext : text.all isClean) : ∀ c ∈ text, c ≠ '\x1B' := by
  rintro c hc rfl
  exact absurd (List.all_eq_true.1 htext _ hc) (by decide)

theorem pieces_span (hcodes : ∀ c ∈ codes, isCode c) (htext : text.all isClean) (rest : List Char) :
    pieces (escapeSequence codes ++ (text ++ (escapeSequence closing ++ rest))) =
      .sequence codes :: (text.map .shown ++ .sequence closing :: pieces rest) := by
  rw [pieces_sequence hcodes, pieces_append (ne_escape_of_clean htext), pieces_sequence isCode_of_mem_closing]

theorem withoutSequences_cons (hc : c ≠ '\x1B') (rest : List Char) :
    withoutSequences (c :: rest) = c :: withoutSequences rest := by
  rw [withoutSequences, pieces_cons hc]
  rfl

theorem withoutSequences_span (hcodes : ∀ c ∈ codes, isCode c) (htext : text.all isClean) (rest : List Char) :
    withoutSequences (escapeSequence codes ++ (text ++ (escapeSequence closing ++ rest))) = text ++ withoutSequences rest := by
  have hshown : (text.map Piece.shown).filterMap Piece.shown? = text := by
    rw [List.filterMap_map]
    exact List.filterMap_some
  rw [withoutSequences, pieces_span hcodes htext]
  show (text.map Piece.shown ++ .sequence closing :: pieces rest).filterMap Piece.shown? = _
  rw [List.filterMap_append, hshown]
  rfl

theorem codesIn_cons (hc : c ≠ '\x1B') (rest : List Char) : codesIn (c :: rest) = codesIn rest := by
  rw [codesIn, pieces_cons hc]
  rfl

theorem codesIn_span (hcodes : ∀ c ∈ codes, isCode c) (htext : text.all isClean) (rest : List Char) :
    codesIn (escapeSequence codes ++ (text ++ (escapeSequence closing ++ rest))) = codes :: closing :: codesIn rest := by
  have hnone : (text.map Piece.shown).filterMap Piece.codes? = [] := by
    rw [List.filterMap_map]
    exact List.filterMap_eq_nil_iff.2 fun _ _ => rfl
  rw [codesIn, pieces_span hcodes htext]
  show codes :: (text.map Piece.shown ++ .sequence closing :: pieces rest).filterMap Piece.codes? = _
  rw [List.filterMap_append, hnone]
  rfl

/-! ### Escape sequences in a text -/

/-- In a text that begins with an escape sequence, another one is this one or begins behind it. -/
theorem sequence_append_cases {first before after : List Char} (hfirst : ∀ c ∈ first, isCode c)
    (hcodes : ∀ c ∈ codes, isCode c) (hsplit : escapeSequence first ++ rest = before ++ (escapeSequence codes ++ after)) :
    (before = [] ∧ first = codes ∧ rest = after) ∨
      ∃ more, before = escapeSequence first ++ more ∧ rest = more ++ (escapeSequence codes ++ after) := by
  cases before with
  | nil =>
    have hread := congrArg sequence? hsplit
    rw [List.nil_append, sequence?_sequence hfirst, sequence?_sequence hcodes] at hread
    exact .inl ⟨rfl, Prod.mk.inj (Option.some.inj hread)⟩
  | cons d before =>
    have hnot : '\x1B' ∉ '[' :: (first ++ ['m']) := by
      have hcodes : '\x1B' ∉ first := fun hmem => absurd (hfirst _ hmem) (by decide)
      simp [hcodes]
    obtain ⟨rfl, hbehind⟩ := List.cons.inj hsplit
    obtain ⟨more, rfl, hrest⟩ := Markup.exists_eq_append_of_notMem hnot hbehind
    exact .inr ⟨more, rfl, hrest⟩

namespace Tidy

theorem append {others : List Char} {othersPlain : List Char} {othersAll : List (List Char)} (hfirst : Tidy styled plain all)
    (hrest : Tidy others othersPlain othersAll) : Tidy (styled ++ others) (plain ++ othersPlain) (all ++ othersAll) := by
  induction hfirst with
  | nil => exact hrest
  | char hc _ ih => exact .char hc ih
  | span hcodes hopens htext _ ih =>
    simp only [List.append_assoc, List.cons_append]
    exact .span hcodes hopens htext ih

theorem withoutSequences_eq (htidy : Tidy styled plain all) : withoutSequences styled = plain := by
  induction htidy with
  | nil => simp [withoutSequences, pieces]
  | char hc _ ih => rw [withoutSequences_cons hc, ih]
  | span hcodes _ htext _ ih => rw [withoutSequences_span hcodes htext, ih]

theorem codesIn_eq (htidy : Tidy styled plain all) : codesIn styled = all := by
  induction htidy with
  | nil => simp [codesIn, pieces]
  | char hc _ ih => rw [codesIn_cons hc, ih]
  | span hcodes _ htext _ ih => rw [codesIn_span hcodes htext, ih]

/-- Every style that begins ends before another one begins and before the end of its line. -/
theorem exists_closing (htidy : Tidy styled plain all) {before after : List Char} (hcodes : ∀ c ∈ codes, isCode c)
    (hopens : codes ≠ closing) (hstyled : styled = before ++ (escapeSequence codes ++ after)) : ∃ shown behind,
      after = shown ++ (escapeSequence closing ++ behind) ∧ '\x1B' ∉ shown ∧ '\n' ∉ shown := by
  induction htidy generalizing before with
  | nil => exact absurd hstyled (by simp [escapeSequence])
  | char hc _ ih =>
    cases before with
    | nil => exact absurd (List.cons.inj hstyled).1 hc
    | cons d before => exact ih (List.cons.inj hstyled).2
  | @span first text styled _ _ hfirst _ htext _ ih =>
    have hclean (c : Char) (hc : isClean c = false) : c ∉ text := fun hmem => by
      simpa [hc] using List.all_eq_true.1 htext c hmem
    rcases sequence_append_cases hfirst hcodes hstyled with ⟨-, -, hafter⟩ | ⟨more, -, hbehind⟩
    · exact ⟨text, styled, hafter.symm, hclean _ (by decide), hclean _ (by decide)⟩
    · obtain ⟨more, -, hnext⟩ := Markup.exists_eq_append_of_notMem (hclean _ (by decide)) hbehind
      rcases sequence_append_cases isCode_of_mem_closing hcodes hnext with ⟨-, hclosing, -⟩ | ⟨more, -, hrest⟩
      · exact absurd hclosing.symm hopens
      · exact ih hrest

/-- At the end of a line no style is in force. -/
theorem inForce_of_feed (htidy : Tidy styled plain all) {before after : List Char} (hstyled : styled = before ++ '\n' :: after) :
    inForce before = none := by
  induction htidy generalizing before with
  | nil => exact absurd hstyled (by simp)
  | char hc _ ih =>
    cases before with
    | nil => simp [inForce, codesIn, pieces]
    | cons d before =>
      obtain ⟨rfl, hrest⟩ := List.cons.inj hstyled
      rw [inForce, codesIn_cons hc, ← inForce, ih hrest]
  | @span codes text styled _ _ hcodes _ htext _ ih =>
    have hfeed : '\n' ∉ escapeSequence codes ++ text ++ escapeSequence closing := by
      have hcode : '\n' ∉ codes := fun hmem => absurd (hcodes _ hmem) (by decide)
      have htext : '\n' ∉ text := fun hmem => absurd (List.all_eq_true.1 htext _ hmem) (by decide)
      simp [escapeSequence, closing, hcode, htext]
    have hsplit : escapeSequence codes ++ text ++ escapeSequence closing ++ styled = before ++ '\n' :: after := by
      rw [← hstyled, List.append_assoc, List.append_assoc]
    obtain ⟨more, rfl, hrest⟩ := Markup.exists_eq_append_of_notMem hfeed hsplit
    have hmore := ih hrest
    rw [List.append_assoc, List.append_assoc, inForce, codesIn_span hcodes htext, List.getLast?_cons_cons]
    rw [inForce] at hmore
    cases hlast : codesIn more with
    | nil => rfl
    | cons first others => rwa [List.getLast?_cons_cons, ← hlast]

theorem inForce_eq_none (htidy : Tidy styled plain all) : inForce styled = none :=
  (htidy.append (.char (by decide) .nil)).inForce_of_feed rfl

end Tidy

end Terminal

open Terminal Text

/-! ### Spans and lines -/

/-- The codes that are sent for some styles, each of which ends before the next one begins. -/
def Terminal.codesOf (codes : Style → List Char) (styles : List Style) : List (List Char) :=
  styles.flatMap fun style => [codes style, closing]

theorem Terminal.codesOf_append (codes : Style → List Char) (left right : List Style) :
    codesOf codes (left ++ right) = codesOf codes left ++ codesOf codes right := List.flatMap_append

theorem Terminal.tidy_of_clean {text : List Char} (htext : text.all isClean) : Tidy text text [] := by
  induction text with
  | nil => exact .nil
  | cons c text ih =>
    have hescape := ne_escape_of_clean htext c List.mem_cons_self
    rw [List.all_cons, Bool.and_eq_true] at htext
    exact .char hescape (ih htext.2)

/-- A kind of characters to which neither an escape character nor the end of a line belongs. -/
theorem Terminal.isClean_of {p : Char → Bool} {c : Char} (hescape : p '\x1B' = false) (hfeed : p '\n' = false) (hc : p c) :
    isClean c := by
  have hne {d : Char} (hd : p d = false) : c ≠ d := by
    rintro rfl
    exact absurd hc (by simp [hd])
  simp [isClean, hne hescape, hne hfeed]

/-- Characters that can be shown on a line. -/
def Span.Clean (span : Span) : Prop := span.text.all isClean

namespace Console.Lawful

variable {console : Console} (hconsole : console.Lawful)

include hconsole

theorem tidy_span {span : Span} (hspan : span.Clean) :
    Tidy (span.styled console.codes) span.plain (codesOf console.codes span.visible?.toList) := by
  unfold Span.styled
  cases span.visible? with
  | none => exact tidy_of_clean hspan
  | some style =>
    have htidy := Tidy.span (hconsole.isCode_of_mem_codes style) (hconsole.codes_ne_closing style) hspan .nil
    rwa [List.append_nil, List.append_nil] at htidy

theorem tidy_line {line : Line} (hline : ∀ span ∈ line, span.Clean) :
    Tidy (line.styled console.codes) line.plain (codesOf console.codes (line.filterMap Span.visible?)) := by
  induction line with
  | nil => exact .nil
  | cons span more ih =>
    obtain ⟨hspan, hmore⟩ := List.forall_mem_cons.1 hline
    have hstyles : (span :: more).filterMap Span.visible? = span.visible?.toList ++ more.filterMap Span.visible? := by
      rw [List.filterMap_cons]
      cases span.visible? <;> rfl
    rw [hstyles, codesOf_append]
    exact (hconsole.tidy_span hspan).append (ih hmore)

/-- Lines one below the other. -/
theorem tidy_lines {lines : List Line} (hlines : ∀ line ∈ lines, ∀ span ∈ line, span.Clean) :
    Tidy (lines.flatMap fun line => line.styled console.codes ++ ['\n']) (lines.flatMap fun line => line.plain ++ ['\n'])
      (codesOf console.codes (lines.flatten.filterMap Span.visible?)) := by
  induction lines with
  | nil => exact .nil
  | cons line more ih =>
    obtain ⟨hline, hmore⟩ := List.forall_mem_cons.1 hlines
    have hfeed : Tidy ['\n'] ['\n'] [] := .char (by decide) .nil
    have htidy := ((hconsole.tidy_line hline).append hfeed).append (ih hmore)
    rw [List.append_nil, ← codesOf_append, ← List.filterMap_append, ← List.flatten_cons] at htidy
    exact htidy

/-- What is drawn of a plain table is taken from its texts, or it is a space or part of the box. -/
theorem clean_layOut {table : Table} (htable : table.Plain) : ∀ line ∈ console.layOut table, ∀ span ∈ line, span.Clean := by
  have hdrawn {c : Char} (hc : c ∈ (console.layOut table).flatMap Line.plain) : isClean c := by
    rcases mem_inked hc with rfl | hbox | hinked
    · decide
    · exact isClean_of (by decide) (by decide) hbox
    · rw [hconsole.inked_layOut table htable] at hinked
      obtain ⟨text, htext, hc⟩ := List.mem_flatten.1 (mem_of_mem_inked hinked)
      exact isClean_of (by decide) (by decide) ((htable.inert text htext).printable c hc)
  intro line hline span hspan
  exact List.all_eq_true.2 fun c hc =>
    hdrawn (List.mem_flatMap.2 ⟨line, hline, List.mem_flatMap.2 ⟨span, hspan, hc⟩⟩)

end Console.Lawful

/-- The ends of lines are the only line feeds. -/
theorem Terminal.filter_lines {lines : List Line} (hlines : ∀ line ∈ lines, ∀ span ∈ line, span.Clean) :
    (lines.flatMap fun line => line.plain ++ ['\n']).filter (· != '\n') = lines.flatMap Line.plain := by
  rw [List.filter_flatMap]
  refine List.flatMap_congr fun line hline => ?_
  have hfeed : '\n' ∉ line.plain := fun hmem => by
    obtain ⟨span, hspan, hc⟩ := List.mem_flatMap.1 hmem
    exact absurd (List.all_eq_true.1 (hlines line hline span hspan) _ hc) (by decide)
  rw [List.filter_append, List.filter_eq_self.2 fun c hc => by simpa using ne_of_mem_of_not_mem hc hfeed]
  exact List.append_nil _

/-! ### Drawings -/

namespace Drawing

theorem isBoxDrawing_of_isLegible {c : Char} (hlegible : isLegible c) : isBoxDrawing c = false := by
  rcases isLegible_iff.1 hlegible with hordinary | rfl | rfl | rfl
  · simp only [isOrdinary, Bool.and_eq_true, decide_eq_true_eq] at hordinary
    have hlow : ¬ 0x2500 ≤ c.toNat := by omega
    simp [isBoxDrawing, hlow]
  · decide
  · decide
  · decide

theorem inked_of_presentable {cs : List Char} (hcs : Presentable cs) : inked cs = withoutSpaces cs :=
  List.filter_eq_self.2 fun c hc => by
    rw [isBoxDrawing_of_isLegible (hcs.legible c (List.mem_filter.1 hc).1)]
    rfl

/-- The labels of the keys and what the caption says. -/
def labels (theme : Theme) : List (List Char) := (Session.new theme 0).table.texts.tail

theorem inert_of_mem_labels (theme : Theme) : ∀ text ∈ labels theme, Inert text := by
  have hlabels (theme : Theme) : (labels theme).all fun text => text.all isLegible && text.count ':' ≤ 1 := by
    cases theme <;> decide
  intro text htext
  obtain ⟨hlegible, hcount⟩ := Bool.and_eq_true_iff.1 (List.all_eq_true.1 (hlabels theme) text htext)
  exact inert_of_legible (List.all_eq_true.1 hlegible) (.of_count_le_one (by simpa using hcount))

theorem plain_table {session : Session} (hshown : Presentable (shown session.display)) : session.table.Plain where
  inert := List.forall_mem_cons.2 ⟨inert_of_legible hshown.legible hshown.apart, inert_of_mem_labels session.theme⟩
  rows_ne_nil := List.cons_ne_nil _ _
  columns_pos := by
    show 0 < (Key.layout.headD []).length
    decide
  length_row := by
    have hrows (theme : Theme) : ∀ cells ∈ (Session.new theme 0).table.rows, cells.length = 4 := by
      cases theme <;> decide
    exact hrows session.theme
  width_le := by
    show (Key.layout.headD []).length * (Table.cellWidth + 1) + 1 ≤ 60
    decide
  length_cell := by
    have hrows (theme : Theme) : ∀ cells ∈ (Session.new theme 0).table.rows, ∀ cell ∈ cells, cell.text.length ≤ 5 := by
      cases theme <;> decide
    exact hrows session.theme

theorem inked_labels (theme : Theme) :
    inked (labels theme).flatten = "789/456*123-0.=+theme:".toList ++ theme.switchLabel.toList := by
  cases theme <;> decide

end Drawing

end Reckoner
