import Reckoner.Proofs.Screen.Paragraph
import Reckoner.Proofs.Text.Digits
import Reckoner.Proofs.Text.Spaces
import Reckoner.Screen.Console

/-!
# What consoles do

What is documented of a console: a table of texts that mean nothing to mark-up, and that has room, is drawn with these texts, one
after the other, with spaces and the characters of boxes between them. It is printed line by line and span by span, and with
styles each span stands between the escape sequence for its style and the one that ends all styles. The terminal is such a
console.
-/

namespace Reckoner

open Text

/-! ### Tables of plain texts -/

/-- Printing characters of one column each that mean nothing to mark-up. -/
structure Inert (cs : List Char) : Prop where
  printable : ∀ c ∈ cs, isPrintable c
  one : ∀ c ∈ cs, columnsOf c = 1
  bracket : '[' ∉ cs
  apart : Markup.Apart cs

/-- A character that boxes are drawn with. -/
def isBoxDrawing (c : Char) : Bool := 0x2500 ≤ c.toNat && c.toNat ≤ 0x257F

/-- What is written among the spaces and the boxes of a text. -/
def inked (cs : List Char) : List Char := (withoutSpaces cs).filter (!isBoxDrawing ·)

namespace Table

/-- The texts of a table in the order in which they are drawn. -/
def texts (table : Table) : List (List Char) := table.title :: (table.rows.flatten.map Cell.text ++ [table.caption])

/-- A table of inert texts that has room on a console of sixty columns, and in whose columns the texts of the cells have room. -/
structure Plain (table : Table) : Prop where
  inert : ∀ text ∈ table.texts, Inert text
  rows_ne_nil : table.rows ≠ []
  columns_pos : 0 < table.columns
  length_row : ∀ cells ∈ table.rows, cells.length = table.columns
  width_le : table.width ≤ 60
  length_cell : ∀ cells ∈ table.rows, ∀ cell ∈ cells, cell.text.length ≤ columnWidth

end Table

/-! ### Laws of consoles -/

/-- A digit or a semicolon, which are what the codes of a style are written with. -/
def isCode (c : Char) : Bool := c.isDigit || c == ';'

structure Console.Lawful (console : Console) : Prop where
  /-- What selects a style is written as codes are, and does not end it. -/
  isCode_of_mem_codes : ∀ style, ∀ c ∈ console.codes style, isCode c
  codes_ne_closing : ∀ style, console.codes style ≠ Style.closing
  /-- The texts of a table are drawn in order, and nothing else among the spaces and the box. -/
  inked_layOut : ∀ table, table.Plain → inked ((console.layOut table).flatMap Line.plain) = inked table.texts.flatten
  plain_eq : ∀ table, console.plain table = (console.layOut table).flatMap fun line => line.plain ++ ['\n']
  styled_eq : ∀ table, console.styled table =
    (console.layOut table).flatMap fun line => line.styled console.codes ++ ['\n']

/-! ### What is written on the terminal -/

variable {cs left right : List Char}

theorem inked_append (left right : List Char) : inked (left ++ right) = inked left ++ inked right := by
  rw [inked, withoutSpaces_append, List.filter_append]
  rfl

theorem inked_congr (heq : withoutSpaces left = withoutSpaces right) : inked left = inked right :=
  congrArg (List.filter (!isBoxDrawing ·)) heq

theorem inked_eq_nil (hcs : ∀ c ∈ cs, c = ' ' ∨ isBoxDrawing c) : inked cs = [] := by
  refine List.filter_eq_nil_iff.2 fun c hc => ?_
  obtain ⟨hmem, hspace⟩ := List.mem_filter.1 hc
  rcases hcs c hmem with rfl | hbox
  · exact absurd hspace (by decide)
  · simp [hbox]

theorem mem_inked {c : Char} (hc : c ∈ cs) : c = ' ' ∨ isBoxDrawing c ∨ c ∈ inked cs := by
  by_cases hspace : c = ' '
  · exact .inl hspace
  · cases hbox : isBoxDrawing c with
    | true => exact .inr (.inl rfl)
    | false => exact .inr (.inr (List.mem_filter.2 ⟨List.mem_filter.2 ⟨hc, by simpa using hspace⟩, by simp [hbox]⟩))

theorem mem_of_mem_inked {c : Char} (hc : c ∈ inked cs) : c ∈ cs := (List.mem_filter.1 (List.mem_filter.1 hc).1).1

theorem inked_flatMap {α : Type} {f g : α → List Char} {xs : List α} (hkept : ∀ x ∈ xs, inked (f x) = inked (g x)) :
    inked (xs.flatMap f) = inked (xs.flatMap g) := by
  induction xs with
  | nil => rfl
  | cons x more ih =>
    obtain ⟨hx, hmore⟩ := List.forall_mem_cons.1 hkept
    rw [List.flatMap_cons, List.flatMap_cons, inked_append, inked_append, hx, ih hmore]

theorem inked_intersperse {border : Line} (hborder : inked border.plain = []) (rows : List Line) :
    inked ((rows.intersperse border).flatMap Line.plain) = inked (rows.flatMap Line.plain) := by
  induction rows with
  | nil => rfl
  | cons row more ih =>
    cases more with
    | nil => rfl
    | cons next others =>
      have hrow : inked ((row :: next :: others).flatMap Line.plain) =
          inked row.plain ++ inked ((next :: others).flatMap Line.plain) := inked_append _ _
      rw [List.intersperse_cons_cons, List.flatMap_cons, List.flatMap_cons, inked_append, inked_append, hborder, ih, hrow,
        List.nil_append]

theorem forall_mem_flatten_intersperse {p : Char → Prop} {between : List Char} (hbetween : ∀ c ∈ between, p c)
    {parts : List (List Char)} (hparts : ∀ part ∈ parts, ∀ c ∈ part, p c) :
    ∀ c ∈ (parts.intersperse between).flatten, p c := by
  induction parts with
  | nil => exact List.forall_mem_nil _
  | cons part more ih =>
    obtain ⟨hpart, hmore⟩ := List.forall_mem_cons.1 hparts
    cases more with
    | nil =>
      rw [List.intersperse_singleton, List.flatten_singleton]
      exact hpart
    | cons next others =>
      rw [List.intersperse_cons_cons, List.flatten_cons, List.flatten_cons]
      exact List.forall_mem_append.2 ⟨hpart, List.forall_mem_append.2 ⟨hbetween, ih hmore⟩⟩

namespace Table

theorem withoutSpaces_flushRight (width : Nat) (text : List Char) :
    withoutSpaces (flushRight width text) = withoutSpaces text := by
  rw [flushRight, withoutSpaces_append, withoutSpaces_replicate, List.nil_append]

theorem withoutSpaces_centred (width : Nat) (text : List Char) :
    withoutSpaces (centred width text) = withoutSpaces text := by
  rw [centred, withoutSpaces_append, withoutSpaces_append, withoutSpaces_replicate, withoutSpaces_replicate, List.nil_append,
    List.append_nil]

theorem inked_border (columns : Nat) {left between right : Char} (hleft : isBoxDrawing left) (hbetween : isBoxDrawing between)
    (hright : isBoxDrawing right) : inked (border columns left between right) = [] := by
  have hcells : ∀ cell ∈ List.replicate columns (List.replicate cellWidth '─'), ∀ c ∈ cell, isBoxDrawing c := by
    intro cell hcell c hc
    rw [List.eq_of_mem_replicate hcell] at hc
    rw [List.eq_of_mem_replicate hc]
    decide
  have hinside := forall_mem_flatten_intersperse (List.forall_mem_singleton.2 hbetween) hcells
  refine inked_eq_nil fun c hc => .inr ?_
  rw [border, List.cons_append] at hc
  rcases List.mem_cons.1 hc with rfl | hc
  · exact hleft
  · exact List.forall_mem_append.2 ⟨hinside, List.forall_mem_singleton.2 hright⟩ c hc

theorem inked_cellLine {cell : Cell} (hcell : ∀ c ∈ cell.text, isPrintable c) : inked (cellLine cell).plain = inked cell.text := by
  apply inked_congr
  rw [← withoutSpaces_bare hcell, cellLine, Line.plain]
  simp only [List.flatMap_cons, List.flatMap_nil, Span.plain, withoutSpaces_append, withoutSpaces_replicate, List.nil_append,
    List.append_nil]

theorem inked_rowLine (style : Style) {cells : List Cell} (hcells : ∀ cell ∈ cells, ∀ c ∈ cell.text, isPrintable c) :
    inked (rowLine style cells).plain = inked (cells.flatMap Cell.text) := by
  let bar : Span := ⟨some style, ['│']⟩
  have hbar : inked bar.plain = [] := by
    show inked ['│'] = []
    decide
  have hcell : ∀ cell ∈ cells, inked ((cellLine cell ++ [bar]).flatMap Span.plain) = inked cell.text := by
    intro cell hcell
    rw [List.flatMap_append, List.flatMap_singleton, inked_append, hbar, List.append_nil]
    exact inked_cellLine (hcells cell hcell)
  rw [rowLine, Line.plain, List.flatMap_cons, inked_append, hbar, List.nil_append, List.flatMap_assoc, inked_flatMap hcell]

theorem inked_box {table : Table} (hcells : ∀ cells ∈ table.rows, ∀ cell ∈ cells, ∀ c ∈ cell.text, isPrintable c) :
    inked (table.box.flatMap Line.plain) = inked (table.rows.flatten.flatMap Cell.text) := by
  have hrule {left between right : Char} (hleft : isBoxDrawing left) (hbetween : isBoxDrawing between)
      (hright : isBoxDrawing right) :
      inked (Line.uniform table.style (border table.columns left between right)).plain = [] := by
    rw [Line.uniform, Line.plain, List.flatMap_singleton]
    exact inked_border table.columns hleft hbetween hright
  have hrows : inked ((table.rows.map (rowLine table.style)).flatMap Line.plain) =
      inked (table.rows.flatMap fun cells => cells.flatMap Cell.text) := by
    rw [List.flatMap_map]
    exact inked_flatMap fun cells hmem => inked_rowLine table.style (hcells cells hmem)
  rw [box, List.flatMap_cons, List.flatMap_append, List.flatMap_singleton, inked_append, inked_append,
    hrule (by decide) (by decide) (by decide), hrule (by decide) (by decide) (by decide),
    inked_intersperse (hrule (by decide) (by decide) (by decide)), hrows, List.nil_append, List.append_nil,
    List.flatten_eq_flatMap, List.flatMap_assoc]
  rfl

section Terminal

variable [EmojiNames]

/-- Inert text is shown on the lines that it is wrapped to. -/
theorem lines_of_inert (width : Nat) (hcs : Inert cs) : Paragraph.lines width cs = wrap width cs :=
  Paragraph.lines_of_shown width (Markup.shown_eq_self hcs.bracket hcs.apart.namesNoEmoji) hcs.printable

theorem withoutSpaces_aligned {align : List Char → List Char} (halign : ∀ line, withoutSpaces (align line) = withoutSpaces line)
    (width : Nat) (hcs : Inert cs) :
    withoutSpaces ((Paragraph.lines width cs).map fun line => align (bare line)).flatten = withoutSpaces cs := by
  have hkept : ∀ line ∈ wrap width cs, withoutSpaces (align (bare line)) = withoutSpaces line := fun line hline => by
    rw [halign, withoutSpaces_bare fun c hc => hcs.printable c (mem_of_mem_wrap hline hc)]
  rw [lines_of_inert width hcs, withoutSpaces_flatten_map hkept, withoutSpaces_wrap width hcs.printable]

theorem inked_lines {table : Table} (htable : table.Plain) :
    inked (table.lines.flatMap Line.plain) = inked table.texts.flatten := by
  have huniform (style : Style) (lines : List (List Char)) :
      (lines.map (Line.uniform style)).flatMap Line.plain = lines.flatten := by
    rw [List.flatMap_map, List.flatten_eq_flatMap]
    exact List.flatMap_congr fun line _ => List.flatMap_singleton _ _
  have htitle := htable.inert table.title List.mem_cons_self
  have hcaption := htable.inert table.caption (by simp [texts])
  have hcells : ∀ cells ∈ table.rows, ∀ cell ∈ cells, ∀ c ∈ cell.text, isPrintable c := by
    intro cells hcells cell hcell
    have hmem : cell.text ∈ table.rows.flatten.map Cell.text := List.mem_map_of_mem (List.mem_flatten_of_mem hcells hcell)
    exact (htable.inert cell.text (List.mem_cons_of_mem _ (List.mem_append_left _ hmem))).printable
  have htitleLines : inked (titleLines table.width table.title).flatten = inked table.title :=
    inked_congr (withoutSpaces_aligned (withoutSpaces_flushRight table.width) table.width htitle)
  have hcaptionLines : inked (captionLines table.width table.caption).flatten = inked table.caption :=
    inked_congr (withoutSpaces_aligned (withoutSpaces_centred table.width) table.width hcaption)
  rw [lines, List.flatMap_append, List.flatMap_append, huniform, huniform, inked_append, inked_append, htitleLines,
    inked_box hcells, hcaptionLines, texts, List.flatten_cons, List.flatten_append, List.flatten_singleton, inked_append,
    inked_append, List.flatMap_def, List.append_assoc]

end Terminal

end Table

namespace Style

theorem isCode_of_mem_codes (style : Style) : ∀ c ∈ style.codes, isCode c := by
  refine forall_mem_flatten_intersperse (List.forall_mem_singleton.2 (by decide)) ?_
  intro part hpart c hc
  obtain ⟨number, -, rfl⟩ := List.mem_map.1 hpart
  rw [isCode, isDigit_of_mem_toDigits hc, Bool.true_or]

/-- A style has several codes. -/
theorem mem_codes (style : Style) : ';' ∈ style.codes := by
  obtain ⟨bold, ink, ground⟩ := style
  cases bold with
  | true =>
    show ';' ∈ Nat.toDigits 10 1 ++ ';' :: _
    exact List.mem_append_right _ List.mem_cons_self
  | false =>
    show ';' ∈ Nat.toDigits 10 ink.code ++ ';' :: _
    exact List.mem_append_right _ List.mem_cons_self

end Style

/-- The terminal is as consoles are documented to be. -/
theorem Console.lawful_terminal [EmojiNames] : Console.terminal.Lawful where
  isCode_of_mem_codes := Style.isCode_of_mem_codes
  codes_ne_closing style hclosing := by
    have hmem : ';' ∈ Style.closing := hclosing ▸ style.mem_codes
    exact absurd hmem (by decide)
  inked_layOut _ htable := Table.inked_lines htable
  plain_eq _ := rfl
  styled_eq _ := rfl

end Reckoner
