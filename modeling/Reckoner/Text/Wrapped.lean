import Reckoner.Text.Blank
import Reckoner.Text.Columns

/-!
# Wrapped text

Breaking a text into lines of limited width. Lines break behind the blanks between words where they can; a word that is
wider than a line begins one and is cut. Blanks at the end of a line may exceed the width while words are placed, and are
then dropped as far as the line has more characters than the width has columns.
-/

namespace Reckoner.Text

/-- The words of a text, each with the blanks behind it, and the first also with those before it. -/
def words (cs : List Char) : List (List Char) :=
  match cs.splitBy fun left right => !isBlank left || isBlank right with
  | lead :: word :: more => if lead.all isBlank then (lead ++ word) :: more else lead :: word :: more
  | short => short

/-- A word in pieces that fill the line, and the remaining piece, which is not empty unless the word is. A line has room for a
character of any kind, or nothing is cut. -/
def cut (width : Nat) (cs : List Char) : List (List Char) × List Char :=
  if 1 < width ∧ width < columns cs then
    let (pieces, last) := cut width (splitColumns width cs).2
    ((splitColumns width cs).1 :: pieces, last)
  else ([], cs)
termination_by cs.length
decreasing_by
  rename_i hwide
  exact length_splitColumns_lt hwide.1 (by rintro rfl; simp [columns] at hwide)

/-- A text without the blanks at its end. -/
def bare (cs : List Char) : List Char := dropTrailing isBlank cs

/-- Places words one after another, from a line that has been begun. -/
def place (width : Nat) (line : List Char) : List (List Char) → List (List Char)
  | [] => [line]
  | word :: more =>
    if columns line + columns (bare word) ≤ width then place width (line ++ word) more
    else if columns (bare word) ≤ width then line :: place width word more
    else
      let (pieces, last) := cut width word
      let before := if line = [] then [] else [line]
      before ++ pieces ++ place width last more

/-- A line without the blanks at its end among the characters that exceed the width. -/
def crop (width : Nat) (line : List Char) : List Char := line.take (max width (bare line).length)

def wrap (width : Nat) (cs : List Char) : List (List Char) := (place width [] (words cs)).map (crop width)

/-! ### What wrapping keeps -/

theorem flatten_cut (width : Nat) (cs : List Char) : (cut width cs).1.flatten ++ (cut width cs).2 = cs := by
  fun_induction cut width cs with
  | case1 cs hlong pieces last hcut ih =>
    rw [hcut] at ih
    simp only [List.flatten_cons, List.append_assoc]
    rw [ih, splitColumns_append]
  | case2 => rfl

/-- Placing words loses none of their characters. -/
theorem flatten_place (width : Nat) (line : List Char) (parts : List (List Char)) :
    (place width line parts).flatten = line ++ parts.flatten := by
  fun_induction place width line parts with
  | case1 line => simp
  | case2 line word more hfits ih => simp [ih]
  | case3 line word more hlong hfits ih => simp [ih]
  | case4 line word more hlong hwide pieces last hcut before ih =>
    have hpieces := flatten_cut width word
    rw [hcut] at hpieces
    have hbefore : before.flatten = line := by
      by_cases hline : line = [] <;> simp [before, hline]
    simp only [List.flatten_append, hbefore, ih, List.flatten_cons]
    rw [← hpieces]
    simp

end Reckoner.Text
