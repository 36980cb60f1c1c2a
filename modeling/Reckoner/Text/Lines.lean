/-!
# Lines

A text as lines. A line that is written ends with a line feed. The input is taken to be read with universal newlines: a line
that is read ends with a line feed, a carriage return or a carriage return and a line feed, and the last line of an input needs
no end. An input that is read without them, as a terminal or a pipe may be, has no line that ends at a lone carriage return, and
nothing is said of it here.
-/

namespace Reckoner.Text

/-- Lines as one text, with a line feed behind each. -/
def joinLines (lines : List (List Char)) : String :=
  String.ofList (lines.flatMap (· ++ ['\n']))

/-- A text with a line feed for each end of a line, as universal newlines have it. -/
def withLineFeeds : List Char → List Char
  | [] => []
  | '\r' :: '\n' :: rest => '\n' :: withLineFeeds rest
  | '\r' :: rest => '\n' :: withLineFeeds rest
  | c :: rest => c :: withLineFeeds rest

theorem carriageReturn_notMem_withLineFeeds (cs : List Char) : '\r' ∉ withLineFeeds cs := by
  fun_induction withLineFeeds cs with
  | case1 => simp
  | case2 rest ih => simp [ih]
  | case3 rest _ ih => simp [ih]
  | case4 c rest _ hc ih =>
    simp only [List.mem_cons, not_or]
    exact ⟨fun hreturn => hc hreturn.symm, ih⟩

theorem withLineFeeds_eq_self {cs : List Char} (hreturn : '\r' ∉ cs) : withLineFeeds cs = cs := by
  fun_induction withLineFeeds cs with
  | case1 => rfl
  | case2 rest ih => simp at hreturn
  | case3 rest _ ih => simp at hreturn
  | case4 c rest _ _ ih => rw [ih fun hmem => hreturn (List.mem_cons_of_mem c hmem)]

/-- The lines of a text; what stands behind the last end of a line is a line unless it is empty. -/
def splitLines (text : String) : List (List Char) :=
  let lines := (withLineFeeds text.toList).splitOn '\n'
  if lines.getLast? = some [] then lines.dropLast else lines

end Reckoner.Text
