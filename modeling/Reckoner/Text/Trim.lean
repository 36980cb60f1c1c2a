/-!
# Trimming

Cutting the longest runs of unwanted elements off the ends of a list.
-/

namespace Reckoner.Text

/-- What is left of a list without its longest trailing run of elements that satisfy `p`. -/
def dropTrailing {α : Type} (p : α → Bool) (xs : List α) : List α :=
  (xs.reverse.dropWhile p).reverse

theorem dropTrailing_append_run {α : Type} (p : α → Bool) (xs : List α) :
    dropTrailing p xs ++ (xs.reverse.takeWhile p).reverse = xs := by
  rw [dropTrailing, ← List.reverse_append, List.takeWhile_append_dropWhile, List.reverse_reverse]

theorem getLast?_dropTrailing {α : Type} {p : α → Bool} {xs : List α} {x : α}
    (hlast : (dropTrailing p xs).getLast? = some x) : p x = false := by
  rw [dropTrailing, List.getLast?_reverse] at hlast
  simpa using List.head?_dropWhile_not p xs.reverse |> (by simpa [hlast] using ·)

/-- What is left of a list without its longest runs of elements that satisfy `p` at either end. -/
def trim {α : Type} (p : α → Bool) (xs : List α) : List α := dropTrailing p (xs.dropWhile p)

end Reckoner.Text
