/-!
# Cursors

How far a text has been read: the unread characters and the position of the first of them.
-/

namespace Reckoner

structure Cursor where
  position : Nat
  rest : List Char
deriving DecidableEq

namespace Cursor

/-- The cursor before the first character of a text. -/
def ofText (text : String) : Cursor := ⟨0, text.toList⟩

/-- The cursor behind the longest run of unread characters that satisfy `p`. -/
def skip (p : Char → Bool) (cursor : Cursor) : Cursor :=
  ⟨cursor.position + (cursor.rest.takeWhile p).length, cursor.rest.dropWhile p⟩

theorem takeWhile_append_rest_skip (p : Char → Bool) (cursor : Cursor) :
    cursor.rest.takeWhile p ++ (cursor.skip p).rest = cursor.rest :=
  List.takeWhile_append_dropWhile

theorem length_rest_skip (p : Char → Bool) (cursor : Cursor) :
    (cursor.rest.takeWhile p).length + (cursor.skip p).rest.length = cursor.rest.length := by
  rw [← List.length_append, takeWhile_append_rest_skip]

theorem length_rest_skip_le (p : Char → Bool) (cursor : Cursor) :
    (cursor.skip p).rest.length ≤ cursor.rest.length := by
  have := length_rest_skip p cursor
  omega

/-- The next character, if it is one that `classify` knows, and the cursor behind it. -/
def take? {α : Type} (classify : Char → Option α) (cursor : Cursor) : Option (α × Cursor) :=
  match cursor.rest with
  | [] => none
  | c :: rest => (classify c).map (·, ⟨cursor.position + 1, rest⟩)

theorem length_rest_of_take? {α : Type} {classify : Char → Option α} {cursor next : Cursor} {item : α}
    (htake : cursor.take? classify = some (item, next)) : next.rest.length + 1 = cursor.rest.length := by
  unfold take? at htake
  split at htake
  · exact absurd htake (by simp)
  · rename_i c rest hrest
    obtain ⟨_, _, hpair⟩ := Option.map_eq_some_iff.1 htake
    obtain ⟨_, rfl⟩ := Prod.mk.inj hpair
    rw [hrest, List.length_cons]

end Cursor

end Reckoner
