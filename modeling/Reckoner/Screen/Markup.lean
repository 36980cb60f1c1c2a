import Reckoner.Screen.Emoji

/-!
# Mark-up

Text with tags. A tag is a bracket, one of `#`, `/`, `@` or a small letter, and what follows up to a closing bracket,
with no other opening bracket in it. A tag is not shown unless an odd number of backslashes stands before it; of these
half are shown. Before any other opening bracket a backslash is not shown. A tag divides the text around it in parts, whether
it is shown or not, and in each of them, and in a tag that is shown, there are emoji for their names. Escaping a text makes its
tags visible, but leaves its other brackets and the names of emoji as they are.
-/

namespace Reckoner.Markup

/-- Whether a character can follow the bracket of a tag. -/
def beginsTag (c : Char) : Bool := c == '#' || c == '/' || c == '@' || c.isLower

/-- Whether an opening bracket belongs to a tag, by what follows it. -/
def opensTag : List Char → Bool
  | [] => false
  | c :: rest => beginsTag c && rest.find? (fun d => d == '[' || d == ']') == some ']'

/-- A text as mark-up, with the backslashes that stand before it. -/
def escapeAfter (slashes : Nat) : List Char → List Char
  | [] => List.replicate slashes '\\'
  | '\\' :: rest => escapeAfter (slashes + 1) rest
  | '[' :: rest =>
    let before := if opensTag rest then 2 * slashes + 1 else slashes
    List.replicate before '\\' ++ '[' :: escapeAfter 0 rest
  | c :: rest => List.replicate slashes '\\' ++ c :: escapeAfter 0 rest

/-- A text as mark-up that shows its tags. -/
def escape (cs : List Char) : List Char := escapeAfter 0 cs

mutual

/-- The characters of the parts that mark-up shows, with the backslashes that stand before it. -/
def partsAfter (slashes : Nat) : List Char → List (Option Char)
  | [] => List.replicate slashes (some '\\')
  | '\\' :: rest => partsAfter (slashes + 1) rest
  | '[' :: rest =>
    if opensTag rest then
      let before := List.replicate (slashes / 2) (some '\\') ++ [none]
      if slashes % 2 = 1 then before ++ some '[' :: partsInTag true rest else before ++ partsInTag false rest
    else List.replicate (slashes - 1) (some '\\') ++ some '[' :: partsAfter 0 rest
  | c :: rest => List.replicate slashes (some '\\') ++ some c :: partsAfter 0 rest

/-- The characters of the parts from inside a tag on, which is shown or not. -/
def partsInTag (visible : Bool) : List Char → List (Option Char)
  | [] => []
  | ']' :: rest => if visible then some ']' :: none :: partsAfter 0 rest else partsAfter 0 rest
  | c :: rest => if visible then some c :: partsInTag visible rest else partsInTag visible rest

end

/-- The characters of the parts that mark-up shows. -/
def parts (cs : List Char) : List (Option Char) := partsAfter 0 cs

/-- What mark-up shows. -/
def shown [EmojiNames] (cs : List Char) : List Char := withEmoji none (parts cs)

theorem partsAfter_cons {c : Char} (hslash : c ≠ '\\') (hbracket : c ≠ '[') (slashes : Nat) (rest : List Char) :
    partsAfter slashes (c :: rest) = List.replicate slashes (some '\\') ++ some c :: partsAfter 0 rest := by
  rw [partsAfter]
  · exact hslash
  · exact hbracket

theorem partsInTag_cons {c : Char} (hclose : c ≠ ']') (rest : List Char) :
    partsInTag true (c :: rest) = some c :: partsInTag true rest := by
  rw [partsInTag]
  · rfl
  · exact hclose

/-! ### Texts without brackets -/

theorem partsAfter_eq_append {cs : List Char} (hbracket : '[' ∉ cs) (slashes : Nat) :
    partsAfter slashes cs = List.replicate slashes (some '\\') ++ cs.map some := by
  induction cs generalizing slashes with
  | nil => simp [partsAfter]
  | cons c rest ih =>
    rw [List.mem_cons, not_or] at hbracket
    by_cases hslash : c = '\\'
    · rw [hslash, partsAfter, ih hbracket.2, List.replicate_succ', List.append_assoc]
      rfl
    · rw [partsAfter_cons hslash (Ne.symm hbracket.1), ih hbracket.2]
      rfl

/-- Text without brackets is one part. -/
theorem parts_eq_map {cs : List Char} (hbracket : '[' ∉ cs) : parts cs = cs.map some := by
  rw [parts, partsAfter_eq_append hbracket]
  rfl

end Reckoner.Markup
