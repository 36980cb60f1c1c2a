import Reckoner.Text.Blank

/-!
# Emoji by name

A console shows an emoji for its name between two colons, such as `:smile:`. The names that it knows, in which letters and with
which endings for variants, are its own, so what is shown depends on the console. Text is shown in parts, and a name stands in
one of them, without a blank or a colon in it. Behind a name, known or not, the next colon begins another one.
-/

namespace Reckoner

/-- What a console shows for what stands between two colons, if that is the name of an emoji. -/
class EmojiNames where
  emoji? : List Char → Option (List Char)

/-- A console that knows no names. -/
instance (priority := low) EmojiNames.none : EmojiNames := ⟨fun _ => Option.none⟩

namespace Markup

/-- A colon that may begin a name, with the characters that have been read behind it. -/
def pending : Option (List Char) → List Char
  | none => []
  | some name => ':' :: name

/-- What is shown of parts of a text, behind a colon that may begin a name. Each part ends with `none`. -/
def withEmoji [EmojiNames] (name? : Option (List Char)) : List (Option Char) → List Char
  | [] => pending name?
  | none :: rest => pending name? ++ withEmoji none rest
  | some c :: rest =>
    match name? with
    | none => if c = ':' then withEmoji (some []) rest else c :: withEmoji none rest
    | some name =>
      if c = ':' then (EmojiNames.emoji? name).getD (':' :: name ++ [':']) ++ withEmoji none rest
      else if Text.isBlank c then ':' :: name ++ c :: withEmoji none rest
      else withEmoji (some (name ++ [c])) rest

end Markup

end Reckoner
