namespace ToyFrontend
namespace Text
namespace Quoted

/-!
String literals.  A literal stands between two quotes on one line; inside it a
quote, a backslash and a line feed are written as a backslash followed by one
character, and every other character stands for itself.  `encode` writes a
value and `body` reads what follows an opening quote.
-/

/-- The character after the backslash, for the characters that need one. -/
def escape? : Char -> Option Char
  | '"' => some '"'
  | '\\' => some '\\'
  | '\n' => some 'n'
  | _ => none

/-- The character that an escape stands for. -/
def unescape? : Char -> Option Char
  | '"' => some '"'
  | '\\' => some '\\'
  | 'n' => some '\n'
  | _ => none

/-- Reading an escape gives back the character it was written for. -/
theorem unescape?_of_escape? {character escaped : Char}
    (written : escape? character = some escaped) : unescape? escaped = some character := by
  unfold escape? at written
  split at written <;> cases written <;> rfl

/-- How one character of a value is written. -/
def encodeChar (character : Char) : List Char :=
  match escape? character with
  | some escaped => ['\\', escaped]
  | none => [character]

/-- A value between quotes, with its escapes. -/
def encode (value : List Char) : List Char :=
  '"' :: (value.flatMap encodeChar ++ ['"'])

/-- What a reader finds after an opening quote. -/
inductive Body where
  /-- The literal is closed; `written` runs up to the closing quote, which it includes. -/
  | closed (value written : List Char)
  /-- A line feed or the end of the text comes first; `written` stops before it. -/
  | unterminated (written : List Char)
  /-- A backslash, with only sound content `before` it, has no escape after it. -/
  | badEscape (before : List Char) (escaped : Char)
deriving DecidableEq, Repr

/-- Put one written character, or one escape, in front of a body. -/
def Body.extend (value : Char) (written : List Char) : Body -> Body
  | .closed rest restWritten => .closed (value :: rest) (written ++ restWritten)
  | .unterminated restWritten => .unterminated (written ++ restWritten)
  | .badEscape before escaped => .badEscape (written ++ before) escaped

/-- Read the text after an opening quote. -/
def body : List Char -> Body
  | [] => .unterminated []
  | character :: rest =>
      if character = '"' then
        .closed [] ['"']
      else if character = '\n' then
        .unterminated []
      else if character = '\\' then
        match rest with
        | [] => .unterminated ['\\']
        | escaped :: rest =>
            if escaped = '\n' then
              .unterminated ['\\']
            else
              match unescape? escaped with
              | some value => (body rest).extend value ['\\', escaped]
              | none => .badEscape [] escaped
      else
        (body rest).extend character [character]

end Quoted
end Text
end ToyFrontend
