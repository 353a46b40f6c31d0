namespace ToyFrontend
namespace Source

/-!
Places in a source text.  A position keeps three counts of the text before it:
bytes, line feeds and characters since the last line feed.  A position is reached
from `Position.start` by passing characters one at a time; inside a line it may also
be reached at once, by adding what a stretch of the line counts.
-/

/-- A place in a text: bytes before it, and its line and column counted from one.
Columns count characters. -/
structure Position where
  offset : Nat
  line : Nat
  column : Nat
deriving DecidableEq, Ord, Repr

namespace Position

/-- The place before the first character. -/
def start : Position where
  offset := 0
  line := 1
  column := 1

/-- The place behind one more character. -/
def next (position : Position) (character : Char) : Position :=
  if character = '\n' then
    { offset := position.offset + character.utf8Size
      line := position.line + 1
      column := 1 }
  else
    { offset := position.offset + character.utf8Size
      line := position.line
      column := position.column + 1 }

/-- The place behind a whole text. -/
def after (position : Position) (text : List Char) : Position :=
  text.foldl next position

@[simp] theorem after_nil (position : Position) : position.after [] = position :=
  rfl

@[simp] theorem after_cons (position : Position) (character : Char) (text : List Char) :
    position.after (character :: text) = (position.next character).after text :=
  rfl

/-- Passing two texts in turn is passing their concatenation. -/
theorem after_append (position : Position) (first second : List Char) :
    position.after (first ++ second) = (position.after first).after second := by
  simp [after]

/-- The place behind a stretch of the same line, which holds no line feed. -/
def along (position : Position) (stretch : List Char) : Position where
  offset := position.offset + (String.ofList stretch).utf8ByteSize
  line := position.line
  column := position.column + stretch.length

/-- How a message names a place. -/
def describe (position : Position) : String :=
  "line " ++ toString position.line ++ ", column " ++ toString position.column

end Position

/-- A stretch of text between two places. -/
structure Span where
  start : Position
  finish : Position
deriving DecidableEq, Repr

namespace Span

/-- The empty stretch at a place. -/
def point (position : Position) : Span where
  start := position
  finish := position

/-- The stretch from the beginning of one span to the end of another. -/
def through (first last : Span) : Span where
  start := first.start
  finish := last.finish

end Span

end Source
end ToyFrontend
