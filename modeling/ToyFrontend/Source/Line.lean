namespace ToyFrontend
namespace Source

/-!
Lines of a text.  A line feed ends a line and a carriage return right before it
belongs to the line ending, so that a document reads the same with either
convention.
-/

/-- The pieces of a text between its line feeds; there is always at least one. -/
def lines : List Char -> List (List Char)
  | [] => [[]]
  | character :: text =>
      if character = '\n' then
        [] :: lines text
      else
        match lines text with
        | line :: rest => (character :: line) :: rest
        | [] => [[character]]

/-- Even an empty text has a line. -/
theorem lines_ne_nil (text : List Char) : lines text ≠ [] := by
  cases text with
  | nil => simp [lines]
  | cons character text =>
      simp only [lines]
      split
      · simp
      · split <;> simp

/-- Remove one carriage return from the end of a line. -/
def withoutReturn (line : List Char) : List Char :=
  if line.getLast? = some '\r' then line.dropLast else line

/-- The text of a line, numbered from one, without its line ending. -/
def line? (text : List Char) : Nat -> Option (List Char)
  | 0 => none
  | number + 1 => (lines text)[number]?.map withoutReturn

end Source
end ToyFrontend
