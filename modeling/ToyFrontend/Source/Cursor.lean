import ToyFrontend.Source.Position

namespace ToyFrontend
namespace Source

/-!
A cursor splits a text in two: the part already passed is kept only as the
position behind it, the part ahead is kept as characters.
-/

/-- A place in a text together with the text ahead of it. -/
structure Cursor where
  position : Position
  remaining : List Char
deriving DecidableEq, Repr

namespace Cursor

/-- The cursor before the first character of a text. -/
def ofText (text : List Char) : Cursor where
  position := .start
  remaining := text

/-- Is there no character ahead? -/
def atEnd (cursor : Cursor) : Bool :=
  cursor.remaining.isEmpty

/-- The character ahead, if there is one. -/
def ahead? (cursor : Cursor) : Option Char :=
  cursor.remaining.head?

end Cursor

/-- Split a text behind its first `count` bytes.  There is no such place when the
text is shorter than that, or when the last of these bytes falls inside a character. -/
def splitBytes? : Nat -> List Char -> Option (List Char × List Char)
  | 0, text => some ([], text)
  | _ + 1, [] => none
  | count + 1, character :: text =>
      if character.utf8Size <= count + 1 then
        (splitBytes? (count + 1 - character.utf8Size) text).map fun (passed, rest) =>
          (character :: passed, rest)
      else
        none

/-- Both halves of a split make up the text. -/
theorem append_of_splitBytes? {count : Nat} {text passed rest : List Char}
    (split : splitBytes? count text = some (passed, rest)) : passed ++ rest = text := by
  induction text generalizing count passed with
  | nil => cases count <;> simp_all [splitBytes?]
  | cons character text inductionHypothesis =>
      cases count with
      | zero => simp_all [splitBytes?]
      | succ count =>
          simp only [splitBytes?] at split
          split at split
          · obtain ⟨⟨front, back⟩, inner, same⟩ := Option.map_eq_some_iff.1 split
            simp only [Prod.mk.injEq] at same
            obtain ⟨rfl, rfl⟩ := same
            simp [inductionHypothesis inner]
          · simp at split

namespace Cursor

/-- Pass exactly `count` bytes, if a character ends there. -/
def passBytes? (cursor : Cursor) (count : Nat) : Option Cursor :=
  (splitBytes? count cursor.remaining).map fun (passed, rest) =>
    { position := cursor.position.after passed
      remaining := rest }

end Cursor

end Source
end ToyFrontend
