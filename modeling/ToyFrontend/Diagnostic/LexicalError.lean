import ToyFrontend.Source.Position

namespace ToyFrontend

/-!
What can be wrong with the characters of a document.
-/

/-- The largest integer that a literal may denote: the largest signed number of
sixty-four bits. -/
def largestInt : Nat := 9223372036854775807

/-- The bound is one below a power of two. -/
theorem largestInt_succ : largestInt + 1 = Nat.pow 2 63 := by
  decide

/-- Why a stretch of text is no lexeme. -/
inductive LexicalError.Cause where
  | unterminatedString
  | invalidEscape
  | unrecognisedCharacter
  | integerOverflow
deriving DecidableEq, Repr

namespace LexicalError
namespace Cause

/-- Every cause once. -/
def all : List Cause :=
  [.unterminatedString, .invalidEscape, .unrecognisedCharacter, .integerOverflow]

/-- The name under which a cause is reported. -/
def name : Cause -> String
  | .unterminatedString => "UnterminatedString"
  | .invalidEscape => "InvalidEscape"
  | .unrecognisedCharacter => "UnrecognisedCharacter"
  | .integerOverflow => "IntegerOverflow"

/-- The cause with a given name. -/
def ofName? (text : String) : Option Cause :=
  all.find? fun cause => cause.name == text

/-- A cause in the words of a message. -/
def words : Cause -> String
  | .unterminatedString => "unterminated string"
  | .invalidEscape => "invalid escape sequence"
  | .unrecognisedCharacter => "unrecognised character"
  | .integerOverflow => "integer overflow"

end Cause
end LexicalError

/-- The first stretch of text that is no lexeme, and where it stands. -/
structure LexicalError where
  cause : LexicalError.Cause
  text : String
  position : Source.Position
deriving DecidableEq, Repr

namespace LexicalError

/-- The cause, the text at fault and its place in one sentence. -/
def message (error : LexicalError) : String :=
  error.cause.words ++ " `" ++ error.text ++ "` at " ++ error.position.describe

/-- Advice on how to mend the text.  A character outside the alphabet has none. -/
def tip? (error : LexicalError) : Option String :=
  match error.cause with
  | .unterminatedString => some "Strings must be closed with `\"` on the same line"
  | .invalidEscape =>
      some ("Unknown escape `" ++ error.text ++
        "`, supported escapes are `\\\"`, `\\\\` and `\\n`")
  | .unrecognisedCharacter => none
  | .integerOverflow =>
      some ("Invalid number: `" ++ error.text ++ "`, it is above the integer limit of " ++
        toString largestInt)

end LexicalError
end ToyFrontend
