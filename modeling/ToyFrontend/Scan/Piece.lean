import ToyFrontend.Diagnostic.LexicalError
import ToyFrontend.Text.Blank
import ToyFrontend.Text.Quoted
import ToyFrontend.Token

namespace ToyFrontend
namespace Scan

/-!
Pieces of a document.  Everything that can stand at the head of a text is one
piece: a lexeme, or a gap of blanks or a comment.  A piece is never empty, which
is why it keeps its first character apart; passing pieces therefore comes to an
end on every text.
-/

/-- The characters that may separate lexemes. -/
def isSpace (character : Char) : Bool :=
  character == ' ' || character == '\t' || character == '\r' || character == '\n'

/-- The characters that may begin a word. -/
def isWordStart (character : Char) : Bool :=
  character.isAlpha || character == '_'

/-- The characters that may continue a word. -/
def isWordPart (character : Char) : Bool :=
  character.isAlphanum || character == '_'

/-- The number that a run of decimal digits denotes. -/
def decimal (digits : List Char) : Nat :=
  digits.foldl (fun value digit => 10 * value + (digit.toNat - '0'.toNat)) 0

/-- The content of a piece: nothing, or a token that still lacks its place. -/
inductive Piece.Content where
  | gap
  | lexeme (kind : Token.Kind) (value : Option Literal)
deriving DecidableEq, Repr

/-- A piece at the head of a text. -/
structure Piece where
  first : Char
  tail : List Char
  content : Piece.Content
deriving DecidableEq, Repr

namespace Piece

/-- All characters of a piece. -/
def text (piece : Piece) : List Char :=
  piece.first :: piece.tail

/-- What a word means: a truth value, a keyword, or the name of something. -/
def ofWord (word : String) : Content :=
  match Token.Kind.ofReserved? word with
  | some .boolLiteral => .lexeme .boolLiteral (some (.bool (word == "true")))
  | some kind => .lexeme kind none
  | none => .lexeme .identifier none

/-- The longest word that begins with `first`. -/
def word (first : Char) (ahead : List Char) : Piece :=
  let tail := ahead.takeWhile isWordPart
  { first, tail, content := ofWord (String.ofList (first :: tail)) }

/-- The longest run of digits that begins with `first`. -/
def number (start : Source.Position) (first : Char) (ahead : List Char) :
    Except LexicalError Piece :=
  let tail := ahead.takeWhile Char.isDigit
  let value := decimal (first :: tail)
  if value <= largestInt then
    .ok { first, tail, content := .lexeme .intLiteral (some (.int value)) }
  else
    .error
      { cause := .integerOverflow
        text := String.ofList (first :: tail)
        position := start }

/-- A string literal, after its opening quote. -/
def string (start : Source.Position) (ahead : List Char) : Except LexicalError Piece :=
  match Text.Quoted.body ahead with
  | .closed value written =>
      .ok
        { first := '"'
          tail := written
          content := .lexeme .stringLiteral (some (.string (String.ofList value))) }
  | .unterminated written =>
      .error
        { cause := .unterminatedString
          text := String.ofList (Text.dropEndWhile (· == '\r') ('"' :: written))
          position := start }
  | .badEscape before escaped =>
      .error
        { cause := .invalidEscape
          text := String.ofList ['\\', escaped]
          position := start.along ('"' :: before) }

/-- The operator or punctuation mark that begins with `first`, and the rest of its
spelling.  Of two spellings the longer one is taken. -/
def symbol? (first : Char) (ahead : List Char) : Option (Token.Kind × List Char) :=
  let orWithEquals (alone joined : Token.Kind) : Option (Token.Kind × List Char) :=
    if ahead.head? = some '=' then some (joined, ['=']) else some (alone, [])
  match first with
  | '{' => some (.openCurly, [])
  | '}' => some (.closeCurly, [])
  | '(' => some (.openParen, [])
  | ')' => some (.closeParen, [])
  | '=' => orWithEquals .assignment .equals
  | '!' => orWithEquals .not .notEquals
  | '<' => orWithEquals .less .lessEquals
  | '>' => orWithEquals .greater .greaterEquals
  | ';' => some (.semicolon, [])
  | ',' => some (.comma, [])
  | '+' => some (.plus, [])
  | '-' => some (.dash, [])
  | '/' => some (.slash, [])
  | '*' => some (.star, [])
  | _ => none

/-- The piece at the head of a text that has a first character. -/
def read (start : Source.Position) (first : Char) (ahead : List Char) :
    Except LexicalError Piece :=
  if isWordStart first then
    .ok (word first ahead)
  else if first.isDigit then
    number start first ahead
  else if isSpace first then
    .ok { first, tail := ahead.takeWhile isSpace, content := .gap }
  else if first = '"' then
    string start ahead
  else if first = '/' && ahead.head? = some '/' then
    .ok { first, tail := ahead.takeWhile (· != '\n'), content := .gap }
  else
    match symbol? first ahead with
    | some (kind, tail) => .ok { first, tail, content := .lexeme kind none }
    | none =>
        .error
          { cause := .unrecognisedCharacter
            text := String.ofList [first]
            position := start }

/-- The token that a piece stands for at a place, if it is a lexeme. -/
def token? (piece : Piece) (start : Source.Position) : Option Token :=
  match piece.content with
  | .gap => none
  | .lexeme kind value =>
      some
        { kind
          text := String.ofList piece.text
          value
          span := { start, finish := start.after piece.text } }

end Piece

end Scan
end ToyFrontend
