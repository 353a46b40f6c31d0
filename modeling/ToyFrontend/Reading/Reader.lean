import ToyFrontend.Diagnostic.SyntaxError
import ToyFrontend.Reading.Cursor

namespace ToyFrontend
namespace Reading

/-!
Readers.  A reader moves the cursor and gives a result, or gives the error that
ended it; in both cases the cursor stays where the reader left it.  Repetition
is bounded by the tokens still to come: every round of a loop uses up at least
one token, so there are never more rounds than tokens.
-/

/-- A computation on a cursor that may fail with a syntax error. -/
abbrev Reader : Type -> Type :=
  EStateM SyntaxError Cursor

namespace Reader

/-- The current token. -/
def current : Reader Token := do
  return (← get).current

/-- The kind of the current token. -/
def kind : Reader Token.Kind := do
  return (← get).kind

/-- The kind of the token behind the current one. -/
def nextKind : Reader Token.Kind := do
  return (← get).nextKind

/-- The tokens from the cursor on. -/
def tokens : Reader (List Token) := do
  return (← get).tokens

/-- Give the current token and move to the next one. -/
def advance : Reader Token := do
  let cursor ← get
  set cursor.advance
  return cursor.current

/-- Fail, and blame the current token. -/
def fail {Result : Type} (cause : SyntaxError.Cause) (expected : List Token.Kind) :
    Reader Result := do
  throw (SyntaxError.blame cause expected (← current))

/-- Pass the current token and blame it, with nothing to put in its place. -/
def refuse {Result : Type} : Reader Result := do
  throw (SyntaxError.blame .unexpectedToken [] (← advance))

/-- Pass the current token if it has the given kind, and fail otherwise. -/
def expect (expected : Token.Kind) : Reader Token := do
  if (← kind) = expected then
    advance
  else
    fail .unexpectedToken [expected]

/-- Read one item, and one more after each comma, up to a closing parenthesis,
which is not passed.  There are at most as many items as there are `rounds`. -/
def commaSeparated {Item : Type} (item : Reader Item) : List Token -> Reader (List Item)
  | [] => return []
  | _ :: rounds => do
      let first ← item
      match ← kind with
      | .comma =>
          let _ ← advance
          let rest ← commaSeparated item rounds
          return first :: rest
      | .closeParen => return [first]
      | _ => fail .unexpectedToken [.comma, .closeParen]

/-- Read items up to a closing parenthesis; there need not be any. -/
def items {Item : Type} (item : Reader Item) : Reader (List Item) := do
  if (← kind) = .closeParen then
    return []
  else
    commaSeparated item (← tokens)

/-- Read a list of items between parentheses.  The span is that of the closing one. -/
def parenthesised {Item : Type} (item : Reader Item) : Reader (List Item × Source.Span) := do
  let _ ← expect .openParen
  let read ← items item
  let close ← expect .closeParen
  return (read, close.span)

/-- Read items as long as the current token is not of the kind `stop`, which is not
passed.  There are at most as many items as there are `rounds`. -/
def untilKind {Item : Type} (stop : Token.Kind) (item : Reader Item) :
    List Token -> Reader (List Item)
  | [] => return []
  | _ :: rounds => do
      if (← kind) = stop then
        return []
      else
        let first ← item
        let rest ← untilKind stop item rounds
        return first :: rest

end Reader

end Reading
end ToyFrontend
