import ToyFrontend.Token

namespace ToyFrontend
namespace Reading

/-!
A cursor in a list of tokens.  There is always a current token: a list that does
not end with the end marker gets one, and the cursor stops at the first marker
it meets.
-/

/-- A place in a list of tokens: the token there, and the tokens behind it. -/
structure Cursor where
  current : Token
  following : List Token
deriving DecidableEq, Repr

/-- A list of tokens with an end marker as its last element; a missing one is put
where the last token ends. -/
def withEndMarker (tokens : List Token) : List Token :=
  if tokens.getLast?.map Token.kind = some .eof then
    tokens
  else
    tokens ++ [Token.endMarker (Token.endOf tokens)]

namespace Cursor

/-- The cursor at the first token of a list. -/
def ofTokens (tokens : List Token) : Cursor :=
  match withEndMarker tokens with
  | first :: rest => { current := first, following := rest }
  | [] => { current := Token.endMarker .start, following := [] }

/-- The tokens from the cursor on. -/
def tokens (cursor : Cursor) : List Token :=
  cursor.current :: cursor.following

/-- The kind of the current token. -/
def kind (cursor : Cursor) : Token.Kind :=
  cursor.current.kind

/-- The kind of the token behind the current one. -/
def nextKind (cursor : Cursor) : Token.Kind :=
  match cursor.following with
  | next :: _ => next.kind
  | [] => .eof

/-- Where the current token begins. -/
def position (cursor : Cursor) : Source.Position :=
  cursor.current.span.start

/-- Is the current token something else than the end marker? -/
def hasTokens (cursor : Cursor) : Bool :=
  cursor.kind != .eof

/-- The cursor at the next token.  No cursor moves past an end marker. -/
def advance (cursor : Cursor) : Cursor :=
  if cursor.kind = .eof then
    cursor
  else
    match cursor.following with
    | next :: rest => { current := next, following := rest }
    | [] => cursor

end Cursor

end Reading
end ToyFrontend
