import ToyFrontend.Scan.Piece
import ToyFrontend.Source.Cursor

namespace ToyFrontend

/-!
Scanning a document.  A scan passes the document piece by piece and keeps the
tokens it has met.  It also keeps them when it comes to a text that is no piece,
because a trace shows what was read before the failure.
-/

/-- The tokens met by a scan, and the error that ended it early, if one did. -/
structure Scan where
  tokens : List Token
  failure : Option LexicalError
deriving DecidableEq, Repr

namespace Scan

/-- A scan that met one more token at its beginning. -/
def prepend (token : Option Token) (scan : Scan) : Scan :=
  { scan with tokens := token.toList ++ scan.tokens }

/-- Scan what lies ahead of a cursor, up to the end marker. -/
def ofCursor (cursor : Source.Cursor) : Scan :=
  match _shape : cursor.remaining with
  | [] => { tokens := [Token.endMarker cursor.position], failure := none }
  | first :: ahead =>
      match Piece.read cursor.position first ahead with
      | .error error => { tokens := [], failure := some error }
      | .ok piece =>
          (ofCursor
            { position := cursor.position.after piece.text
              remaining := ahead.drop piece.tail.length }).prepend
            (piece.token? cursor.position)
termination_by cursor.remaining.length
decreasing_by
  simp only [_shape, List.length_drop, List.length_cons]
  omega

/-- Scan a whole document. -/
def ofSource (source : String) : Scan :=
  ofCursor (Source.Cursor.ofText source.toList)

/-- The tokens of a scan that reached the end. -/
def result (scan : Scan) : Except LexicalError (List Token) :=
  match scan.failure with
  | none => .ok scan.tokens
  | some error => .error error

end Scan

/-- The tokens of a document, the end marker last, or the first lexical error. -/
def tokenize (source : String) : Except LexicalError (List Token) :=
  (Scan.ofSource source).result

end ToyFrontend
