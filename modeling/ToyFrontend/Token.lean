import ToyFrontend.Source.Position
import ToyFrontend.Token.Kind

namespace ToyFrontend

/-!
Tokens.  A token keeps the text it was written with beside what that text means,
so that nothing of the document is lost: the texts of all tokens, together with
the gaps between their spans, make up the source again.
-/

/-- The value of a literal, with escapes resolved and digits read. -/
inductive Literal where
  | int (value : Int)
  | string (value : String)
  | bool (value : Bool)
deriving DecidableEq, Repr

namespace Literal

/-- How a truth value is written. -/
def boolText (value : Bool) : String :=
  if value then "true" else "false"

/-- A value as a table shows it, without quotes or escapes. -/
def text : Literal -> String
  | .int value => toString value
  | .string value => value
  | .bool value => boolText value

end Literal

/-- A token: its kind, the text it was written with, the value of a literal, and
the stretch of source it covers. -/
structure Token where
  kind : Token.Kind
  text : String
  value : Option Literal
  span : Source.Span
deriving DecidableEq, Repr

namespace Token

/-- The marker that stands at the end of the input. -/
def endMarker (position : Source.Position) : Token where
  kind := .eof
  text := ""
  value := none
  span := .point position

/-- The last token's end, or the beginning of the text when there is no token. -/
def endOf (tokens : List Token) : Source.Position :=
  match tokens.getLast? with
  | some last => last.span.finish
  | none => .start

/-- A token as a message shows it: its kind and its text. -/
def describe (token : Token) : String :=
  token.kind.name ++ " `" ++ token.text ++ "`"

/-- A token as a trace shows it: the text appears where the kind leaves it open. -/
def traced (token : Token) : String :=
  match token.kind with
  | .stringLiteral | .identifier | .intLiteral | .boolLiteral =>
      token.kind.name ++ " (" ++ token.text ++ ")"
  | _ => token.kind.name ++ " ()"

/-- A token as a table shows it: the value of a literal, and the text otherwise. -/
def shown (token : Token) : String :=
  match token.value with
  | some value => value.text
  | none => if token.kind = .eof then "EOF" else token.text

end Token
end ToyFrontend
