import ToyFrontend.Token
import ToyFrontend.SyntaxTree.Nesting

namespace ToyFrontend

/-!
What can be wrong with the tokens of a document.
-/

/-- Why a token cannot stand where it does. -/
inductive SyntaxError.Cause where
  | unexpectedToken
  | expectedExpression
  | invalidStatementStart
  | bareIdentifier
  | missingInitializer
  | nestingTooDeep
deriving DecidableEq, Repr

namespace SyntaxError
namespace Cause

/-- Every cause once. -/
def all : List Cause :=
  [.unexpectedToken, .expectedExpression, .invalidStatementStart, .bareIdentifier,
    .missingInitializer, .nestingTooDeep]

/-- The name under which a cause is reported. -/
def name : Cause -> String
  | .unexpectedToken => "UnexpectedToken"
  | .expectedExpression => "ExpectedExpression"
  | .invalidStatementStart => "InvalidStatementStart"
  | .bareIdentifier => "BareIdentifierStatement"
  | .missingInitializer => "MissingInitializer"
  | .nestingTooDeep => "NestingTooDeep"

/-- The cause with a given name. -/
def ofName? (text : String) : Option Cause :=
  all.find? fun cause => cause.name == text

/-- A cause in the words of a message. -/
def words : Cause -> String
  | .unexpectedToken => "unexpected token"
  | .expectedExpression => "expected expression"
  | .invalidStatementStart => "invalid start of statement"
  | .bareIdentifier => "identifier statement must be an assignment or a call"
  | .missingInitializer => "expected initializer in `var` declaration"
  | .nestingTooDeep => "nesting too deep"

end Cause
end SyntaxError

/-- The first token that cannot stand where it does, and the kinds that could. -/
structure SyntaxError where
  cause : SyntaxError.Cause
  found : Token.Kind
  text : String
  expected : List Token.Kind
  position : Source.Position
deriving DecidableEq, Repr

namespace SyntaxError

/-- The error that blames a token. -/
def blame (cause : Cause) (expected : List Token.Kind) (token : Token) : SyntaxError where
  cause := cause
  found := token.kind
  text := token.text
  expected := expected
  position := token.span.start

/-- The cause, the place and the token at fault in one sentence. -/
def message (error : SyntaxError) : String :=
  error.cause.words ++ " at " ++ error.position.describe ++ ", found " ++
    error.found.name ++ " `" ++ error.text ++ "`"

/-- The kinds that would have been accepted, as a list for the reader. -/
def expectedText (error : SyntaxError) : String :=
  String.intercalate ", " (error.expected.map Token.Kind.quoted)

/-- Advice for the causes that leave several tokens open: it mentions the end of
the input first, then a missing semicolon, then whatever was expected. -/
def expectationTip? (error : SyntaxError) : Option String :=
  if error.found = .eof then
    some ("Unexpected end of input, expected " ++ error.expectedText)
  else if error.cause = .unexpectedToken && error.expected = [.semicolon] then
    some ("Unexpected token: `" ++ error.text ++ "`, did you miss a semicolon?")
  else if error.expected.isEmpty then
    none
  else
    some ("Unexpected token: `" ++ error.text ++ "`, expected one of " ++ error.expectedText)

/-- Advice on how to mend the program. -/
def tip? (error : SyntaxError) : Option String :=
  match error.cause with
  | .bareIdentifier =>
      some ("Unexpected token: `" ++ error.text ++
        "`, an identifier statement must continue with `=` or `(`")
  | .missingInitializer => some "Expected explicit value when no type is given"
  | .nestingTooDeep =>
      some ("Expressions and blocks can be nested at most " ++ toString SyntaxTree.nestingLimit ++
        " levels deep")
  | .unexpectedToken | .expectedExpression | .invalidStatementStart => error.expectationTip?

end SyntaxError
end ToyFrontend
