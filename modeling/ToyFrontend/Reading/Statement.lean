import ToyFrontend.Reading.Expression
import ToyFrontend.SyntaxTree.Stmt

namespace ToyFrontend
namespace Reading
namespace Statement

/-!
Reading statements.  As with expressions, each form is a reader that is given the
readers for its parts, and a block has one level less than what it stands in.
-/

open SyntaxTree (Expr Stmt Block Parameter TypeName)

/-- The name of a type. -/
def typeName : Reader TypeName := do
  match TypeName.ofKind? (← Reader.kind) with
  | some type =>
      let _ ← Reader.advance
      return type
  | none => Reader.fail .unexpectedToken Token.Kind.typeNames

/-- A parameter: its type and its name. -/
def parameter : Reader Parameter := do
  let first ← Reader.current
  let type ← typeName
  let name ← Reader.expect .identifier
  return { type, name := name.text, span := first.span.through name.span }

/-- The initial value of a variable, up to the semicolon, which is not passed.  It
may be left out only where a type is declared. -/
def initializer (expression : Reader Expr) (type : Option TypeName) : Reader (Option Expr) := do
  match ← Reader.kind with
  | .assignment =>
      let _ ← Reader.advance
      return some (← expression)
  | .semicolon =>
      if type.isSome then
        return none
      else
        Reader.fail .missingInitializer [.assignment]
  | _ =>
      if type.isSome then
        Reader.fail .unexpectedToken [.assignment, .semicolon]
      else
        Reader.fail .unexpectedToken [.assignment]

/-- The declaration of a variable. -/
def declaration (expression : Reader Expr) : Reader Stmt := do
  let first ← Reader.advance
  let type := TypeName.ofKind? first.kind
  let name ← Reader.expect .identifier
  let initial ← initializer expression type
  let last ← Reader.expect .semicolon
  return .declaration type name.text initial (first.span.through last.span)

/-- A new value for a variable. -/
def assignment (expression : Reader Expr) : Reader Stmt := do
  let target ← Reader.advance
  let _ ← Reader.advance
  let value ← expression
  let last ← Reader.expect .semicolon
  return .assignment target.text value (target.span.through last.span)

/-- A call as a statement. -/
def callStatement (expression : Reader Expr) : Reader Stmt := do
  let callee ← Reader.advance
  let (arguments, close) ← Reader.parenthesised expression
  let last ← Reader.expect .semicolon
  return .expression (.call callee.text arguments (callee.span.through close))
    (callee.span.through last.span)

/-- A statement that begins with a name: the token behind the name decides. -/
def assignmentOrCall (expression : Reader Expr) : Reader Stmt := do
  match ← Reader.nextKind with
  | .assignment => assignment expression
  | .openParen => callStatement expression
  | _ =>
      let _ ← Reader.advance
      Reader.fail .bareIdentifier [.assignment, .openParen]

/-- A condition between parentheses. -/
def condition (expression : Reader Expr) : Reader Expr := do
  let _ ← Reader.expect .openParen
  let value ← expression
  let _ ← Reader.expect .closeParen
  return value

/-- A statement with a condition and one or two blocks. -/
def conditional (expression : Reader Expr) (block : Reader Block) : Reader Stmt := do
  let first ← Reader.advance
  let test ← condition expression
  let consequent ← block
  if (← Reader.kind) = .elseWord then
    let _ ← Reader.advance
    let alternative ← block
    return .conditional test consequent (some alternative)
      (first.span.through alternative.span)
  else
    return .conditional test consequent none (first.span.through consequent.span)

/-- A statement that repeats a block. -/
def loop (expression : Reader Expr) (block : Reader Block) : Reader Stmt := do
  let first ← Reader.advance
  let test ← condition expression
  let body ← block
  return .loop test body (first.span.through body.span)

/-- The declaration of a function. -/
def function (block : Reader Block) : Reader Stmt := do
  let first ← Reader.advance
  let name ← Reader.expect .identifier
  let (parameters, _) ← Reader.parenthesised parameter
  let body ← block
  return .function name.text parameters body (first.span.through body.span)

/-- A value, unless a semicolon comes first. -/
def optionalValue (expression : Reader Expr) : Reader (Option Expr) := do
  if (← Reader.kind) = .semicolon then
    return none
  else
    return some (← expression)

/-- The end of a function's run. -/
def result (expression : Reader Expr) : Reader Stmt := do
  let first ← Reader.advance
  let value ← optionalValue expression
  let last ← Reader.expect .semicolon
  return .result value (first.span.through last.span)

/-- The output of a value. -/
def print (expression : Reader Expr) : Reader Stmt := do
  let first ← Reader.advance
  let value ← condition expression
  let last ← Reader.expect .semicolon
  return .print value (first.span.through last.span)

/-- The reader of a form, given those for an expression and for a block. -/
def form (expression : Reader Expr) (block : Reader Block) : StatementForm -> Reader Stmt
  | .declaration => declaration expression
  | .assignmentOrCall => assignmentOrCall expression
  | .conditional => conditional expression block
  | .loop => loop expression block
  | .function => function block
  | .result => result expression
  | .print => print expression

/-- The statement that the current token announces; where none is announced the
error says which tokens could stand here. -/
def announced (grammar : Grammar) (expected : List Token.Kind) (expression : Reader Expr)
    (block : Reader Block) : Reader Stmt := do
  match grammar.statement (← Reader.kind) with
  | some statement => form expression block statement
  | none => Reader.fail .invalidStatementStart expected

/-- A statement inside a block, where the end of the input is a missing brace. -/
def inBlock (grammar : Grammar) (expression : Reader Expr) (block : Reader Block) :
    Reader Stmt := do
  if (← Reader.kind) = .eof then
    Reader.fail .unexpectedToken [.closeCurly]
  else
    announced grammar (Token.Kind.statementStart ++ [.closeCurly]) expression block

/-- The statements of a block, given the reader for one of them. -/
def statements (statement : Reader Stmt) : Reader (List Stmt) := do
  Reader.untilKind .closeCurly statement (← Reader.tokens)

/-- A block, given the reader for what stands between its braces. -/
def braced (body : Reader (List Stmt)) : Reader Block := do
  let opening ← Reader.expect .openCurly
  let enclosed ← body
  let close ← Reader.expect .closeCurly
  return .mk enclosed (opening.span.through close.span)

/-- A block, with so many levels open. -/
def block (grammar : Grammar) : Nat -> Reader Block
  | 0 => braced (Reader.fail .nestingTooDeep [])
  | levels + 1 =>
      braced (statements
        (inBlock grammar (Expression.whole grammar levels) (block grammar levels)))

/-- A form of statement, with so many levels open. -/
def ofForm (grammar : Grammar) (levels : Nat) : StatementForm -> Reader Stmt :=
  form (Expression.whole grammar levels) (block grammar levels)

/-- A statement, with so many levels open. -/
def read (grammar : Grammar) (levels : Nat) : Reader Stmt :=
  announced grammar Token.Kind.statementStart (Expression.whole grammar levels)
    (block grammar levels)

/-- A statement at the top of a program, where functions may be declared. -/
def atTop (grammar : Grammar) (levels : Nat) : Reader Stmt := do
  if (← Reader.kind) = .functionWord then
    function (block grammar levels)
  else
    announced grammar (.functionWord :: Token.Kind.statementStart)
      (Expression.whole grammar levels) (block grammar levels)

end Statement
end Reading
end ToyFrontend
