import ToyFrontend.Reading.Session

namespace ToyFrontend
namespace Reading

/-!
# Reading without counts

The readers of this library end by the way they are defined: a loop is given as
many rounds as there are tokens ahead, and what stands inside something else is
given one level less.  Whether reading would also end if nothing were counted is
a question that such a definition does not ask.

Here reading is written down once more, as procedures that call each other.  A
loop is a procedure that calls itself for its next round, and nothing says how
often.  The state is that of a session: a procedure for an expression or a block
takes a level where it begins and gives it back where it ends, also with an error.

`Procedure.run` carries out a procedure with so many calls inside each other.  A
call that would go deeper is left `unfinished`.  That is no syntax error, so it
cannot be mistaken for the end of a procedure.
-/

open SyntaxTree (Expr Stmt Block Parameter TypeName BindingPower BinaryOperator UnaryOperator)

/-- Why there is no result. -/
inductive Interruption where
  | refused (error : SyntaxError)
  /-- More calls were made inside each other than are carried out. -/
  | unfinished

/-- A computation on a session. -/
abbrev Process : Type -> Type :=
  EStateM Interruption Session

/-- What can be called. -/
inductive Procedure : Type -> Type where
  | expression (power : BindingPower) : Procedure Expr
  /-- Go on behind a left operand, operator by operator. -/
  | climb (power : BindingPower) (left : Expr) : Procedure Expr
  | operation (left : Expr) (power : BindingPower) : Procedure Expr
  | leading : Procedure Expr
  | expressionForm (form : LeadingForm) : Procedure Expr
  | arguments : Procedure (List Expr × Source.Span)
  /-- Go on with an argument and those behind it. -/
  | moreArguments : Procedure (List Expr)
  | typeName : Procedure TypeName
  /-- Go on with a parameter and those behind it. -/
  | moreParameters : Procedure (List Parameter)
  | statementForm (form : StatementForm) : Procedure Stmt
  | statement : Procedure Stmt
  | topStatement : Procedure Stmt
  | block : Procedure Block
  /-- Go on with the statements of a block. -/
  | moreStatements : Procedure (List Stmt)
  /-- Go on with the statements of a program. -/
  | moreProgram : Procedure (List Stmt)

/-- A way to carry out calls. -/
abbrev Procedure.Calls : Type 1 :=
  {Result : Type} -> Procedure Result -> Process Result

/-- The end of a reader's run in a session, of which it changes nothing but the cursor. -/
def Session.ending {Result : Type} (session : Session) :
    EStateM.Result SyntaxError Cursor Result -> EStateM.Result Interruption Session Result
  | .ok result cursor => .ok result { session with cursor }
  | .error error cursor => .error (.refused error) { session with cursor }

namespace Process

/-- Apply a reader at the cursor. -/
def read {Result : Type} (reader : Reader Result) : Process Result := fun session =>
  session.ending (reader.run session.cursor)

/-- Take a level, go on inside, and give the level back however that ends. -/
def nested {Result : Type} (inside : Process Result) : Process Result := fun session =>
  match session.enter with
  | .error error => .error (.refused error) session
  | .ok entered =>
      match inside.run entered with
      | .ok result last => .ok result { last with depth := last.depth - 1 }
      | .error cause last => .error cause { last with depth := last.depth - 1 }

/-- The grammar of the session. -/
def grammar : Process Grammar := do
  return (← get).grammar

/-- An item, and after a comma the next ones, up to a closing parenthesis. -/
def moreItems {Item : Type} (item : Process Item) (more : Process (List Item)) :
    Process (List Item) := do
  let first ← item
  match ← read Reader.kind with
  | .comma =>
      let _ ← read Reader.advance
      let rest ← more
      return first :: rest
  | .closeParen => return [first]
  | _ => read (Reader.fail .unexpectedToken [.comma, .closeParen])

/-- Items up to a closing parenthesis; there need not be any. -/
def items {Item : Type} (more : Process (List Item)) : Process (List Item) := do
  if (← read Reader.kind) = .closeParen then
    return []
  else
    more

def parenthesised {Item : Type} (more : Process (List Item)) :
    Process (List Item × Source.Span) := do
  let _ ← read (Reader.expect .openParen)
  let enclosed ← items more
  let close ← read (Reader.expect .closeParen)
  return (enclosed, close.span)

/-- An item and the next ones, unless the current token is of the kind `stop`. -/
def untilKind {Item : Type} (stop : Token.Kind) (item : Process Item)
    (more : Process (List Item)) : Process (List Item) := do
  if (← read Reader.kind) = stop then
    return []
  else
    let first ← item
    let rest ← more
    return first :: rest

variable (call : Procedure.Calls)

/-! ## Expressions -/

/-- One more operator, if it binds more tightly than `power`, and then the next one. -/
def climb (power : BindingPower) (left : Expr) : Process Expr := do
  match (← grammar).binding (← read Reader.kind) with
  | none => return left
  | some next =>
      if next <= power then
        return left
      else
        let wider ← call (.operation left next)
        call (.climb power wider)

def operation (left : Expr) (power : BindingPower) : Process Expr := do
  match BinaryOperator.ofKind? (← read Reader.kind) with
  | none => read Reader.refuse
  | some operator =>
      let _ ← read Reader.advance
      let right ← call (.expression power)
      return .binary left operator right (left.span.through right.span)

def leading : Process Expr := do
  match (← grammar).leading (← read Reader.kind) with
  | some form => call (.expressionForm form)
  | none => read (Reader.fail .expectedExpression Token.Kind.expressionStart)

def primary : Process Expr := do
  let token ← read Reader.current
  if token.kind = .identifier && (← read Reader.nextKind) = .openParen then
    call (.expressionForm .call)
  else
    match Expression.atom? token with
    | some expression =>
        let _ ← read Reader.advance
        return expression
    | none => read (Reader.fail .unexpectedToken Token.Kind.primaryStart)

def operand : Process Expr := do
  if (UnaryOperator.ofKind? (← read Reader.kind)).isSome then
    read (Reader.fail .expectedExpression Token.Kind.primaryStart)
  else
    call .leading

def unary : Process Expr := do
  match UnaryOperator.ofKind? (← read Reader.kind) with
  | none => read Reader.refuse
  | some operator =>
      let token ← read Reader.advance
      let expression ← operand call
      return .unary operator expression (token.span.through expression.span)

def grouping : Process Expr := do
  let opening ← read Reader.advance
  let inner ← call (.expression .loosest)
  let close ← read (Reader.expect .closeParen)
  return .grouping inner (opening.span.through close.span)

def calling : Process Expr := do
  let callee ← read (Reader.expect .identifier)
  let (arguments, close) ← call .arguments
  return .call callee.text arguments (callee.span.through close)

def expressionForm : LeadingForm -> Process Expr
  | .primary => primary call
  | .unary => unary call
  | .grouping => grouping call
  | .call => calling call

/-! ## Statements -/

def initializer (type : Option TypeName) : Process (Option Expr) := do
  match ← read Reader.kind with
  | .assignment =>
      let _ ← read Reader.advance
      return some (← call (.expression .loosest))
  | .semicolon =>
      if type.isSome then
        return none
      else
        read (Reader.fail .missingInitializer [.assignment])
  | _ =>
      if type.isSome then
        read (Reader.fail .unexpectedToken [.assignment, .semicolon])
      else
        read (Reader.fail .unexpectedToken [.assignment])

def declaration : Process Stmt := do
  let first ← read Reader.advance
  let type := TypeName.ofKind? first.kind
  let name ← read (Reader.expect .identifier)
  let initial ← initializer call type
  let last ← read (Reader.expect .semicolon)
  return .declaration type name.text initial (first.span.through last.span)

def assignment : Process Stmt := do
  let target ← read Reader.advance
  let _ ← read Reader.advance
  let value ← call (.expression .loosest)
  let last ← read (Reader.expect .semicolon)
  return .assignment target.text value (target.span.through last.span)

def callStatement : Process Stmt := do
  let callee ← read Reader.advance
  let (arguments, close) ← call .arguments
  let last ← read (Reader.expect .semicolon)
  return .expression (.call callee.text arguments (callee.span.through close))
    (callee.span.through last.span)

def assignmentOrCall : Process Stmt := do
  match ← read Reader.nextKind with
  | .assignment => assignment call
  | .openParen => callStatement call
  | _ =>
      let _ ← read Reader.advance
      read (Reader.fail .bareIdentifier [.assignment, .openParen])

def condition : Process Expr := do
  let _ ← read (Reader.expect .openParen)
  let value ← call (.expression .loosest)
  let _ ← read (Reader.expect .closeParen)
  return value

def conditional : Process Stmt := do
  let first ← read Reader.advance
  let test ← condition call
  let consequent ← call .block
  if (← read Reader.kind) = .elseWord then
    let _ ← read Reader.advance
    let alternative ← call .block
    return .conditional test consequent (some alternative) (first.span.through alternative.span)
  else
    return .conditional test consequent none (first.span.through consequent.span)

def loop : Process Stmt := do
  let first ← read Reader.advance
  let test ← condition call
  let body ← call .block
  return .loop test body (first.span.through body.span)

def function : Process Stmt := do
  let first ← read Reader.advance
  let name ← read (Reader.expect .identifier)
  let (parameters, _) ← parenthesised (call .moreParameters)
  let body ← call .block
  return .function name.text parameters body (first.span.through body.span)

def optionalValue : Process (Option Expr) := do
  if (← read Reader.kind) = .semicolon then
    return none
  else
    return some (← call (.expression .loosest))

def result : Process Stmt := do
  let first ← read Reader.advance
  let value ← optionalValue call
  let last ← read (Reader.expect .semicolon)
  return .result value (first.span.through last.span)

def print : Process Stmt := do
  let first ← read Reader.advance
  let value ← condition call
  let last ← read (Reader.expect .semicolon)
  return .print value (first.span.through last.span)

def statementForm : StatementForm -> Process Stmt
  | .declaration => declaration call
  | .assignmentOrCall => assignmentOrCall call
  | .conditional => conditional call
  | .loop => loop call
  | .function => function call
  | .result => result call
  | .print => print call

def statement : Process Stmt := do
  match (← grammar).statement (← read Reader.kind) with
  | some form => call (.statementForm form)
  | none => read (Reader.fail .invalidStatementStart Token.Kind.statementStart)

/-- At the top the word for functions begins one, whatever the grammar says. -/
def topStatement : Process Stmt := do
  let kind ← read Reader.kind
  if kind = .functionWord then
    call (.statementForm .function)
  else if ((← grammar).statement kind).isSome then
    call .statement
  else
    read (Reader.fail .invalidStatementStart (.functionWord :: Token.Kind.statementStart))

def braced (body : Process (List Stmt)) : Process Block := do
  let opening ← read (Reader.expect .openCurly)
  let enclosed ← body
  let close ← read (Reader.expect .closeCurly)
  return .mk enclosed (opening.span.through close.span)

/-- A statement inside a block, where the end of the input is a missing brace. -/
def inBlock : Process Stmt := do
  let kind ← read Reader.kind
  if kind = .eof then
    read (Reader.fail .unexpectedToken [.closeCurly])
  else if ((← grammar).statement kind).isSome then
    call .statement
  else
    read (Reader.fail .invalidStatementStart (Token.Kind.statementStart ++ [.closeCurly]))

end Process

/-! ## Calls -/

namespace Procedure

/-- What a procedure does when it is called, and its own calls are carried out like this. -/
def body (call : Calls) : {Result : Type} -> Procedure Result -> Process Result
  | _, .expression power => Process.nested do call (.climb power (← call .leading))
  | _, .climb power left => Process.climb call power left
  | _, .operation left power => Process.operation call left power
  | _, .leading => Process.leading call
  | _, .expressionForm form => Process.expressionForm call form
  | _, .arguments => Process.parenthesised (call .moreArguments)
  | _, .moreArguments => Process.moreItems (call (.expression .loosest)) (call .moreArguments)
  | _, .typeName => Process.read Statement.typeName
  | _, .moreParameters =>
      Process.moreItems (Process.read Statement.parameter) (call .moreParameters)
  | _, .statementForm form => Process.statementForm call form
  | _, .statement => Process.statement call
  | _, .topStatement => Process.topStatement call
  | _, .block => Process.braced (Process.nested (call .moreStatements))
  | _, .moreStatements =>
      Process.untilKind .closeCurly (Process.inBlock call) (call .moreStatements)
  | _, .moreProgram => Process.untilKind .eof (call .topStatement) (call .moreProgram)

/-- Carry out a procedure with at most so many calls inside each other. -/
def run {Result : Type} : Nat -> Procedure Result -> Process Result
  | 0, _ => throw .unfinished
  | calls + 1, procedure => body (run calls) procedure

end Procedure

end Reading
end ToyFrontend
