import ToyFrontend.Reading.Statement
import ToyFrontend.SyntaxTree.Nesting

namespace ToyFrontend
namespace Reading

/-!
Reading step by step.  A session keeps a cursor, a grammar and the number of
levels that are taken, and applies readers to them one at a time.  It goes on
after an error, from wherever the failed reader left the cursor.
-/

open SyntaxTree (Expr Stmt Block TypeName BindingPower)

/-- The state between two steps. -/
structure Session where
  cursor : Cursor
  grammar : Grammar
  depth : Nat

namespace Session

/-- A session at the first token, in which no token begins anything. -/
def ofTokens (tokens : List Token) : Session where
  cursor := .ofTokens tokens
  grammar := .empty
  depth := 0

/-- The levels still open. -/
def levels (session : Session) : Nat :=
  SyntaxTree.nestingLimit - session.depth

/-- What a session can be asked to do. -/
inductive Action where
  | look
  | advance
  | expect (kind : Token.Kind)
  /-- Take levels, up to so many times. -/
  | enter (times : Nat)
  /-- Give levels back, so many times. -/
  | leave (times : Nat)
  /-- Make the error that blames the current token. -/
  | blame (expected : List Token.Kind)
  /-- Look at the grammar. -/
  | grammar
  /-- Add the entries of the language's own grammar. -/
  | adoptStandard
  | setBinding (kind : Token.Kind) (power : BindingPower)
  | setLeading (kind : Token.Kind) (form : LeadingForm)
  | setStatement (kind : Token.Kind) (form : StatementForm)
  /-- Read a statement as at the top of a program. -/
  | topStatement
  | statement
  | statementForm (form : StatementForm)
  | block
  | typeName
  | expression (power : BindingPower)
  | expressionForm (form : LeadingForm)
  /-- Read an operator and its right operand behind a left one. -/
  | operation (left : Expr) (power : BindingPower)
  /-- Read arguments between parentheses. -/
  | arguments

/-- What a session answers when a step succeeds. -/
inductive Answer where
  | nothing
  | token (token : Token)
  /-- So many levels were taken, and the error that ended this early, if one did. -/
  | entered (count : Nat) (failure : Option SyntaxError)
  | grammar (grammar : Grammar)
  | statement (statement : Stmt)
  | block (block : Block)
  | typeName (type : TypeName)
  | expression (expression : Expr)
  | arguments (arguments : List Expr) (close : Source.Span)

/-- Take one level. -/
def enter (session : Session) : Except SyntaxError Session :=
  if session.depth < SyntaxTree.nestingLimit then
    .ok { session with depth := session.depth + 1 }
  else
    .error (SyntaxError.blame .nestingTooDeep [] session.cursor.current)

/-- Take levels until one is refused, at most so many times. -/
def enterTimes : Nat -> Session -> Session × Nat × Option SyntaxError
  | 0, session => (session, 0, none)
  | times + 1, session =>
      match session.enter with
      | .error error => (session, 0, some error)
      | .ok entered =>
          let (last, count, failure) := enterTimes times entered
          (last, count + 1, failure)

/-- Apply a reader at the cursor. -/
def apply {Result : Type} (session : Session) (reader : Reader Result)
    (answer : Result -> Answer) : Session × Except SyntaxError Answer :=
  match reader.run session.cursor with
  | .ok result cursor => ({ session with cursor }, .ok (answer result))
  | .error error cursor => ({ session with cursor }, .error error)

/-- Take one step. -/
def step (session : Session) : Action -> Session × Except SyntaxError Answer
  | .look => (session, .ok .nothing)
  | .advance => session.apply Reader.advance .token
  | .expect kind => session.apply (Reader.expect kind) .token
  | .enter times =>
      let (last, count, failure) := enterTimes times session
      (last, .ok (.entered count failure))
  | .leave times => ({ session with depth := session.depth - times }, .ok .nothing)
  | .blame expected =>
      (session, .error (SyntaxError.blame .unexpectedToken expected session.cursor.current))
  | .grammar => (session, .ok (.grammar session.grammar))
  | .adoptStandard =>
      ({ session with grammar := Grammar.standard.overlay session.grammar }, .ok .nothing)
  | .setBinding kind power =>
      ({ session with grammar := session.grammar.withBinding kind power }, .ok .nothing)
  | .setLeading kind form =>
      ({ session with grammar := session.grammar.withLeading kind form }, .ok .nothing)
  | .setStatement kind form =>
      ({ session with grammar := session.grammar.withStatement kind form }, .ok .nothing)
  | .topStatement =>
      session.apply (Statement.atTop session.grammar session.levels) .statement
  | .statement => session.apply (Statement.read session.grammar session.levels) .statement
  | .statementForm form =>
      session.apply (Statement.ofForm session.grammar session.levels form) .statement
  | .block => session.apply (Statement.block session.grammar session.levels) .block
  | .typeName => session.apply Statement.typeName .typeName
  | .expression power =>
      session.apply (Expression.read session.grammar session.levels power) .expression
  | .expressionForm form =>
      session.apply (Expression.ofForm session.grammar session.levels form) .expression
  | .operation left power =>
      session.apply
        (Expression.binary (Expression.read session.grammar session.levels power) left)
        .expression
  | .arguments =>
      session.apply
        (Reader.parenthesised (Expression.whole session.grammar session.levels))
        fun (arguments, close) => .arguments arguments close

/-- Take several steps, and keep the session after each with its answer. -/
def trace (session : Session) : List Action -> List (Session × Except SyntaxError Answer)
  | [] => []
  | action :: actions =>
      let (next, answer) := session.step action
      (next, answer) :: trace next actions

end Session

end Reading
end ToyFrontend
