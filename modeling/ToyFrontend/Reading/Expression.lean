import ToyFrontend.Reading.Grammar
import ToyFrontend.Reading.Reader
import ToyFrontend.SyntaxTree.Expr

namespace ToyFrontend
namespace Reading
namespace Expression

/-!
Reading expressions.  An expression begins with a form that a token announces
and goes on with operators as long as they bind more tightly than the context.
Each form is a reader of its own that is given the readers for its parts; the
number of levels still open to nested expressions is what makes the whole end,
since every part that may hold an expression again has one level less.
-/

open SyntaxTree (Expr BindingPower BinaryOperator UnaryOperator)

/-- The expression that a token denotes by itself. -/
def atom? (token : Token) : Option Expr :=
  match token.kind, token.value with
  | .intLiteral, some (.int value) => some (.intLiteral value token.span)
  | .stringLiteral, some (.string value) => some (.stringLiteral value token.span)
  | .boolLiteral, some (.bool value) => some (.boolLiteral value token.span)
  | .identifier, _ => some (.identifier token.text token.span)
  | _, _ => none

/-- A name and the arguments between parentheses behind it. -/
def call (argument : Reader Expr) : Reader Expr := do
  let callee ← Reader.expect .identifier
  let (arguments, close) ← Reader.parenthesised argument
  return .call callee.text arguments (callee.span.through close)

/-- A literal, a name or a call.  A name is called when a parenthesis follows it. -/
def primary (argument : Reader Expr) : Reader Expr := do
  let token ← Reader.current
  if token.kind = .identifier && (← Reader.nextKind) = .openParen then
    call argument
  else
    match atom? token with
    | some expression =>
        let _ ← Reader.advance
        return expression
    | none => Reader.fail .unexpectedToken Token.Kind.primaryStart

/-- An expression between parentheses, after whatever token announced it. -/
def grouping (inner : Reader Expr) : Reader Expr := do
  let opening ← Reader.advance
  let expression ← inner
  let close ← Reader.expect .closeParen
  return .grouping expression (opening.span.through close.span)

/-- An operator before its operand. -/
def unary (operand : Reader Expr) : Reader Expr := do
  match UnaryOperator.ofKind? (← Reader.kind) with
  | none => Reader.refuse
  | some operator =>
      let token ← Reader.advance
      let expression ← operand
      return .unary operator expression (token.span.through expression.span)

/-- An operator behind its left operand, and its right operand. -/
def binary (right : Reader Expr) (left : Expr) : Reader Expr := do
  match BinaryOperator.ofKind? (← Reader.kind) with
  | none => Reader.refuse
  | some operator =>
      let _ ← Reader.advance
      let expression ← right
      return .binary left operator expression (left.span.through expression.span)

/-- The reader of a form, given those for an inner expression and for an operation. -/
def form (inner operation : Reader Expr) : LeadingForm -> Reader Expr
  | .primary => primary inner
  | .unary => operation
  | .grouping => grouping inner
  | .call => call inner

/-- The form that the current token announces. -/
def announced (grammar : Grammar) (inner operation : Reader Expr) : Reader Expr := do
  match grammar.leading (← Reader.kind) with
  | some leading => form inner operation leading
  | none => Reader.fail .expectedExpression Token.Kind.expressionStart

/-- The operand of a unary operator.  It has no operator of its own: two of them in
a row need parentheses, and a token that a grammar takes for one is refused. -/
def operand (grammar : Grammar) (inner : Reader Expr) : Reader Expr := do
  if (UnaryOperator.ofKind? (← Reader.kind)).isSome then
    Reader.fail .expectedExpression Token.Kind.primaryStart
  else
    announced grammar inner Reader.refuse

/-- The beginning of an expression, up to its first binary operator. -/
def leading (grammar : Grammar) (inner : Reader Expr) : Reader Expr :=
  announced grammar inner (unary (operand grammar inner))

/-- Go on with a binary operator as long as it binds more tightly than `power`.
There are at most as many operators as there are `rounds`. -/
def climb (grammar : Grammar) (right : BindingPower -> Reader Expr) (power : BindingPower) :
    List Token -> Expr -> Reader Expr
  | [], left => return left
  | _ :: rounds, left => do
      match grammar.binding (← Reader.kind) with
      | none => return left
      | some next =>
          if next <= power then
            return left
          else
            climb grammar right power rounds (← binary (right next) left)

/-- An expression in a context of the given power, with so many levels open. -/
def read (grammar : Grammar) : Nat -> BindingPower -> Reader Expr
  | 0, _ => Reader.fail .nestingTooDeep []
  | levels + 1, power => do
      let left ← leading grammar (read grammar levels .loosest)
      climb grammar (read grammar levels) power (← Reader.tokens) left

/-- A whole expression, with so many levels open. -/
def whole (grammar : Grammar) (levels : Nat) : Reader Expr :=
  read grammar levels .loosest

/-- A leading form, with so many levels open. -/
def ofForm (grammar : Grammar) (levels : Nat) : LeadingForm -> Reader Expr :=
  form (whole grammar levels) (unary (operand grammar (whole grammar levels)))

end Expression
end Reading
end ToyFrontend
