import ToyFrontend.Diagnostic.LexicalError
import ToyFrontend.Diagnostic.SyntaxError
import ToyFrontend.SyntaxTree.Stmt

namespace ToyFrontend

/-!
# Trees at other places

Tokens, errors and trees keep places in a text.  Each of them has a counterpart
in which every place is replaced by another and everything else stays.
-/

variable (move : Source.Position -> Source.Position)

/-- The span between the places that are put for its ends. -/
def Source.Span.relocate (span : Source.Span) : Source.Span where
  start := move span.start
  finish := move span.finish

/-- The token at another place. -/
def Token.relocate (token : Token) : Token :=
  { token with span := token.span.relocate move }

/-- The error at another place. -/
def LexicalError.relocate (error : LexicalError) : LexicalError :=
  { error with position := move error.position }

/-- The error at another place. -/
def SyntaxError.relocate (error : SyntaxError) : SyntaxError :=
  { error with position := move error.position }

namespace SyntaxTree

mutual

/-- The expression with all places replaced. -/
def Expr.relocate : Expr -> Expr
  | .intLiteral value span => .intLiteral value (span.relocate move)
  | .stringLiteral value span => .stringLiteral value (span.relocate move)
  | .boolLiteral value span => .boolLiteral value (span.relocate move)
  | .identifier name span => .identifier name (span.relocate move)
  | .binary left operator right span =>
      .binary left.relocate operator right.relocate (span.relocate move)
  | .unary operator operand span => .unary operator operand.relocate (span.relocate move)
  | .call callee arguments span =>
      .call callee (Expr.listRelocate arguments) (span.relocate move)
  | .grouping inner span => .grouping inner.relocate (span.relocate move)

/-- Several expressions with all places replaced. -/
def Expr.listRelocate : List Expr -> List Expr
  | [] => []
  | first :: rest => first.relocate :: Expr.listRelocate rest

end

attribute [local simp] Expr.relocate Expr.listRelocate

theorem Expr.listRelocate_eq_map (expressions : List Expr) :
    listRelocate move expressions = expressions.map (relocate move) := by
  induction expressions with
  | nil => simp
  | cons first rest inductionHypothesis => simp [inductionHypothesis]

theorem Expr.span_relocate (expression : Expr) :
    (expression.relocate move).span = expression.span.relocate move := by
  cases expression <;> rfl

/-- The parameter at another place. -/
def Parameter.relocate (parameter : Parameter) : Parameter :=
  { parameter with span := parameter.span.relocate move }

mutual

/-- The statement with all places replaced. -/
def Stmt.relocate : Stmt -> Stmt
  | .function name parameters body span =>
      .function name (parameters.map (Parameter.relocate move)) (Block.relocate body)
        (span.relocate move)
  | .declaration type name initial span =>
      .declaration type name (initial.map (Expr.relocate move)) (span.relocate move)
  | .assignment target value span =>
      .assignment target (value.relocate move) (span.relocate move)
  | .conditional condition consequent alternative span =>
      .conditional (condition.relocate move) (Block.relocate consequent)
        (match alternative with
        | none => none
        | some otherwise => some (Block.relocate otherwise))
        (span.relocate move)
  | .loop condition body span =>
      .loop (condition.relocate move) (Block.relocate body) (span.relocate move)
  | .result value span => .result (value.map (Expr.relocate move)) (span.relocate move)
  | .expression value span => .expression (value.relocate move) (span.relocate move)
  | .print value span => .print (value.relocate move) (span.relocate move)

/-- The block with all places replaced. -/
def Block.relocate : Block -> Block
  | .mk statements span => .mk (Stmt.listRelocate statements) (span.relocate move)

/-- Several statements with all places replaced. -/
def Stmt.listRelocate : List Stmt -> List Stmt
  | [] => []
  | first :: rest => first.relocate :: Stmt.listRelocate rest

end

attribute [local simp] Stmt.relocate Block.relocate Stmt.listRelocate

theorem Stmt.listRelocate_eq_map (statements : List Stmt) :
    listRelocate move statements = statements.map (relocate move) := by
  induction statements with
  | nil => simp
  | cons first rest inductionHypothesis => simp [inductionHypothesis]

theorem Block.span_relocate (body : Block) :
    (body.relocate move).span = body.span.relocate move := by
  cases body
  rw [relocate]
  rfl

/-- The program with all places replaced.  It still begins at the beginning of the text. -/
def Program.relocate (program : Program) : Program where
  body := program.body.map (Stmt.relocate move)
  span := { program.span with finish := move program.span.finish }

end SyntaxTree
end ToyFrontend
