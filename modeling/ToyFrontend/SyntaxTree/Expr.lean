import ToyFrontend.Text.Quoted
import ToyFrontend.Token
import ToyFrontend.SyntaxTree.Operator

namespace ToyFrontend
namespace SyntaxTree

/-!
Expressions.  Parentheses are kept in the tree as groupings, so that a tree shows
how its source was written and not only what it denotes.
-/

/-- An expression.  Every node keeps the stretch of source it was read from. -/
inductive Expr where
  | intLiteral (value : Int) (span : Source.Span)
  | stringLiteral (value : String) (span : Source.Span)
  | boolLiteral (value : Bool) (span : Source.Span)
  | identifier (name : String) (span : Source.Span)
  | binary (left : Expr) (operator : BinaryOperator) (right : Expr) (span : Source.Span)
  | unary (operator : UnaryOperator) (operand : Expr) (span : Source.Span)
  | call (callee : String) (arguments : List Expr) (span : Source.Span)
  | grouping (inner : Expr) (span : Source.Span)
deriving Repr

namespace Expr

/-- The stretch of source that an expression covers. -/
def span : Expr -> Source.Span
  | .intLiteral _ span => span
  | .stringLiteral _ span => span
  | .boolLiteral _ span => span
  | .identifier _ span => span
  | .binary _ _ _ span => span
  | .unary _ _ span => span
  | .call _ _ span => span
  | .grouping _ span => span

/-- Does the text of an expression bring parentheses of its own? -/
def isOperation : Expr -> Bool
  | .binary .. | .unary .. => true
  | _ => false

mutual

/-- The text of an expression, fully parenthesised: every operation stands in
parentheses, and a grouping around an operation adds none. -/
def text : Expr -> String
  | .intLiteral value _ => toString value
  | .stringLiteral value _ => String.ofList (Text.Quoted.encode value.toList)
  | .boolLiteral value _ => Literal.boolText value
  | .identifier name _ => name
  | .binary left operator right _ =>
      "(" ++ left.text ++ " " ++ operator.symbol ++ " " ++ right.text ++ ")"
  | .unary operator operand _ => "(" ++ operator.symbol ++ operand.text ++ ")"
  | .call callee arguments _ =>
      callee ++ "(" ++ String.intercalate ", " (texts arguments) ++ ")"
  | .grouping inner _ => if inner.isOperation then inner.text else "(" ++ inner.text ++ ")"

/-- The texts of several expressions. -/
def texts : List Expr -> List String
  | [] => []
  | first :: rest => first.text :: texts rest

end

/-- The texts of several expressions, one by one. -/
theorem texts_eq_map (expressions : List Expr) : texts expressions = expressions.map text := by
  induction expressions with
  | nil => simp [texts]
  | cons first rest inductionHypothesis => simp [texts, inductionHypothesis]

end Expr

end SyntaxTree
end ToyFrontend
