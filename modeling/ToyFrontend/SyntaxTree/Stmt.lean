import ToyFrontend.SyntaxTree.Expr

namespace ToyFrontend
namespace SyntaxTree

/-!
Statements, blocks and programs.
-/

/-- A parameter of a function. -/
structure Parameter where
  type : TypeName
  name : String
  span : Source.Span
deriving DecidableEq, Repr

namespace Parameter

/-- A parameter as it is written. -/
def text (parameter : Parameter) : String :=
  parameter.type.text ++ " " ++ parameter.name

end Parameter

mutual

/-- A statement.  Every node keeps the stretch of source it was read from. -/
inductive Stmt where
  | function (name : String) (parameters : List Parameter) (body : Block) (span : Source.Span)
  /-- The declaration of a variable; a declaration with `var` names no type. -/
  | declaration (type : Option TypeName) (name : String) (initial : Option Expr)
      (span : Source.Span)
  | assignment (target : String) (value : Expr) (span : Source.Span)
  | conditional (condition : Expr) (consequent : Block) (alternative : Option Block)
      (span : Source.Span)
  | loop (condition : Expr) (body : Block) (span : Source.Span)
  /-- The end of a function's run, with the value it gives back. -/
  | result (value : Option Expr) (span : Source.Span)
  | expression (value : Expr) (span : Source.Span)
  | print (value : Expr) (span : Source.Span)

/-- The statements between two curly braces. -/
inductive Block where
  | mk (statements : List Stmt) (span : Source.Span)

end

namespace Stmt

/-- The stretch of source that a statement covers. -/
def span : Stmt -> Source.Span
  | .function _ _ _ span => span
  | .declaration _ _ _ span => span
  | .assignment _ _ span => span
  | .conditional _ _ _ span => span
  | .loop _ _ span => span
  | .result _ span => span
  | .expression _ span => span
  | .print _ span => span

/-- The name of the function that a statement declares. -/
def functionName? : Stmt -> Option String
  | .function name _ _ _ => some name
  | _ => none

end Stmt

namespace Block

/-- The statements of a block. -/
def statements : Block -> List Stmt
  | .mk statements _ => statements

/-- The stretch of source from the opening to the closing brace. -/
def span : Block -> Source.Span
  | .mk _ span => span

end Block

/-- A program: its declarations and statements in order. -/
structure Program where
  body : List Stmt
  span : Source.Span

namespace Program

/-- The names of the functions declared at the top, in order. -/
def functionNames (program : Program) : List String :=
  program.body.filterMap Stmt.functionName?

end Program

end SyntaxTree
end ToyFrontend
