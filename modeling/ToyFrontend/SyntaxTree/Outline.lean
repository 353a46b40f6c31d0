import ToyFrontend.SyntaxTree.Stmt

namespace ToyFrontend
namespace SyntaxTree

/-!
The outline of a program: one line for each statement, block and expression,
indented by its depth.  An expression takes a single line, since its text is
fully parenthesised.
-/

namespace Outline

/-- A line of an outline at a depth; the root has depth zero. -/
def line (depth : Nat) (label : String) : String :=
  match depth with
  | 0 => label
  | depth + 1 => String.join (List.replicate depth "|  ") ++ "|--" ++ label

/-- The line of an expression, if there is one. -/
def optional (depth : Nat) : Option Expr -> List String
  | none => []
  | some expression => [line depth expression.text]

/-- The label of a variable's declared type. -/
def typeLabel : Option TypeName -> String
  | none => "var"
  | some type => type.text

mutual

/-- The lines of a statement. -/
def statement (depth : Nat) : Stmt -> List String
  | .function name parameters body _ =>
      line depth ("FunctionDecl " ++ name ++ "(" ++
        String.intercalate ", " (parameters.map Parameter.text) ++ ")") ::
        block (depth + 1) "Block" body
  | .declaration type name initial _ =>
      line depth ("VarDecl " ++ typeLabel type ++ " " ++ name) :: optional (depth + 1) initial
  | .assignment target value _ =>
      [line depth ("Assignment " ++ target), line (depth + 1) value.text]
  | .conditional condition consequent alternative _ =>
      line depth "If" :: line (depth + 1) condition.text ::
        (block (depth + 1) "Then" consequent ++
          match alternative with
          | none => []
          | some otherwise => block (depth + 1) "Else" otherwise)
  | .loop condition body _ =>
      line depth "While" :: line (depth + 1) condition.text :: block (depth + 1) "Body" body
  | .result value _ => line depth "Return" :: optional (depth + 1) value
  | .expression value _ => [line depth "ExpressionStatement", line (depth + 1) value.text]
  | .print value _ => [line depth "Print", line (depth + 1) value.text]

/-- The lines of a block under a label. -/
def block (depth : Nat) (label : String) : Block -> List String
  | .mk body _ => line depth label :: statements (depth + 1) body

/-- The lines of several statements. -/
def statements (depth : Nat) : List Stmt -> List String
  | [] => []
  | first :: rest => statement depth first ++ statements depth rest

end

end Outline

/-- The outline of a program. -/
def Program.outline (program : Program) : List String :=
  Outline.line 0 "Program" :: Outline.statements 1 program.body

end SyntaxTree
end ToyFrontend
