import ToyFrontend.Proofs.Tree
import ToyFrontend.SyntaxTree.Outline

namespace ToyFrontend
namespace SyntaxTree

/-!
# The outline of a program as a forest

Structure shows in an outline by indentation and by the order of lines only.
Both together are a forest of labels, and no two forests have the same lines: the
depth can be read off a line, and the lines below a label end where the depth
falls back to its own.
-/

/-! ## Forests of labels -/

namespace Outline

/-- Labels below and behind one another. -/
inductive Forest where
  | none
  | node (label : String) (inside behind : Forest)

namespace Forest

/-- The labels of a forest in the order of lines, each with its depth. -/
def rows (depth : Nat) : Forest -> List (Nat × String)
  | .none => []
  | .node label inside behind =>
      (depth, label) :: (inside.rows (depth + 1) ++ behind.rows depth)

/-- The lines of a forest below a root. -/
def lines (depth : Nat) (forest : Forest) : List String :=
  (forest.rows depth).map fun row => line (row.1 + 1) row.2

theorem lines_none (depth : Nat) : Forest.none.lines depth = [] :=
  rfl

theorem lines_node (depth : Nat) (label : String) (inside behind : Forest) :
    (node label inside behind).lines depth =
      line (depth + 1) label :: (inside.lines (depth + 1) ++ behind.lines depth) := by
  simp [lines, rows]

/-- What stands behind a forest of a depth is further out. -/
def Outer (depth : Nat) (rest : List (Nat × String)) : Prop :=
  forall row, rest.head? = some row -> row.1 < depth

theorem Outer.behind {depth : Nat} {rest : List (Nat × String)} (outer : Outer depth rest)
    (forest : Forest) : Outer (depth + 1) (forest.rows depth ++ rest) := by
  intro row isHead
  cases forest with
  | none => exact Nat.lt_succ_of_lt (outer row isHead)
  | node label inside behind =>
      cases isHead
      exact Nat.lt_succ_self depth

/-- The rows of a forest end where the depth falls below its own. -/
theorem eq_of_rows {first second : Forest} {depth : Nat} {rest others : List (Nat × String)}
    (outer : Outer depth rest) (outerOthers : Outer depth others)
    (same : first.rows depth ++ rest = second.rows depth ++ others) :
    first = second ∧ rest = others := by
  induction first generalizing second depth rest others with
  | none =>
      cases second with
      | none => exact ⟨rfl, same⟩
      | node label inside behind =>
          have shape : rest = _ := same
          have further := outer (depth, label) (congrArg List.head? shape)
          exact absurd further (Nat.lt_irrefl depth)
  | node label inside behind ofInside ofBehind =>
      cases second with
      | none =>
          have shape : others = _ := same.symm
          have further := outerOthers (depth, label) (congrArg List.head? shape)
          exact absurd further (Nat.lt_irrefl depth)
      | node other insideOther behindOther =>
          simp only [rows, List.cons_append, List.append_assoc, List.cons.injEq, Prod.mk.injEq,
            true_and] at same
          rcases same with ⟨rfl, sameRows⟩
          -- What is behind the label is further out than what is below it.
          rcases ofInside (outer.behind behind) (outerOthers.behind behindOther) sameRows with
            ⟨rfl, sameBehind⟩
          rcases ofBehind outer outerOthers sameBehind with ⟨rfl, sameRest⟩
          exact ⟨rfl, sameRest⟩

end Forest

theorem toList_line_succ_succ (depth : Nat) (label : String) :
    (line (depth + 2) label).toList = '|' :: ' ' :: ' ' :: (line (depth + 1) label).toList := by
  simp [line, List.replicate_succ]

theorem toList_line_one (label : String) :
    (line 1 label).toList = '|' :: '-' :: '-' :: label.toList := by
  simp [line]

/-- Depth and label can be read off a line below the root. -/
theorem eq_of_line {depth other : Nat} {label text : String}
    (same : line (depth + 1) label = line (other + 1) text) : depth = other ∧ label = text := by
  have sameList := congrArg String.toList same
  clear same
  induction depth generalizing other with
  | zero =>
      cases other with
      | zero =>
          rw [toList_line_one, toList_line_one] at sameList
          simp only [List.cons.injEq, true_and] at sameList
          exact ⟨rfl, String.toList_injective sameList⟩
      | succ other =>
          rw [toList_line_one, toList_line_succ_succ] at sameList
          cases sameList
  | succ depth inductionHypothesis =>
      cases other with
      | zero =>
          rw [toList_line_one, toList_line_succ_succ] at sameList
          cases sameList
      | succ other =>
          rw [toList_line_succ_succ, toList_line_succ_succ] at sameList
          simp only [List.cons.injEq, true_and] at sameList
          rcases inductionHypothesis sameList with ⟨rfl, sameLabel⟩
          exact ⟨rfl, sameLabel⟩

/-- No two forests have the same lines. -/
theorem Forest.eq_of_lines {first second : Forest} {depth : Nat}
    (same : first.lines depth = second.lines depth) : first = second := by
  have sameRows : first.rows depth = second.rows depth := by
    apply (List.map_inj_right _).mp same
    rintro ⟨depth, label⟩ ⟨other, text⟩ sameLine
    rcases eq_of_line sameLine with ⟨rfl, rfl⟩
    rfl
  have none : Outer depth [] := by rintro row ⟨⟩
  exact (eq_of_rows none none (by rw [sameRows])).1

/-! ## The forest of a program -/

/-- The label of a statement. -/
def label : Stmt -> String
  | .function name parameters _ _ =>
      "FunctionDecl " ++ (name ++ "(" ++
        String.intercalate ", " (parameters.map Parameter.text) ++ ")")
  | .declaration type name _ _ => "VarDecl " ++ (typeLabel type ++ " " ++ name)
  | .assignment target _ _ => "Assignment " ++ target
  | .conditional _ _ _ _ => "If"
  | .loop _ _ _ => "While"
  | .result _ _ => "Return"
  | .expression _ _ => "ExpressionStatement"
  | .print _ _ => "Print"

/-- The label of an expression that may be missing, with nothing below it. -/
def given : Option Expr -> Forest
  | none => .none
  | some value => .node value.text .none .none

mutual

/-- The labels below a statement. -/
def inside : Stmt -> Forest
  | .function _ _ body _ => .node "Block" (ofBlock body) .none
  | .declaration _ _ initial _ => given initial
  | .assignment _ value _ => given (some value)
  | .conditional condition consequent alternative _ =>
      .node condition.text .none (.node "Then" (ofBlock consequent)
        (match alternative with
        | none => .none
        | some otherwise => .node "Else" (ofBlock otherwise) .none))
  | .loop condition body _ => .node condition.text .none (.node "Body" (ofBlock body) .none)
  | .result value _ => given value
  | .expression value _ => given (some value)
  | .print value _ => given (some value)

/-- The labels of the statements of a block. -/
def ofBlock : Block -> Forest
  | .mk statements _ => ofList statements

/-- The labels of several statements. -/
def ofList : List Stmt -> Forest
  | [] => .none
  | first :: rest => .node (label first) (inside first) (ofList rest)

end

theorem optional_eq_lines (depth : Nat) (value : Option Expr) :
    optional (depth + 1) value = (given value).lines depth := by
  cases value with
  | none => rfl
  | some value => rfl

theorem statements_eq_lines {statements : List Stmt}
    (each : forall statement, statement ∈ statements -> forall depth : Nat,
      Outline.statement (depth + 1) statement =
        line (depth + 1) (label statement) :: (inside statement).lines (depth + 1))
    (depth : Nat) :
    Outline.statements (depth + 1) statements = (ofList statements).lines depth := by
  induction statements with
  | nil => rfl
  | cons first rest inductionHypothesis =>
      have ofRest := inductionHypothesis fun statement later =>
        each statement (List.mem_cons_of_mem _ later)
      rw [Outline.statements, ofList, Forest.lines_node, each first List.mem_cons_self, ofRest,
        List.cons_append]

theorem block_eq_lines {body : Block}
    (each : forall statement, statement ∈ body.statements -> forall depth : Nat,
      Outline.statement (depth + 1) statement =
        line (depth + 1) (label statement) :: (inside statement).lines (depth + 1))
    (depth : Nat) (title : String) :
    block (depth + 1) title body = line (depth + 1) title :: (ofBlock body).lines (depth + 1) := by
  rcases body with ⟨statements, span⟩
  have ofStatements : Outline.statements (depth + 1 + 1) statements = _ :=
    statements_eq_lines each (depth + 1)
  rw [block, ofBlock, ofStatements]
  rfl

/-- The lines of a statement are its label and what stands below it. -/
theorem statement_eq_lines (statement : Stmt) (depth : Nat) :
    Outline.statement (depth + 1) statement =
      line (depth + 1) (label statement) :: (inside statement).lines (depth + 1) := by
  induction statement using Stmt.induction generalizing depth with
  | function name parameters body span ofBody =>
      rw [Outline.statement, label, inside, block_eq_lines ofBody, Forest.lines_node,
        Forest.lines_none, List.append_nil]
      simp only [String.append_assoc]
  | declaration type name initial span =>
      rw [Outline.statement, label, inside, optional_eq_lines]
      simp only [String.append_assoc]
  | conditional condition consequent alternative span ofConsequent ofAlternative =>
      cases alternative with
      | none =>
          rw [Outline.statement, label, inside, block_eq_lines ofConsequent]
          simp [Forest.lines_node, Forest.lines_none]
      | some otherwise =>
          rw [Outline.statement, label, inside, block_eq_lines ofConsequent,
            block_eq_lines (ofAlternative otherwise rfl)]
          simp [Forest.lines_node, Forest.lines_none]
  | loop condition body span ofBody =>
      rw [Outline.statement, label, inside, block_eq_lines ofBody]
      simp [Forest.lines_node, Forest.lines_none]
  | result value span => rw [Outline.statement, label, inside, optional_eq_lines]
  | _ => simp [Outline.statement, label, inside, given, Forest.lines_node, Forest.lines_none]

theorem outline_eq_lines (program : Program) :
    program.outline = "Program" :: (ofList program.body).lines 0 := by
  rw [Program.outline, statements_eq_lines fun statement _ => statement_eq_lines statement]
  rfl

end Outline
end SyntaxTree
end ToyFrontend
