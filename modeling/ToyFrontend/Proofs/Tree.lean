import ToyFrontend.Proofs.Phrase

namespace ToyFrontend
namespace SyntaxTree

/-!
# Walking over trees

Statements hold blocks and calls hold lists, so the induction principles that
trees come with speak of lists as well.  Those of this module do not: they give
a hypothesis for every member.  Beside them stand the functions on trees that
properties of programs are stated with: what is inside a tree, at which level,
and what remains of it without spans.

Levels are counted the way they are taken while a tree is read.  A block and an
expression of a statement take one more than the statement, the inside of a
grouping, the arguments of a call and the right operand of an operator one more
than the expression around them.  The left operand of an operator and the
operand of a unary operator take none, so that a long sum is not deep.
-/

namespace Expr

/-- Induction over expressions, with a hypothesis for every argument of a call. -/
@[elab_as_elim] theorem induction {motive : Expr -> Prop}
    (intLiteral : forall value span, motive (.intLiteral value span))
    (stringLiteral : forall value span, motive (.stringLiteral value span))
    (boolLiteral : forall value span, motive (.boolLiteral value span))
    (identifier : forall name span, motive (.identifier name span))
    (binary : forall left operator right span, motive left -> motive right ->
      motive (.binary left operator right span))
    (unary : forall operator operand span, motive operand -> motive (.unary operator operand span))
    (call : forall callee arguments span, (forall argument, argument ∈ arguments ->
      motive argument) -> motive (.call callee arguments span))
    (grouping : forall inner span, motive inner -> motive (.grouping inner span))
    (expression : Expr) : motive expression := by
  apply @Expr.rec motive (fun arguments => forall argument, argument ∈ arguments ->
    motive argument) intLiteral stringLiteral boolLiteral identifier binary unary call grouping
  · intro argument member
    cases member
  · intro first rest ofFirst ofRest argument member
    rcases List.mem_cons.mp member with same | later
    · exact same ▸ ofFirst
    · exact ofRest argument later

/-! ## Inside an expression -/

mutual

/-- An expression and all expressions inside it. -/
def parts : Expr -> List Expr
  | .intLiteral value span => [.intLiteral value span]
  | .stringLiteral value span => [.stringLiteral value span]
  | .boolLiteral value span => [.boolLiteral value span]
  | .identifier name span => [.identifier name span]
  | .binary left operator right span =>
      .binary left operator right span :: (left.parts ++ right.parts)
  | .unary operator operand span => .unary operator operand span :: operand.parts
  | .call callee arguments span => .call callee arguments span :: listParts arguments
  | .grouping inner span => .grouping inner span :: inner.parts

/-- Several expressions and all expressions inside them. -/
def listParts : List Expr -> List Expr
  | [] => []
  | first :: rest => first.parts ++ listParts rest

end

attribute [local simp] parts listParts

theorem mem_listParts {part : Expr} {expressions : List Expr} :
    part ∈ listParts expressions ↔
      Exists fun expression => expression ∈ expressions ∧ part ∈ expression.parts := by
  induction expressions with
  | nil => simp
  | cons first rest inductionHypothesis => simp [inductionHypothesis]

mutual

/-- The levels of an expression at a level and of the expressions inside it. -/
def levels (level : Nat) : Expr -> List Nat
  | .intLiteral _ _ => [level]
  | .stringLiteral _ _ => [level]
  | .boolLiteral _ _ => [level]
  | .identifier _ _ => [level]
  | .binary left _ right _ => level :: (left.levels level ++ right.levels (level + 1))
  | .unary _ operand _ => level :: operand.levels level
  | .call _ arguments _ => level :: listLevels (level + 1) arguments
  | .grouping inner _ => level :: inner.levels (level + 1)

/-- The levels of several expressions that stand at the same level. -/
def listLevels (level : Nat) : List Expr -> List Nat
  | [] => []
  | first :: rest => first.levels level ++ listLevels level rest

end

theorem mem_listLevels {other level : Nat} {expressions : List Expr} :
    other ∈ listLevels level expressions ↔
      Exists fun expression => expression ∈ expressions ∧ other ∈ expression.levels level := by
  induction expressions with
  | nil => simp [listLevels]
  | cons first rest inductionHypothesis => simp [listLevels, inductionHypothesis]

theorem level_mem_levels (level : Nat) (expression : Expr) : level ∈ expression.levels level := by
  cases expression <;> simp [levels]

/-- The levels of an expression that is a statement at a depth below the given
level.  The call itself is part of the statement and takes no level. -/
def statementLevels (level : Nat) : Expr -> List Nat
  | .call _ arguments _ => listLevels level arguments
  | other => other.levels level

mutual

/-- The expression with every span set to the same place. -/
def withoutSpans : Expr -> Expr
  | .intLiteral value _ => .intLiteral value (.point .start)
  | .stringLiteral value _ => .stringLiteral value (.point .start)
  | .boolLiteral value _ => .boolLiteral value (.point .start)
  | .identifier name _ => .identifier name (.point .start)
  | .binary left operator right _ =>
      .binary left.withoutSpans operator right.withoutSpans (.point .start)
  | .unary operator operand _ => .unary operator operand.withoutSpans (.point .start)
  | .call callee arguments _ => .call callee (listWithoutSpans arguments) (.point .start)
  | .grouping inner _ => .grouping inner.withoutSpans (.point .start)

/-- Several expressions with every span set to the same place. -/
def listWithoutSpans : List Expr -> List Expr
  | [] => []
  | first :: rest => first.withoutSpans :: listWithoutSpans rest

end

theorem listWithoutSpans_eq_map (expressions : List Expr) :
    listWithoutSpans expressions = expressions.map withoutSpans := by
  induction expressions with
  | nil => simp [listWithoutSpans]
  | cons first rest inductionHypothesis => simp [listWithoutSpans, inductionHypothesis]

theorem precedence?_withoutSpans (expression : Expr) :
    expression.withoutSpans.precedence? = expression.precedence? := by
  cases expression <;> simp [withoutSpans, precedence?]

theorem isOperation_withoutSpans (expression : Expr) :
    expression.withoutSpans.isOperation = expression.isOperation := by
  cases expression <;> simp [withoutSpans, isOperation]

end Expr

namespace Stmt

/-- Induction over statements, with a hypothesis for every statement of a block. -/
@[elab_as_elim] theorem induction {motive : Stmt -> Prop}
    (function : forall name parameters body span,
      (forall statement, statement ∈ body.statements -> motive statement) ->
      motive (.function name parameters body span))
    (declaration : forall type name initial span, motive (.declaration type name initial span))
    (assignment : forall target value span, motive (.assignment target value span))
    (conditional : forall condition consequent alternative span,
      (forall statement, statement ∈ consequent.statements -> motive statement) ->
      (forall otherwise, alternative = some otherwise ->
        forall statement, statement ∈ otherwise.statements -> motive statement) ->
      motive (.conditional condition consequent alternative span))
    (loop : forall condition body span,
      (forall statement, statement ∈ body.statements -> motive statement) ->
      motive (.loop condition body span))
    (result : forall value span, motive (.result value span))
    (expression : forall value span, motive (.expression value span))
    (print : forall value span, motive (.print value span))
    (statement : Stmt) : motive statement := by
  apply @Stmt.rec motive
    (fun body => forall statement, statement ∈ body.statements -> motive statement)
    (fun alternative => forall otherwise, alternative = some otherwise ->
      forall statement, statement ∈ otherwise.statements -> motive statement)
    (fun statements => forall statement, statement ∈ statements -> motive statement)
    function declaration assignment conditional loop result expression print
  · intro statements span ofStatements
    exact ofStatements
  · rintro otherwise ⟨⟩
  · rintro body ofBody otherwise ⟨⟩
    exact ofBody
  · intro statement member
    cases member
  · intro first rest ofFirst ofRest statement member
    rcases List.mem_cons.mp member with same | later
    · exact same ▸ ofFirst
    · exact ofRest statement later

/-! ## Inside a statement -/

/-- The expressions that a statement holds, with all expressions inside them. -/
def expressions : Stmt -> List Expr
  | .function _ _ _ _ => []
  | .declaration _ _ initial _ => Expr.listParts initial.toList
  | .assignment _ value _ => value.parts
  | .conditional condition _ _ _ => condition.parts
  | .loop condition _ _ => condition.parts
  | .result value _ => Expr.listParts value.toList
  | .expression value _ => value.parts
  | .print value _ => value.parts

mutual

/-- The statements inside a statement, at any depth. -/
def nested : Stmt -> List Stmt
  | .function _ _ body _ => ofBlock body
  | .declaration _ _ _ _ => []
  | .assignment _ _ _ => []
  | .conditional _ consequent alternative _ =>
      ofBlock consequent ++
        match alternative with
        | none => []
        | some otherwise => ofBlock otherwise
  | .loop _ body _ => ofBlock body
  | .result _ _ => []
  | .expression _ _ => []
  | .print _ _ => []

/-- The statements of a block and all statements inside them. -/
def ofBlock : Block -> List Stmt
  | .mk statements _ => ofList statements

/-- Several statements, each followed by the statements inside it. -/
def ofList : List Stmt -> List Stmt
  | [] => []
  | first :: rest => first :: (first.nested ++ ofList rest)

end

attribute [local simp] nested ofBlock ofList

theorem mem_ofList {statement : Stmt} {statements : List Stmt} :
    statement ∈ ofList statements ↔
      Exists fun outer => outer ∈ statements ∧ (statement = outer ∨ statement ∈ outer.nested) := by
  induction statements with
  | nil => simp
  | cons first rest inductionHypothesis => simp [inductionHypothesis, or_assoc]

mutual

/-- The levels inside a statement at a depth. -/
def levels (depth : Nat) : Stmt -> List Nat
  | .function _ _ body _ => blockLevels (depth + 1) body
  | .declaration _ _ initial _ => Expr.listLevels (depth + 1) initial.toList
  | .assignment _ value _ => value.levels (depth + 1)
  | .conditional condition consequent alternative _ =>
      condition.levels (depth + 1) ++ (blockLevels (depth + 1) consequent ++
        match alternative with
        | none => []
        | some otherwise => blockLevels (depth + 1) otherwise)
  | .loop condition body _ => condition.levels (depth + 1) ++ blockLevels (depth + 1) body
  | .result value _ => Expr.listLevels (depth + 1) value.toList
  | .expression value _ => value.statementLevels (depth + 1)
  | .print value _ => value.levels (depth + 1)

/-- The level of a block, which is the depth of its statements, and those inside it. -/
def blockLevels (level : Nat) : Block -> List Nat
  | .mk statements _ => level :: listLevels level statements

/-- The levels inside several statements at the same depth. -/
def listLevels (depth : Nat) : List Stmt -> List Nat
  | [] => []
  | first :: rest => first.levels depth ++ listLevels depth rest

end

theorem mem_listLevels {level depth : Nat} {statements : List Stmt} :
    level ∈ listLevels depth statements ↔
      Exists fun statement => statement ∈ statements ∧ level ∈ statement.levels depth := by
  induction statements with
  | nil => simp [listLevels]
  | cons first rest inductionHypothesis => simp [listLevels, inductionHypothesis]

mutual

/-- The statement with every span set to the same place. -/
def withoutSpans : Stmt -> Stmt
  | .function name parameters body _ =>
      .function name (parameters.map fun parameter => { parameter with span := .point .start })
        (blockWithoutSpans body) (.point .start)
  | .declaration type name initial _ =>
      .declaration type name (initial.map Expr.withoutSpans) (.point .start)
  | .assignment target value _ => .assignment target value.withoutSpans (.point .start)
  | .conditional condition consequent alternative _ =>
      .conditional condition.withoutSpans (blockWithoutSpans consequent)
        (match alternative with
        | none => none
        | some otherwise => some (blockWithoutSpans otherwise))
        (.point .start)
  | .loop condition body _ =>
      .loop condition.withoutSpans (blockWithoutSpans body) (.point .start)
  | .result value _ => .result (value.map Expr.withoutSpans) (.point .start)
  | .expression value _ => .expression value.withoutSpans (.point .start)
  | .print value _ => .print value.withoutSpans (.point .start)

/-- The block with every span set to the same place. -/
def blockWithoutSpans : Block -> Block
  | .mk statements _ => .mk (listWithoutSpans statements) (.point .start)

/-- Several statements with every span set to the same place. -/
def listWithoutSpans : List Stmt -> List Stmt
  | [] => []
  | first :: rest => first.withoutSpans :: listWithoutSpans rest

end

attribute [local simp] withoutSpans blockWithoutSpans listWithoutSpans

theorem listWithoutSpans_eq_map (statements : List Stmt) :
    listWithoutSpans statements = statements.map withoutSpans := by
  induction statements with
  | nil => simp
  | cons first rest inductionHypothesis => simp [inductionHypothesis]

end Stmt

namespace Program

/-- All statements of a program, at any depth and in source order. -/
def statements (program : Program) : List Stmt :=
  Stmt.ofList program.body

/-- The levels inside a program, whose statements stand at depth zero. -/
def levels (program : Program) : List Nat :=
  Stmt.listLevels 0 program.body

/-- The program with every span set to the same place. -/
def withoutSpans (program : Program) : Program where
  body := Stmt.listWithoutSpans program.body
  span := .point .start

end Program

end SyntaxTree
end ToyFrontend
