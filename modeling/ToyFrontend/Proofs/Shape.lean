import ToyFrontend.Proofs.Tree
import ToyFrontend.Proofs.Words

namespace ToyFrontend
namespace SyntaxTree

/-!
# The shape of accepted trees

Not every tree is the tree of a document.  An operator cannot take an operand
that a looser operator holds together, unless a grouping says so; a function is
declared at the top only; a variable without a type has an initial value; and an
expression stands as a statement only if it is a call.  These are conditions on
single nodes, and `Program.WellFormed` asks for them at every node of a program.

Every derivation meets the conditions, so every accepted program does.  Since no
function is hidden inside a statement, the functions at the top are all there
are.
-/

namespace Expr

/-- Is the expression a call? -/
def isCall : Expr -> Bool
  | .call .. => true
  | _ => false

/-- What the grammar asks of the operands at the root of an expression: a looser
operator holds neither of them together, and operators of one precedence are joined
from the left; an operator before its operand takes no operation. -/
def Regular : Expr -> Prop
  | .binary left operator right _ =>
      left.Holds operator.precedence ∧ right.Exceeds operator.precedence
  | .unary _ operand _ => operand.isOperation = false
  | _ => True

instance (expression : Expr) : Decidable expression.Regular :=
  match expression with
  | .binary left operator right _ =>
      inferInstanceAs
        (Decidable (left.Holds operator.precedence ∧ right.Exceeds operator.precedence))
  | .unary _ operand _ => inferInstanceAs (Decidable (operand.isOperation = false))
  | .intLiteral .. | .stringLiteral .. | .boolLiteral .. | .identifier .. | .call ..
  | .grouping .. => .isTrue trivial

end Expr

namespace Stmt

/-- Is the statement the declaration of a function? -/
def isFunction : Stmt -> Bool
  | .function .. => true
  | _ => false

/-- Only a declared type makes the initial value of a variable dispensable. -/
def isInitialized : Stmt -> Bool
  | .declaration type _ initial _ => type.isSome || initial.isSome
  | _ => true

/-- An expression that is a statement has to be a call. -/
def isEffective : Stmt -> Bool
  | .expression value _ => value.isCall
  | _ => true

/-- What the grammar asks of a statement and of the expressions that it holds. -/
structure Regular (statement : Stmt) : Prop where
  initialized : statement.isInitialized = true
  effective : statement.isEffective = true
  expressions : forall expression, expression ∈ statement.expressions -> expression.Regular

instance (statement : Stmt) : Decidable statement.Regular :=
  decidable_of_iff (statement.isInitialized = true ∧ statement.isEffective = true ∧
      forall expression, expression ∈ statement.expressions -> expression.Regular)
    ⟨fun both => ⟨both.1, both.2.1, both.2.2⟩,
      fun regular => ⟨regular.initialized, regular.effective, regular.expressions⟩⟩

end Stmt

namespace Program

/-- The grammar's conditions hold throughout a program. -/
structure WellFormed (program : Program) : Prop where
  regular : forall statement, statement ∈ program.statements -> statement.Regular
  /-- Functions are declared at the top only. -/
  flat : forall statement, statement ∈ program.body ->
    forall inner, inner ∈ statement.nested -> inner.isFunction = false

instance (program : Program) : Decidable program.WellFormed :=
  decidable_of_iff
    ((forall statement, statement ∈ program.statements -> statement.Regular) ∧
      forall statement, statement ∈ program.body ->
        forall inner, inner ∈ statement.nested -> inner.isFunction = false)
    ⟨fun both => ⟨both.1, both.2⟩, fun wellFormed => ⟨wellFormed.regular, wellFormed.flat⟩⟩

end Program

end SyntaxTree

namespace Phrase

open SyntaxTree

/-- Whatever is spelled has a property. -/
def Ensures {Item : Type} (item : List Token -> Item -> Prop) (property : Item -> Prop) : Prop :=
  forall ⦃tokens : List Token⦄ ⦃value : Item⦄, item tokens value -> property value

section Lists

variable {Item : Type} {item : List Token -> Item -> Prop} {property : Item -> Prop}

theorem ensures_separated (ensures : Ensures item property) :
    Ensures (Separated item) (fun values => forall value, value ∈ values -> property value) := by
  intro tokens values spelled
  induction spelled with
  | last spelled =>
      intro value only
      cases List.mem_singleton.mp only
      exact ensures spelled
  | more spelled comma others inductionHypothesis =>
      intro value member
      rcases List.mem_cons.mp member with rfl | later
      · exact ensures spelled
      · exact inductionHypothesis value later

theorem ensures_parenthesised (ensures : Ensures item property) :
    Ensures (Parenthesised item)
      (fun read => forall value, value ∈ read.1 -> property value) := by
  rintro tokens _ ⟨opens, spelled, closes⟩ value member
  cases spelled with
  | none => cases member
  | some spelled => exact ensures_separated ensures spelled value member

theorem ensures_repeated (ensures : Ensures item property) :
    Ensures (Repeated item) (fun values => forall value, value ∈ values -> property value) := by
  intro tokens values spelled
  induction spelled with
  | none =>
      intro value member
      cases member
  | more spelled others inductionHypothesis =>
      intro value member
      rcases List.mem_cons.mp member with rfl | later
      · exact ensures spelled
      · exact inductionHypothesis value later

end Lists

/-! ## Expressions -/

/-- The expression and all expressions inside it are regular. -/
def RegularParts (expression : Expr) : Prop :=
  forall part, part ∈ expression.parts -> part.Regular

theorem regularParts_binary_iff {left right : Expr} {operator : BinaryOperator}
    {span : Source.Span} :
    RegularParts (.binary left operator right span) ↔
      (left.Holds operator.precedence ∧ right.Exceeds operator.precedence) ∧
        RegularParts left ∧ RegularParts right := by
  simp only [RegularParts, Expr.parts, List.forall_mem_cons, List.forall_mem_append, Expr.Regular]

theorem regularParts_unary_iff {operand : Expr} {operator : UnaryOperator} {span : Source.Span} :
    RegularParts (.unary operator operand span) ↔
      operand.isOperation = false ∧ RegularParts operand := by
  simp only [RegularParts, Expr.parts, List.forall_mem_cons, Expr.Regular]

theorem regularParts_call_iff {callee : String} {arguments : List Expr} {span : Source.Span} :
    RegularParts (.call callee arguments span) ↔
      forall argument, argument ∈ arguments -> RegularParts argument := by
  simp only [RegularParts, Expr.parts, List.forall_mem_cons, Expr.Regular, true_and,
    Expr.mem_listParts]
  exact ⟨fun all argument listed part inside => all part ⟨argument, listed, inside⟩,
    fun all part ⟨argument, listed, inside⟩ => all argument listed part inside⟩

theorem regularParts_grouping_iff {inner : Expr} {span : Source.Span} :
    RegularParts (.grouping inner span) ↔ RegularParts inner := by
  simp only [RegularParts, Expr.parts, List.forall_mem_cons, Expr.Regular, true_and]

theorem ensures_primary {inner : List Token -> Expr -> Prop}
    (ensures : Ensures inner RegularParts) :
    Ensures (Primary inner)
      (fun expression => RegularParts expression ∧ expression.isOperation = false) := by
  intro tokens expression spelled
  cases spelled with
  | atom spelled =>
      cases spelled <;> simp [RegularParts, Expr.parts, Expr.Regular, Expr.isOperation]
  | call named spelled =>
      exact ⟨regularParts_call_iff.mpr (ensures_parenthesised ensures spelled), rfl⟩
  | grouping opens spelled closes =>
      exact ⟨regularParts_grouping_iff.mpr (ensures spelled), rfl⟩

theorem ensures_unary {inner : List Token -> Expr -> Prop}
    (ensures : Ensures inner RegularParts) : Ensures (Unary inner) RegularParts := by
  intro tokens expression spelled
  cases spelled with
  | primary spelled => exact (ensures_primary ensures spelled).1
  | operation denotes spelled =>
      have operand := ensures_primary ensures spelled
      exact regularParts_unary_iff.mpr ⟨operand.2, operand.1⟩

theorem exceeds_of_expression {levels precedence : Nat} :
    Ensures (Expression levels precedence) (·.Exceeds precedence) := by
  intro tokens expression spelled
  cases levels with
  | zero => exact False.elim spelled
  | succ levels => exact exceeds_of_chain spelled

theorem ensures_expression (levels precedence : Nat) :
    Ensures (Expression levels precedence) RegularParts := by
  induction levels generalizing precedence with
  | zero =>
      intro tokens expression spelled
      exact False.elim spelled
  | succ levels ensures =>
      intro tokens expression spelled
      induction spelled with
      | unary spelled => exact ensures_unary (ensures 0) spelled
      | operation spelledLeft tighter held denotes spelledRight inductionHypothesis =>
          exact regularParts_binary_iff.mpr ⟨⟨held, exceeds_of_expression spelledRight⟩,
            inductionHypothesis, ensures _ spelledRight⟩

/-! ## Statements -/

section Statements

variable {expression : List Token -> Expr -> Prop}
  {block : List Token -> SyntaxTree.Block -> Prop}

/-- Regular, and no declaration of a function. -/
def Plain (statement : Stmt) : Prop :=
  statement.Regular ∧ statement.isFunction = false

/-- The statement and all statements inside it are plain. -/
def PlainThroughout (statement : Stmt) : Prop :=
  Plain statement ∧ forall inner, inner ∈ statement.nested -> Plain inner

/-- All statements of a block are plain, at any depth. -/
def PlainBlock (body : SyntaxTree.Block) : Prop :=
  forall statement, statement ∈ Stmt.ofBlock body -> Plain statement

theorem plainBlock_iff {body : SyntaxTree.Block} :
    PlainBlock body ↔
      forall statement, statement ∈ body.statements -> PlainThroughout statement := by
  rcases body with ⟨statements, span⟩
  rw [PlainBlock, Stmt.ofBlock]
  constructor
  · intro plain statement listed
    exact ⟨plain statement (Stmt.mem_ofList.mpr ⟨statement, listed, .inl rfl⟩),
      fun inner inside => plain inner (Stmt.mem_ofList.mpr ⟨statement, listed, .inr inside⟩)⟩
  · intro plain inner member
    rcases Stmt.mem_ofList.mp member with ⟨outer, listed, rfl | inside⟩
    · exact (plain inner listed).1
    · exact (plain outer listed).2 inner inside

theorem ensures_initial (ensures : Ensures expression RegularParts) (type : Option TypeName) :
    Ensures (Initial expression type) (fun initial => (type.isSome || initial.isSome) = true ∧
      forall part, part ∈ Expr.listParts initial.toList -> part.Regular) := by
  intro tokens initial spelled
  cases spelled with
  | none typed => exact ⟨by rw [typed, Bool.true_or], by simp [Expr.listParts]⟩
  | some assigns spelled =>
      refine ⟨Bool.or_true _, ?_⟩
      simp only [Option.toList, Expr.listParts, List.append_nil]
      exact ensures spelled

theorem ensures_optional (ensures : Ensures expression RegularParts) :
    Ensures (Optional expression) (fun value =>
      forall part, part ∈ Expr.listParts value.toList -> part.Regular) := by
  intro tokens value spelled
  cases spelled with
  | none => simp [Expr.listParts]
  | some spelled =>
      simp only [Option.toList, Expr.listParts, List.append_nil]
      exact ensures spelled

theorem ensures_condition (ensures : Ensures expression RegularParts) :
    Ensures (Condition expression) RegularParts := by
  rintro tokens value ⟨opens, spelled, closes⟩
  exact ensures spelled

theorem ensures_statement (ensures : Ensures expression RegularParts)
    (ensuresBlock : Ensures block PlainBlock) :
    Ensures (Statement expression block) PlainThroughout := by
  intro tokens statement spelled
  cases spelled with
  | declaration declares named spelled ends =>
      have initial := ensures_initial ensures _ spelled
      exact ⟨⟨⟨initial.1, rfl, initial.2⟩, rfl⟩, by simp [Stmt.nested]⟩
  | assignment named assigns spelled ends =>
      exact ⟨⟨⟨rfl, rfl, ensures spelled⟩, rfl⟩,
        by simp [Stmt.nested]⟩
  | call named spelled ends =>
      have parts : RegularParts _ :=
        (ensures_primary ensures (.call named spelled)).1
      exact ⟨⟨⟨rfl, rfl, parts⟩, rfl⟩, by simp [Stmt.nested]⟩
  | conditional begins spelledTest spelledBody =>
      refine ⟨⟨⟨rfl, rfl, ensures_condition ensures spelledTest⟩, rfl⟩, ?_⟩
      intro inner member
      rw [Stmt.nested, List.append_nil] at member
      exact ensuresBlock spelledBody inner member
  | alternative begins spelledTest spelledBody turns spelledOther =>
      refine ⟨⟨⟨rfl, rfl, ensures_condition ensures spelledTest⟩, rfl⟩, ?_⟩
      intro inner member
      rw [Stmt.nested] at member
      rcases List.mem_append.mp member with inBody | inOther
      · exact ensuresBlock spelledBody inner inBody
      · exact ensuresBlock spelledOther inner inOther
  | loop begins spelledTest spelledBody =>
      refine ⟨⟨⟨rfl, rfl, ensures_condition ensures spelledTest⟩, rfl⟩, ?_⟩
      intro inner member
      rw [Stmt.nested] at member
      exact ensuresBlock spelledBody inner member
  | result begins spelled ends =>
      exact ⟨⟨⟨rfl, rfl, ensures_optional ensures spelled⟩, rfl⟩,
        by simp [Stmt.nested]⟩
  | print begins spelled ends =>
      exact ⟨⟨⟨rfl, rfl, ensures_condition ensures spelled⟩, rfl⟩,
        by simp [Stmt.nested]⟩

theorem ensures_braced {statement : List Token -> Stmt -> Prop}
    (ensures : Ensures statement PlainThroughout) : Ensures (Braced statement) PlainBlock := by
  rintro tokens body ⟨opens, spelled, closes⟩
  exact plainBlock_iff.mpr (ensures_repeated ensures spelled)

theorem ensures_function (ensuresBlock : Ensures block PlainBlock) :
    Ensures (Function block) (fun statement => statement.Regular ∧
      forall inner, inner ∈ statement.nested -> Plain inner) := by
  rintro tokens statement ⟨begins, named, spelledParameters, spelledBody⟩
  refine ⟨⟨rfl, rfl, by simp [Stmt.expressions]⟩, ?_⟩
  intro inner member
  rw [Stmt.nested] at member
  exact ensuresBlock spelledBody inner member

end Statements

theorem ensures_block (levels : Nat) : Ensures (Block levels) PlainBlock := by
  induction levels with
  | zero =>
      intro tokens body spelled
      exact False.elim spelled
  | succ levels ensuresBlock =>
      exact ensures_braced (ensures_statement (ensures_expression levels 0) ensuresBlock)

theorem ensures_top (levels : Nat) :
    Ensures (Top levels) (fun statement => statement.Regular ∧
      forall inner, inner ∈ statement.nested -> Plain inner) := by
  intro tokens statement spelled
  cases spelled with
  | function spelled => exact ensures_function (ensures_block levels) spelled
  | statement spelled =>
      have plain := ensures_statement (ensures_expression levels 0) (ensures_block levels)
        spelled
      exact ⟨plain.1.1, plain.2⟩

end Phrase

namespace SyntaxTree

theorem Stmt.functionName?_eq_none {statement : Stmt} (plain : statement.isFunction = false) :
    statement.functionName? = none := by
  cases statement <;> first | rfl | cases plain

/-- Where nothing inside a statement is a function, the functions at the top are all. -/
theorem functionNames_eq {body : List Stmt}
    (flat : forall statement, statement ∈ body ->
      forall inner, inner ∈ statement.nested -> inner.isFunction = false) :
    (Stmt.ofList body).filterMap Stmt.functionName? = body.filterMap Stmt.functionName? := by
  induction body with
  | nil => simp [Stmt.ofList]
  | cons first rest inductionHypothesis =>
      have none : first.nested.filterMap Stmt.functionName? = [] := by
        apply List.filterMap_eq_nil_iff.mpr
        intro inner member
        exact Stmt.functionName?_eq_none (flat first List.mem_cons_self inner member)
      have others := inductionHypothesis fun statement member =>
        flat statement (List.mem_cons_of_mem _ member)
      rw [Stmt.ofList, List.filterMap_cons, List.filterMap_append, none, List.nil_append, others,
        List.filterMap_cons]

end SyntaxTree

/-- Every accepted program is well-formed, and the functions declared at its top are
all functions declared anywhere in it, in source order. -/
theorem wellFormed_of_parseTokens {tokens : List Token} {program : SyntaxTree.Program}
    (accepted : parseTokens tokens = .ok program) :
    program.WellFormed ∧
      program.functionNames = program.statements.filterMap SyntaxTree.Stmt.functionName? := by
  have spelled := (Reading.parseTokens_eq_ok_iff.mp accepted).1
  have tops := Phrase.ensures_repeated (Phrase.ensures_top SyntaxTree.nestingLimit) spelled
  have flat : forall statement, statement ∈ program.body ->
      forall inner, inner ∈ statement.nested -> inner.isFunction = false :=
    fun statement listed inner inside => ((tops statement listed).2 inner inside).2
  refine ⟨⟨?_, flat⟩, (SyntaxTree.functionNames_eq flat).symm⟩
  intro statement member
  rcases SyntaxTree.Stmt.mem_ofList.mp member with ⟨outer, listed, same | inside⟩
  · exact same ▸ (tops outer listed).1
  · exact ((tops outer listed).2 statement inside).1

/-- A function whose result mixes operators of every precedence, and a call behind it. -/
def mixedFunction : List Token :=
  [.plain .functionWord, .named "f", .plain .openParen, .plain .intWord, .named "x",
    .plain .closeParen, .plain .openCurly, .plain .returnWord, .plain .dash, .named "x",
    .plain .star, .literal (.int 2), .plain .dash, .literal (.int 3), .plain .dash,
    .plain .openParen, .named "x", .plain .equals, .literal (.int 4), .plain .closeParen,
    .plain .semicolon, .plain .closeCurly, .named "f", .plain .openParen, .literal (.int 5),
    .plain .closeParen, .plain .semicolon].map Word.token

theorem wellFormed_of_mixedFunction :
    Exists fun program => parseTokens mixedFunction = .ok program ∧ program.WellFormed ∧
      program.functionNames = program.statements.filterMap SyntaxTree.Stmt.functionName? :=
  ⟨_, rfl, @wellFormed_of_parseTokens mixedFunction _ rfl⟩

end ToyFrontend
