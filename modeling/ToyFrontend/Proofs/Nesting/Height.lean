import Mathlib.Data.List.Basic
import ToyFrontend.Proofs.Display

namespace ToyFrontend

/-!
# The height of accepted expressions

The bound on nesting counts levels, and a level may hold more than one node of a
path: the operators of a chain, each the left operand of the next, an operator
before one operand, and what this operand is.  A tree is therefore as high as its
chains are long, times the levels.  Chains have no bound of their own, so neither
has the height.

The proof follows the derivations.  Every expression inside an accepted program
has a derivation for itself, with the levels that were open where it was read.
-/

namespace SyntaxTree

namespace Expr

mutual

/-- The number of nodes on a longest path from the root to a leaf. -/
def height : Expr -> Nat
  | .intLiteral _ _ => 1
  | .stringLiteral _ _ => 1
  | .boolLiteral _ _ => 1
  | .identifier _ _ => 1
  | .binary left _ right _ => max left.height right.height + 1
  | .unary _ operand _ => operand.height + 1
  | .call _ arguments _ => listHeight arguments + 1
  | .grouping inner _ => inner.height + 1

/-- The height of the highest of several expressions. -/
def listHeight : List Expr -> Nat
  | [] => 0
  | first :: rest => max first.height (listHeight rest)

end

/-- The number of operators that are left operands of one another, from the root on. -/
def chain : Expr -> Nat
  | .binary left _ _ _ => left.chain + 1
  | _ => 0

/-- The length of the longest chain of operators anywhere in the expression. -/
def longestChain (expression : Expr) : Nat :=
  (expression.parts.map chain).max?.getD 0

theorem listHeight_le {bound : Nat} {expressions : List Expr}
    (each : forall expression, expression ∈ expressions -> expression.height <= bound) :
    listHeight expressions <= bound := by
  induction expressions with
  | nil => exact Nat.zero_le bound
  | cons first rest inductionHypothesis =>
      rw [listHeight]
      exact Nat.max_le.mpr ⟨each first List.mem_cons_self,
        inductionHypothesis fun expression later => each expression (List.mem_cons_of_mem _ later)⟩

/-- No part of the expression begins a chain of more operators. -/
def ChainsWithin (bound : Nat) (expression : Expr) : Prop :=
  forall part, part ∈ expression.parts -> part.chain <= bound

theorem chainsWithin_longestChain (expression : Expr) :
    expression.ChainsWithin expression.longestChain := by
  intro part inside
  exact List.le_max?_getD_of_mem (List.mem_map_of_mem inside)

theorem mem_parts (expression : Expr) : expression ∈ expression.parts := by
  cases expression <;> simp [parts]

end Expr
end SyntaxTree

namespace Phrase

open SyntaxTree

/-! ## Heights along derivations -/

/-- With chains of so many operators the height keeps within the bound. -/
def Low (chains height : Nat) (expression : Expr) : Prop :=
  expression.ChainsWithin chains -> expression.height <= height

variable {chains height : Nat} {inner : List Token -> Expr -> Prop}

theorem low_primary (low : Ensures inner (Low chains height)) :
    Ensures (Primary inner) (Low chains (height + 1)) := by
  intro tokens expression spelled within
  cases spelled with
  | atom spelled => cases spelled <;> simp [Expr.height]
  | call named spelled =>
      have each := ensures_parenthesised low spelled
      rw [Expr.height]
      apply Nat.add_le_add_right
      apply Expr.listHeight_le
      intro argument listed
      apply each argument listed
      intro part inside
      apply within
      rw [Expr.parts]
      exact List.mem_cons_of_mem _ (Expr.mem_listParts.mpr ⟨argument, listed, inside⟩)
  | grouping opens spelled closes =>
      rw [Expr.height]
      apply Nat.add_le_add_right
      apply low spelled
      intro part inside
      apply within
      rw [Expr.parts]
      exact List.mem_cons_of_mem _ inside

theorem low_unary (low : Ensures inner (Low chains height)) :
    Ensures (Unary inner) (Low chains (height + 2)) := by
  intro tokens expression spelled within
  cases spelled with
  | primary spelled => exact Nat.le_succ_of_le (low_primary low spelled within)
  | operation denotes spelled =>
      rw [Expr.height]
      apply Nat.add_le_add_right
      apply low_primary low spelled
      intro part inside
      apply within
      rw [Expr.parts]
      exact List.mem_cons_of_mem _ inside

/-- An operator adds one node to the path through its left operand and one to the chain;
the path through its right operand has the next level to itself. -/
theorem low_chain {inner : Nat -> List Token -> Expr -> Prop} {precedence : Nat}
    (low : forall precedence, Ensures (inner precedence) (Low chains height)) {tokens : List Token}
    {expression : Expr} (spelled : Chain inner precedence tokens expression)
    (within : expression.ChainsWithin chains) :
    expression.height <= height + 2 + expression.chain := by
  induction spelled with
  | unary spelled => exact Nat.le_add_right_of_le (low_unary (low 0) spelled within)
  | @operation _ _ _ operator left right spelledLeft _ _ _ spelledRight inductionHypothesis =>
      have ofLeft : left.height <= height + 2 + left.chain :=
        inductionHypothesis fun part inside => within part (by simp [Expr.parts, inside])
      have ofRight : right.height <= height :=
        low _ spelledRight fun part inside => within part (by simp [Expr.parts, inside])
      rw [Expr.height, Expr.chain]
      omega

theorem low_expression (chains levels precedence : Nat) :
    Ensures (Expression levels precedence) (Low chains (levels * (chains + 2))) := by
  induction levels generalizing precedence with
  | zero =>
      intro tokens expression spelled
      exact False.elim spelled
  | succ levels low =>
      intro tokens expression spelled within
      have bounded := low_chain low spelled within
      have chain := within expression expression.mem_parts
      -- The chain at the root takes the nodes that one level may add.
      rw [Nat.succ_mul]
      omega

/-! ## Derivations of the nodes of a program -/

/-- The node has a derivation of its own, with no more levels than given. -/
inductive Derived (limit : Nat) : Node -> Prop
  | expression {levels precedence : Nat} {tokens : List Token} {expression : Expr}
      (within : levels <= limit) (spelled : Expression levels precedence tokens expression) :
      Derived limit (.expression expression)
  /-- The call that is a statement takes no level, only its arguments do. -/
  | primary {levels : Nat} {tokens : List Token} {expression : Expr} (within : levels <= limit)
      (spelled : Primary (Expression levels 0) tokens expression) :
      Derived limit (.expression expression)
  | statement {levels : Nat} {tokens : List Token} {statement : Stmt} (within : levels <= limit)
      (spelled : Statement (Expression levels 0) (Block levels) tokens statement) :
      Derived limit (.statement statement)
  | function {levels : Nat} {tokens : List Token} {statement : Stmt} (within : levels <= limit)
      (spelled : Function (Block levels) tokens statement) : Derived limit (.statement statement)
  | block {levels : Nat} {tokens : List Token} {body : SyntaxTree.Block} (within : levels <= limit)
      (spelled : Block levels tokens body) : Derived limit (.block body)
  | parameter (parameter : SyntaxTree.Parameter) : Derived limit (.parameter parameter)

section Children

variable {limit levels : Nat} {tokens : List Token} {node : Node}

theorem ensures_derived (within : levels <= limit) (precedence : Nat) :
    Ensures (Expression levels precedence) (fun value => Derived limit (.expression value)) :=
  fun _ _ spelled => .expression within spelled

theorem derived_of_primary {expression : Expr} (within : levels <= limit)
    (spelled : Primary (Expression levels 0) tokens expression)
    (child : node ∈ expression.children) : Derived limit node := by
  cases spelled with
  | atom spelled => cases spelled <;> cases child
  | call named spelled =>
      rcases List.mem_map.mp child with ⟨argument, listed, rfl⟩
      exact ensures_parenthesised (ensures_derived within 0) spelled argument listed
  | grouping opens spelled closes =>
      cases List.mem_singleton.mp child
      exact .expression within spelled

theorem derived_of_expression {precedence : Nat} {expression : Expr} (within : levels <= limit)
    (spelled : Expression levels precedence tokens expression)
    (child : node ∈ expression.children) : Derived limit node := by
  cases levels with
  | zero => exact False.elim spelled
  | succ levels =>
      have fewer : levels <= limit := Nat.le_of_succ_le within
      cases spelled with
      | unary spelled =>
          cases spelled with
          | primary spelled => exact derived_of_primary fewer spelled child
          | operation denotes spelled =>
              cases List.mem_singleton.mp child
              exact .primary fewer spelled
      | operation spelledLeft tighter held denotes spelledRight =>
          rcases List.mem_pair.mp child with rfl | rfl
          · exact @Derived.expression limit (levels + 1) precedence _ _ within spelledLeft
          · exact .expression fewer spelledRight

theorem derived_of_condition {value : Expr} (within : levels <= limit)
    (spelled : Condition (Expression levels 0) tokens value) :
    Derived limit (.expression value) := by
  rcases spelled with ⟨opens, spelled, closes⟩
  exact .expression within spelled

theorem derived_of_statement {statement : Stmt} (within : levels <= limit)
    (spelled : Statement (Expression levels 0) (Block levels) tokens statement)
    (child : node ∈ statement.children) : Derived limit node := by
  cases spelled with
  | declaration declares named spelled ends =>
      cases spelled with
      | none => cases child
      | some assigns spelled =>
          cases List.mem_singleton.mp child
          exact .expression within spelled
  | assignment named assigns spelled ends =>
      cases List.mem_singleton.mp child
      exact .expression within spelled
  | call named spelled ends =>
      cases List.mem_singleton.mp child
      exact .primary within (.call named spelled)
  | conditional begins spelledTest spelledBody =>
      rcases List.mem_pair.mp child with rfl | rfl
      · exact derived_of_condition within spelledTest
      · exact .block within spelledBody
  | alternative begins spelledTest spelledBody turns spelledOther =>
      rcases List.mem_cons.mp child with rfl | behind
      · exact derived_of_condition within spelledTest
      · rcases List.mem_pair.mp behind with rfl | rfl
        · exact .block within spelledBody
        · exact .block within spelledOther
  | loop begins spelledTest spelledBody =>
      rcases List.mem_pair.mp child with rfl | rfl
      · exact derived_of_condition within spelledTest
      · exact .block within spelledBody
  | result begins spelled ends =>
      cases spelled with
      | none => cases child
      | some spelled =>
          cases List.mem_singleton.mp child
          exact .expression within spelled
  | print begins spelled ends =>
      cases List.mem_singleton.mp child
      exact derived_of_condition within spelled

theorem derived_of_function {statement : Stmt} (within : levels <= limit)
    (spelled : Function (Block levels) tokens statement)
    (child : node ∈ statement.children) : Derived limit node := by
  rcases spelled with ⟨begins, named, spelledParameters, spelledBody⟩
  rcases List.mem_append.mp child with listed | last
  · rcases List.mem_map.mp listed with ⟨parameter, -, rfl⟩
    exact .parameter parameter
  · cases List.mem_singleton.mp last
    exact .block within spelledBody

theorem derived_of_block {body : SyntaxTree.Block} (within : levels <= limit)
    (spelled : Block levels tokens body) (child : node ∈ body.statements.map .statement) :
    Derived limit node := by
  cases levels with
  | zero => exact False.elim spelled
  | succ levels =>
      rcases spelled with ⟨opens, spelled, closes⟩
      rcases List.mem_map.mp child with ⟨statement, listed, rfl⟩
      have derived : Ensures (Statement (Expression levels 0) (Block levels))
          (fun statement => Derived limit (.statement statement)) :=
        fun _ _ spelled => .statement (Nat.le_of_succ_le within) spelled
      exact ensures_repeated derived spelled statement listed

/-- What stands inside a node with a derivation has one with as many levels or fewer. -/
theorem Derived.child {outer : Node} (derived : Derived limit outer)
    (child : node ∈ outer.children) : Derived limit node := by
  cases derived with
  | expression within spelled => exact derived_of_expression within spelled child
  | primary within spelled => exact derived_of_primary within spelled child
  | statement within spelled => exact derived_of_statement within spelled child
  | function within spelled => exact derived_of_function within spelled child
  | block within spelled => exact derived_of_block within spelled child
  | parameter => cases child

end Children

theorem derived_of_has {program : Program}
    (spelled : Repeated (Top limit) tokens program.body) {node : Node} (has : program.Has node) :
    Derived limit node := by
  have derived : Ensures (Top limit) (fun statement => Derived limit (.statement statement)) := by
    intro tokens statement spelled
    cases spelled with
    | function spelled => exact .function (Nat.le_refl _) spelled
    | statement spelled => exact .statement (Nat.le_refl _) spelled
  induction has with
  | top member => exact ensures_repeated derived spelled _ member
  | inside has child inductionHypothesis => exact inductionHypothesis.child child

theorem Derived.height_le {limit : Nat} {expression : Expr}
    (derived : Derived limit (.expression expression)) :
    expression.height <= limit * (expression.longestChain + 2) + 1 := by
  have within := expression.chainsWithin_longestChain
  cases derived with
  | @expression levels precedence _ _ bounded spelled =>
      have low := low_expression _ levels precedence spelled within
      have scaled := Nat.mul_le_mul_right (expression.longestChain + 2) bounded
      omega
  | @primary levels _ _ bounded spelled =>
      have low := low_primary (low_expression _ levels 0) spelled within
      have scaled := Nat.mul_le_mul_right (expression.longestChain + 2) bounded
      omega

end Phrase

open SyntaxTree

/-- The height of an expression in an accepted program is bounded by the bound on nesting
and by the length of its chains of operators. -/
theorem height_le_of_parse {source : String} {program : Program} {expression : Expr}
    (accepted : parse source = .ok program) (has : program.Has (.expression expression)) :
    expression.height <= nestingLimit * (expression.longestChain + 2) + 1 := by
  rcases parse_eq_ok_iff.mp accepted with ⟨tokens, -, given⟩
  have spelled := (Reading.parseTokens_eq_ok_iff.mp given).1
  exact (Phrase.derived_of_has spelled has).height_le

/-- A sum of three numbers, the last of which is negated in parentheses. -/
def shortSum : String :=
  "x = 1 + 2 - (-3);"

theorem height_le_of_shortSum :
    Exists fun expression => assigned? shortSum = some expression ∧
      expression.height = 4 ∧ expression.longestChain = 2 ∧
      expression.height <= nestingLimit * (expression.longestChain + 2) + 1 := by
  have measures : (assigned? shortSum).map (fun expression =>
      (expression.height, expression.longestChain)) = some (4, 2) := by decide +kernel
  cases isAssigned : assigned? shortSum with
  | none =>
      rw [isAssigned] at measures
      cases measures
  | some expression =>
      rw [isAssigned] at measures
      rcases Prod.mk.inj (Option.some.inj measures) with ⟨height, chain⟩
      rcases has_of_assigned? isAssigned with ⟨program, accepted, has⟩
      exact ⟨expression, rfl, height, chain, height_le_of_parse accepted has⟩

/-! ## Sums of any height -/

theorem SyntaxTree.Expr.listHeight_eq_foldr (expressions : List Expr) :
    listHeight expressions = (expressions.map height).foldr max 0 := by
  induction expressions with
  | nil => rfl
  | cons first rest inductionHypothesis => simp [listHeight, inductionHypothesis]

theorem SyntaxTree.Expr.height_withoutSpans (expression : Expr) :
    expression.withoutSpans.height = expression.height := by
  induction expression using Expr.induction with
  | binary left operator right span ofLeft ofRight =>
      simp only [withoutSpans, height, ofLeft, ofRight]
  | unary operator operand span ofOperand => simp only [withoutSpans, height, ofOperand]
  | call callee arguments span ofArguments =>
      have same : (arguments.map withoutSpans).map height = arguments.map height := by
        rw [List.map_map]
        exact List.map_congr_left ofArguments
      rw [withoutSpans, height, height, listWithoutSpans_eq_map, listHeight_eq_foldr, same,
        ← listHeight_eq_foldr]
  | grouping inner span ofInner => simp only [withoutSpans, height, ofInner]
  | _ => simp only [withoutSpans, height]

/-- A sum of ones, with so many operators. -/
def onesSum : Nat -> Expr
  | 0 => .intLiteral 1 nowhere
  | operators + 1 => .binary (onesSum operators) .add (.intLiteral 1 nowhere) nowhere

/-- The sum as it is written without parentheses. -/
def onesText : Nat -> String
  | 0 => "1"
  | operators + 1 => onesText operators ++ "+1"

theorem height_onesSum (operators : Nat) : (onesSum operators).height = operators + 1 := by
  induction operators with
  | zero => rfl
  | succ operators inductionHypothesis =>
      rw [onesSum, Expr.height, inductionHypothesis]
      simp [Expr.height]

theorem regularParts_onesSum (operators : Nat) : Phrase.RegularParts (onesSum operators) := by
  induction operators with
  | zero => exact List.forall_mem_singleton.mpr trivial
  | succ operators regular =>
      apply Phrase.regularParts_binary_iff.mpr
      refine ⟨⟨?_, ?_⟩, regular, List.forall_mem_singleton.mpr trivial⟩
      · cases operators <;> rintro own ⟨⟩
        exact Nat.le_refl _
      · rintro own ⟨⟩

/-- However long the sum is, its levels are the first two. -/
theorem levels_onesSum (operators : Nat) {level : Nat}
    (inside : level ∈ (onesSum operators).levels 1) : level <= 2 := by
  induction operators with
  | zero => simp_all [onesSum, Expr.levels]
  | succ operators inductionHypothesis =>
      simp only [onesSum, Expr.levels, List.mem_cons, List.mem_append, List.not_mem_nil,
        or_false] at inside
      rcases inside with rfl | inLeft | rfl
      · decide
      · exact inductionHypothesis inLeft
      · decide

theorem written_onesText (operators : Nat) :
    Scan.Written Scan.EndsLexeme (onesText operators).toList (onesSum operators).words := by
  have one : Scan.Written Scan.EndsLexeme ['1'] [.literal (.int 1)] :=
    (@Scan.written_number 1 (by decide)).mono fun _ ends => ends.1
  induction operators with
  | zero => exact one
  | succ operators inductionHypothesis =>
      rw [onesText, String.toList_append, onesSum, Expr.words]
      exact inductionHypothesis.append_cons (one.behind_mark (BinaryOperator.spells .add))
        (by decide)

theorem exists_high (operators : Nat) :
    Exists fun source => Exists fun program => Exists fun expression =>
      parse source = .ok program ∧ program.Has (.expression expression) ∧
        expression.height = operators + 1 := by
  rcases parse_of_print (regularParts_onesSum operators)
    (spells_print (written_onesText operators)) with
    ⟨⟨level, inside, beyond⟩, -⟩ | ⟨-, program, value, span, accepted, body, same⟩
  · have bounded := levels_onesSum operators inside
    rw [nestingLimit] at beyond
    omega
  · refine ⟨_, program, value, accepted, .inside (.top (body ▸ List.mem_cons_self))
      List.mem_cons_self, ?_⟩
    rw [← value.height_withoutSpans, same, Expr.height_withoutSpans, height_onesSum]

/-- No number bounds the height of the expressions in accepted programs. -/
theorem height_unbounded :
    ¬ Exists fun bound : Nat => forall (source : String) (program : Program),
      parse source = .ok program -> forall expression : Expr,
        program.Has (.expression expression) -> expression.height <= bound := by
  rintro ⟨bound, bounded⟩
  rcases exists_high bound with ⟨source, program, expression, accepted, has, height⟩
  have within := bounded source program accepted expression has
  omega

end ToyFrontend
