import ToyFrontend.Proofs.Scan.Layout
import ToyFrontend.Proofs.Words

namespace ToyFrontend

/-!
# The stretch of source under a node

A node of a tree was read from tokens that stand side by side, and its span runs
from the first of them to the last.  `Occupies` says this of a node and of every
node inside it: the words of the tokens are those of the node, and the nodes
inside take stretches of the same tokens, one behind the other.

Each form of the language finds the ends of its span in another way, by a token
of its own, by a part, or by a part that may be missing.  The relation is
therefore proved production by production, as the words of a program are.
-/

namespace SyntaxTree

/-- A part of a tree that has a span of its own. -/
inductive Node where
  | statement (statement : Stmt)
  | block (block : Block)
  | parameter (parameter : Parameter)
  | expression (expression : Expr)

namespace Node

/-- The stretch of source that a node keeps. -/
def span : Node -> Source.Span
  | .statement given => given.span
  | .block given => given.span
  | .parameter given => given.span
  | .expression given => given.span

/-- The words of a node. -/
def words : Node -> List Word
  | .statement given => given.words
  | .block given => Stmt.blockWords given
  | .parameter given => given.words
  | .expression given => given.words

end Node

/-- The nodes directly inside an expression, in source order. -/
def Expr.children : Expr -> List Node
  | .intLiteral _ _ => []
  | .stringLiteral _ _ => []
  | .boolLiteral _ _ => []
  | .identifier _ _ => []
  | .binary left _ right _ => [.expression left, .expression right]
  | .unary _ operand _ => [.expression operand]
  | .call _ arguments _ => arguments.map .expression
  | .grouping inner _ => [.expression inner]

/-- The nodes directly inside a statement, in source order. -/
def Stmt.children : Stmt -> List Node
  | .function _ parameters body _ => parameters.map .parameter ++ [.block body]
  | .declaration _ _ initial _ => initial.toList.map .expression
  | .assignment _ value _ => [.expression value]
  | .conditional condition consequent alternative _ =>
      [.expression condition, .block consequent] ++ alternative.toList.map .block
  | .loop condition body _ => [.expression condition, .block body]
  | .result value _ => value.toList.map .expression
  | .expression value _ => [.expression value]
  | .print value _ => [.expression value]

/-- The nodes directly inside a node, in source order. -/
def Node.children : Node -> List Node
  | .statement given => given.children
  | .block given => given.statements.map .statement
  | .parameter _ => []
  | .expression given => given.children

/-- A node of the program: a statement at its top, or inside another node. -/
inductive Program.Has (program : Program) : Node -> Prop
  | top {statement : Stmt} (member : statement ∈ program.body) : Has program (.statement statement)
  | inside {outer inner : Node} (has : Has program outer) (child : inner ∈ outer.children) :
      Has program inner

/-- The span from the first token of a segment to its last one. -/
inductive Bounded : List Token -> Source.Span -> Prop
  | mk {segment : List Token} {first last : Token} (begins : segment.head? = some first)
      (ends : segment.getLast? = some last) :
      Bounded segment { start := first.span.start, finish := last.span.finish }

mutual

/-- The tokens of a segment are those of the node. -/
inductive Occupies : List Token -> Node -> Prop
  | mk {segment : List Token} {node : Node} (bounded : Bounded segment node.span)
      (spelled : segment.map Token.word = node.words) (inside : Arranged segment node.children) :
      Occupies segment node

/-- The nodes have segments of their own among the tokens, one behind the other. -/
inductive Arranged : List Token -> List Node -> Prop
  | none (tokens : List Token) : Arranged tokens []
  | next {gap segment rest : List Token} {node : Node} {nodes : List Node}
      (here : Occupies segment node) (others : Arranged rest nodes) :
      Arranged (gap ++ (segment ++ rest)) (node :: nodes)

end

/-! ## Segments -/

theorem bounded_single (token : Token) : Bounded [token] token.span :=
  .mk rfl rfl

/-- The tokens from one segment through another. -/
theorem Bounded.through {front back : List Token} {first last : Source.Span}
    (begins : Bounded front first) (ends : Bounded back last) (middle : List Token) :
    Bounded (front ++ (middle ++ back)) (first.through last) := by
  rcases begins with ⟨firstOfFront, lastOfFront⟩
  rcases ends with ⟨firstOfBack, lastOfBack⟩
  apply Bounded.mk
  · rw [List.head?_append, firstOfFront]
    rfl
  · rw [List.getLast?_append, List.getLast?_append, lastOfBack]
    rfl

namespace Occupies

theorem bounded {segment : List Token} {node : Node} (occupies : Occupies segment node) :
    Bounded segment node.span := by
  cases occupies with
  | mk bounded => exact bounded

theorem spelled {segment : List Token} {node : Node} (occupies : Occupies segment node) :
    segment.map Token.word = node.words := by
  cases occupies with
  | mk _ spelled => exact spelled

theorem inside {segment : List Token} {node : Node} (occupies : Occupies segment node) :
    Arranged segment node.children := by
  cases occupies with
  | mk _ _ inside => exact inside

end Occupies

namespace Arranged

theorem skip {tokens : List Token} {nodes : List Node} (arranged : Arranged tokens nodes)
    (gap : List Token) : Arranged (gap ++ tokens) nodes := by
  cases arranged with
  | none => exact .none _
  | next here others =>
      rw [← List.append_assoc]
      exact .next here others

theorem append {front back : List Token} {nodes others : List Node}
    (arranged : Arranged front nodes) (behind : Arranged back others) :
    Arranged (front ++ back) (nodes ++ others) := by
  induction nodes generalizing front with
  | nil => exact behind.skip front
  | cons node nodes inductionHypothesis =>
      cases arranged with
      | next here rest =>
          rw [List.append_assoc, List.append_assoc]
          exact .next here (inductionHypothesis rest)

theorem single {segment : List Token} {node : Node} (occupies : Occupies segment node) :
    Arranged segment [node] := by
  have alone := @Arranged.next [] segment [] node [] occupies (.none _)
  rwa [List.nil_append, List.append_nil] at alone

/-- Tokens behind the last node change nothing. -/
theorem behind {tokens : List Token} {nodes : List Node} (arranged : Arranged tokens nodes)
    (rest : List Token) : Arranged (tokens ++ rest) nodes := by
  have wider := arranged.append (.none rest)
  rwa [List.append_nil] at wider

theorem exists_segment {tokens : List Token} {nodes : List Node} {node : Node}
    (arranged : Arranged tokens nodes) (member : node ∈ nodes) :
    Exists fun before => Exists fun segment => Exists fun rest =>
      tokens = before ++ (segment ++ rest) ∧ Occupies segment node := by
  induction nodes generalizing tokens with
  | nil => cases member
  | cons first nodes inductionHypothesis =>
      cases arranged with
      | @next gap segment rest _ _ here others =>
          rcases List.mem_cons.mp member with rfl | later
          · exact ⟨gap, segment, rest, rfl, here⟩
          · rcases inductionHypothesis others later with
              ⟨before, inner, behind, rfl, occupies⟩
            refine ⟨gap ++ (segment ++ before), inner, behind, ?_, occupies⟩
            simp only [List.append_assoc]

end Arranged

/-- Every node of a program has its segment among the tokens of the program. -/
theorem Program.Has.exists_segment {program : Program} {tokens : List Token} {node : Node}
    (has : program.Has node) (arranged : Arranged tokens (program.body.map .statement)) :
    Exists fun before => Exists fun segment => Exists fun rest =>
      tokens = before ++ (segment ++ rest) ∧ Occupies segment node := by
  induction has with
  | top member => exact arranged.exists_segment (List.mem_map_of_mem member)
  | inside has child inductionHypothesis =>
      rcases inductionHypothesis with ⟨before, outer, rest, rfl, occupies⟩
      rcases occupies.inside.exists_segment child with ⟨front, segment, back, rfl, within⟩
      refine ⟨before ++ front, segment, back ++ rest, ?_, within⟩
      simp only [List.append_assoc]

end SyntaxTree

namespace Phrase

open SyntaxTree

/-- What is spelled is a node, and the tokens are its segment. -/
def Places {Item : Type} (item : List Token -> Item -> Prop) (node : Item -> Node) : Prop :=
  forall ⦃tokens : List Token⦄ ⦃value : Item⦄, item tokens value -> Occupies tokens (node value)

/-- What is spelled has these nodes, each with a segment of the tokens. -/
def Arranges {Item : Type} (item : List Token -> Item -> Prop) (nodes : Item -> List Node) : Prop :=
  forall ⦃tokens : List Token⦄ ⦃value : Item⦄, item tokens value -> Arranged tokens (nodes value)

section Lists

variable {Item : Type} {item : List Token -> Item -> Prop} {node : Item -> Node}

theorem Places.keepsWords (places : Places item node) :
    KeepsWords item (fun value => (node value).words) :=
  fun _ _ spelled => (places spelled).spelled

theorem arranges_separated (places : Places item node) :
    Arranges (Separated item) (List.map node) := by
  intro tokens values spelled
  induction spelled with
  | last spelled => exact .single (places spelled)
  | @more tokens rest separator value values spelled comma others inductionHypothesis =>
      exact .append (.single (places spelled)) (inductionHypothesis.skip [separator])

theorem arranges_parenthesised (places : Places item node) :
    Arranges (Parenthesised item) (fun read => read.1.map node) := by
  rintro tokens _ ⟨opens, spelled, closes⟩
  apply Arranged.skip _ [_]
  apply Arranged.behind
  cases spelled with
  | none => exact .none _
  | some spelled => exact arranges_separated places spelled

/-- The last of the parenthesised tokens is the parenthesis that closes them. -/
theorem exists_close {tokens : List Token} {values : List Item} {close : Source.Span}
    (spelled : Parenthesised item tokens (values, close)) :
    Exists fun before => Exists fun last => tokens = before ++ [last] ∧ close = last.span := by
  cases spelled with
  | mk => exact ⟨_, _, (List.cons_append ..).symm, rfl⟩

theorem arranges_repeated (places : Places item node) :
    Arranges (Repeated item) (List.map node) := by
  intro tokens values spelled
  induction spelled with
  | none => exact .none _
  | more spelled others inductionHypothesis =>
      exact .append (.single (places spelled)) inductionHypothesis

end Lists

section Expressions

variable {inner : List Token -> Expr -> Prop}

theorem places_call (places : Places inner .expression) {callee : Token} {tokens : List Token}
    {arguments : List Expr} {close : Source.Span} (named : callee.kind = .identifier)
    (spelled : Parenthesised inner tokens (arguments, close)) :
    Occupies (callee :: tokens)
      (.expression (.call callee.text arguments (callee.span.through close))) := by
  refine .mk ?_ (keepsWords_primary places.keepsWords (.call named spelled)) ?_
  · rcases exists_close spelled with ⟨before, last, rfl, rfl⟩
    exact (bounded_single callee).through (bounded_single last) before
  · exact (arranges_parenthesised places spelled).skip [callee]

theorem places_primary (places : Places inner .expression) :
    Places (Primary inner) .expression := by
  intro tokens expression spelled
  have words := keepsWords_primary places.keepsWords spelled
  cases spelled with
  | @atom token _ spelled =>
      cases spelled <;> exact .mk (bounded_single token) words (.none _)
  | call named spelled => exact places_call places named spelled
  | @grouping opening close enclosed _ opens spelled closes =>
      refine .mk ((bounded_single opening).through (bounded_single close) enclosed) words ?_
      exact ((Arranged.single (places spelled)).behind [close]).skip [opening]

theorem places_unary (places : Places inner .expression) :
    Places (Unary inner) .expression := by
  intro tokens expression spelled
  have words := keepsWords_unary places.keepsWords spelled
  cases spelled with
  | primary spelled => exact places_primary places spelled
  | @operation token _ _ _ denotes spelled =>
      have operand := places_primary places spelled
      refine .mk ((bounded_single token).through operand.bounded []) words ?_
      exact (Arranged.single operand).skip [token]

theorem places_expression (levels precedence : Nat) :
    Places (Expression levels precedence) .expression := by
  induction levels generalizing precedence with
  | zero =>
      intro tokens expression spelled
      exact False.elim spelled
  | succ levels places =>
      intro tokens expression spelled
      have words := keepsWords_expression (levels + 1) precedence spelled
      induction spelled with
      | unary spelled => exact places_unary (places 0) spelled
      | @operation before behind token _ _ _ spelledLeft tighter held denotes spelledRight
          inductionHypothesis =>
          have wordsLeft := keepsWords_expression (levels + 1) precedence spelledLeft
          have left := inductionHypothesis wordsLeft
          have right := places _ spelledRight
          refine .mk (left.bounded.through right.bounded [token]) words ?_
          exact .append (.single left) ((Arranged.single right).skip [token])

end Expressions

section Statements

variable {expression : List Token -> Expr -> Prop} {block : List Token -> SyntaxTree.Block -> Prop}

theorem places_parameter : Places Parameter .parameter := by
  intro tokens parameter spelled
  have words := keepsWords_parameter spelled
  cases spelled with
  | @mk first name type typed named =>
      exact .mk ((bounded_single first).through (bounded_single name) []) words (.none _)

theorem arranges_initial (places : Places expression .expression) (type : Option TypeName) :
    Arranges (Initial expression type) (fun initial => initial.toList.map .expression) := by
  intro tokens initial spelled
  cases spelled with
  | none => exact .none _
  | @some token _ _ assigns spelled => exact (Arranged.single (places spelled)).skip [token]

theorem arranges_optional (places : Places expression .expression) :
    Arranges (Optional expression) (fun value => value.toList.map .expression) := by
  intro tokens value spelled
  cases spelled with
  | none => exact .none _
  | some spelled => exact .single (places spelled)

theorem arranges_condition (places : Places expression .expression) :
    Arranges (Condition expression) (fun value => [.expression value]) := by
  rintro _ value ⟨opens, spelled, closes⟩
  exact ((Arranged.single (places spelled)).behind [_]).skip [_]

/-- A statement from its first token to its last one, with the nodes between them. -/
theorem occupies_enclosed {first last : Token} {tokens : List Token} {statement : Stmt}
    (spans : statement.span = first.span.through last.span)
    (words : (first :: (tokens ++ [last])).map Token.word = statement.words)
    (arranged : Arranged tokens statement.children) :
    Occupies (first :: (tokens ++ [last])) (.statement statement) := by
  refine .mk ?_ words ((arranged.behind [last]).skip [first])
  rw [Node.span, spans]
  exact (bounded_single first).through (bounded_single last) tokens

/-- A statement from its first token through the block that ends it. -/
theorem occupies_through_block {first : Token} {tokens body : List Token} {statement : Stmt}
    {last : SyntaxTree.Block} {nodes : List Node} (ends : Occupies body (.block last))
    (spans : statement.span = first.span.through last.span)
    (words : (first :: (tokens ++ body)).map Token.word = statement.words)
    (children : statement.children = nodes ++ [.block last]) (arranged : Arranged tokens nodes) :
    Occupies (first :: (tokens ++ body)) (.statement statement) := by
  refine .mk ?_ words ?_
  · rw [Node.span, spans]
    exact (bounded_single first).through ends.bounded tokens
  · rw [Node.children, children]
    exact (arranged.append (.single ends)).skip [first]

theorem places_statement (places : Places expression .expression)
    (placesBlock : Places block .block) : Places (Statement expression block) .statement := by
  intro tokens statement spelled
  have words := keepsWords_statement places.keepsWords placesBlock.keepsWords spelled
  cases spelled with
  | @declaration type first name last initialTokens initial declares named spelled ends =>
      refine @occupies_enclosed _ _ (name :: initialTokens) _ rfl words ?_
      exact (arranges_initial places _ spelled).skip [name]
  | @assignment target token last valueTokens value named assigns spelled ends =>
      refine @occupies_enclosed _ _ (token :: valueTokens) _ rfl words ?_
      exact (Arranged.single (places spelled)).skip [token]
  | @call callee last tokens arguments close named spelled ends =>
      -- The call ends with its parenthesis, and the statement with the semicolon behind it.
      refine .mk ((bounded_single callee).through (bounded_single last) tokens) words ?_
      exact (Arranged.single (places_call places named spelled)).behind [last]
  | conditional begins spelledTest spelledBody =>
      exact occupies_through_block (placesBlock spelledBody) rfl words rfl
        (arranges_condition places spelledTest)
  | @alternative first otherwise test body other _ _ _ begins spelledTest spelledBody turns
      spelledOther =>
      have regrouped : test ++ (body ++ otherwise :: other) =
          (test ++ (body ++ [otherwise])) ++ other := by
        simp
      rw [regrouped] at words ⊢
      refine occupies_through_block (placesBlock spelledOther) rfl words rfl ?_
      exact .append (arranges_condition places spelledTest)
        ((Arranged.single (placesBlock spelledBody)).behind [otherwise])
  | loop begins spelledTest spelledBody =>
      exact occupies_through_block (placesBlock spelledBody) rfl words rfl
        (arranges_condition places spelledTest)
  | result begins spelled ends =>
      exact occupies_enclosed rfl words (arranges_optional places spelled)
  | print begins spelled ends =>
      exact occupies_enclosed rfl words (arranges_condition places spelled)

theorem places_function (placesBlock : Places block .block) :
    Places (Function block) .statement := by
  intro tokens statement spelled
  have words := keepsWords_function placesBlock.keepsWords spelled
  cases spelled with
  | @mk first name listed tokens parameters close body begins named spelledParameters
      spelledBody =>
      refine @occupies_through_block _ (name :: listed) _ _ _ _ (placesBlock spelledBody) rfl
        words rfl ?_
      exact (arranges_parenthesised places_parameter spelledParameters).skip [name]

theorem places_braced {statement : List Token -> Stmt -> Prop}
    (places : Places statement .statement) : Places (Braced statement) .block := by
  intro tokens block spelled
  have words := keepsWords_braced places.keepsWords spelled
  cases spelled with
  | @mk opening close tokens statements opens spelled closes =>
      refine .mk ((bounded_single opening).through (bounded_single close) tokens) words ?_
      exact ((arranges_repeated places spelled).behind [close]).skip [opening]

theorem places_block (levels : Nat) : Places (Block levels) .block := by
  induction levels with
  | zero =>
      intro tokens block spelled
      exact False.elim spelled
  | succ levels inductionHypothesis =>
      exact places_braced (places_statement (places_expression levels 0)
        inductionHypothesis)

theorem places_top (levels : Nat) : Places (Top levels) .statement := by
  intro tokens statement spelled
  cases spelled with
  | function spelled => exact places_function (places_block levels) spelled
  | statement spelled =>
      exact places_statement (places_expression levels 0) (places_block levels) spelled

end Statements

end Phrase

open SyntaxTree

/-- The tokens before a marker are those of the program, which ends where the marker
stands. -/
theorem arranged_of_parseTokens {lexemes : List Token} {marker : Token} {program : Program}
    (proper : forall token, token ∈ lexemes -> token.kind ≠ .eof) (ends : marker.kind = .eof)
    (accepted : parseTokens (lexemes ++ [marker]) = .ok program) :
    Arranged lexemes (program.body.map .statement) ∧
      program.span = { start := .start, finish := marker.span.start } := by
  rcases (Reading.parseTokens_marked_iff proper ends).mp accepted with ⟨spelled, span⟩
  exact ⟨Phrase.arranges_repeated (Phrase.places_top nestingLimit) spelled, span⟩

theorem arranged_of_parse {source : String} {program : Program}
    (accepted : parse source = .ok program) :
    Exists fun lexemes => Exists fun marker =>
      tokenize source = .ok (lexemes ++ [marker]) ∧ marker.kind = .eof ∧
        (forall token, token ∈ lexemes -> token.kind ≠ .eof) ∧
        Arranged lexemes (program.body.map .statement) ∧
        program.span = { start := .start, finish := marker.span.start } := by
  unfold parse at accepted
  split at accepted
  next => cases accepted
  next tokens scanned =>
    split at accepted
    next => cases accepted
    next given =>
      cases accepted
      rcases (Scan.layout_of_tokenize scanned).marked with ⟨lexemes, rfl, each⟩
      have proper := fun token member => (each token member).1
      exact ⟨lexemes, _, scanned, rfl, proper, arranged_of_parseTokens proper rfl given⟩

/-- Every node of a program has a segment of the document's tokens for itself.  Its span
runs from the first token of the segment to the last, and the nodes inside it have
segments of the same tokens, one behind the other. -/
theorem occupies_of_parse {source : String} {program : Program}
    (accepted : parse source = .ok program) :
    Exists fun lexemes => Exists fun marker =>
      tokenize source = .ok (lexemes ++ [marker]) ∧ marker.kind = .eof ∧
        (forall token, token ∈ lexemes -> token.kind ≠ .eof) ∧
        Arranged lexemes (program.body.map .statement) ∧
        (forall node, program.Has node ->
          Exists fun before => Exists fun segment => Exists fun behind =>
            lexemes = before ++ (segment ++ behind) ∧ Occupies segment node) ∧
        program.span = { start := .start, finish := marker.span.start } := by
  rcases arranged_of_parse accepted with ⟨lexemes, marker, scanned, ends, proper, arranged, span⟩
  exact ⟨lexemes, marker, scanned, ends, proper, arranged,
    fun node has => has.exists_segment arranged, span⟩

/-- A function over three lines.  A call in it ends before its statement does, and a
conditional ends with its second block. -/
def branchingDocument : String :=
  "function f(int a) \x7b\n  if (a == (1)) \x7b f(-a, 2); \x7d else \x7b return; \x7d\n\x7d\n"

theorem occupies_of_branchingDocument :
    Exists fun program => parse branchingDocument = .ok program ∧
      Exists fun lexemes => Exists fun marker =>
        tokenize branchingDocument = .ok (lexemes ++ [marker]) ∧ marker.kind = .eof ∧
          (forall token, token ∈ lexemes -> token.kind ≠ .eof) ∧
          Arranged lexemes (program.body.map .statement) ∧
          (forall node, program.Has node ->
            Exists fun before => Exists fun segment => Exists fun behind =>
              lexemes = before ++ (segment ++ behind) ∧ Occupies segment node) ∧
          program.span = { start := .start, finish := marker.span.start } := by
  have isRead : (parse branchingDocument).isOk = true := by decide +kernel
  rcases exists_of_parse_isOk isRead with ⟨program, accepted⟩
  exact ⟨program, accepted, occupies_of_parse accepted⟩

end ToyFrontend
