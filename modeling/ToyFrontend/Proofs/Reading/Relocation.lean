import ToyFrontend.Proofs.Reading.Contract
import ToyFrontend.Proofs.Relocation
import ToyFrontend.Reading.Program

namespace ToyFrontend

/-!
# Reading tokens at other places

A reader compares kinds, names and values, but never places: it only copies them
into spans and errors.  So if every place of a list of tokens is replaced by
another, then the places of what is read are replaced in the same way, and
nothing else changes.  It does not matter how places are replaced; they may even
fall together.

`Reader.Relocates` compares two readers, because a reader may have been given
what another one has read before.
-/

variable (move : Source.Position -> Source.Position)

namespace Reading

open SyntaxTree (Expr Stmt Block Parameter TypeName BindingPower)

/-- The cursor with all places replaced. -/
def Cursor.relocate (cursor : Cursor) : Cursor where
  current := cursor.current.relocate move
  following := cursor.following.map (Token.relocate move)

theorem Cursor.tokens_relocate (cursor : Cursor) :
    (cursor.relocate move).tokens = cursor.tokens.map (Token.relocate move) :=
  rfl

theorem Cursor.nextKind_relocate (cursor : Cursor) :
    (cursor.relocate move).nextKind = cursor.nextKind := by
  rcases cursor with ⟨current, _ | ⟨next, rest⟩⟩ <;> rfl

theorem Cursor.advance_relocate (cursor : Cursor) :
    (cursor.relocate move).advance = cursor.advance.relocate move := by
  have kind : (cursor.relocate move).kind = cursor.kind := rfl
  unfold advance
  rw [kind]
  split
  next => rfl
  next =>
    rcases cursor with ⟨current, _ | ⟨next, rest⟩⟩ <;> rfl

/-! ## Readers at other places -/

namespace Reader

variable {Result Next : Type}

/-- The end of a run, with all places replaced. -/
def relocated (change : Result -> Result) :
    EStateM.Result SyntaxError Cursor Result -> EStateM.Result SyntaxError Cursor Result
  | .ok value stop => .ok (change value) (stop.relocate move)
  | .error error stop => .error (error.relocate move) (stop.relocate move)

/-- At other places the second reader does what the first one does. -/
def Relocates (change : Result -> Result) (first second : Reader Result) : Prop :=
  forall cursor : Cursor, second.run (cursor.relocate move) =
    relocated move change (first.run cursor)

variable {move} {change : Result -> Result} {changeNext : Next -> Next}

theorem Relocates.bind {first second : Reader Result} {continuation other : Result -> Reader Next}
    (relocates : Relocates move change first second)
    (continued : forall value, Relocates move changeNext (continuation value)
      (other (change value))) :
    Relocates move changeNext (first >>= continuation) (second >>= other) := by
  intro cursor
  rw [EStateM.run_bind, EStateM.run_bind, relocates cursor]
  cases first.run cursor with
  | ok value stop => exact continued value stop
  | error error stop => rfl

theorem relocates_pure {value moved : Result} (same : moved = change value) :
    Relocates move change (pure value) (pure moved) := by
  intro cursor
  rw [same]
  rfl

theorem relocates_fail (cause : SyntaxError.Cause) (expected : List Token.Kind) :
    Relocates move change (fail cause expected) (fail cause expected) :=
  fun _ => rfl

theorem relocates_refuse : Relocates move change refuse refuse := by
  intro cursor
  change EStateM.Result.error _ (cursor.relocate move).advance = _
  rw [cursor.advance_relocate]
  rfl

theorem relocates_kind : Relocates move id kind kind :=
  fun _ => rfl

theorem relocates_nextKind : Relocates move id nextKind nextKind := by
  intro cursor
  change EStateM.Result.ok (cursor.relocate move).nextKind _ = _
  rw [cursor.nextKind_relocate]
  rfl

theorem relocates_current : Relocates move (Token.relocate move) current current :=
  fun _ => rfl

theorem relocates_tokens : Relocates move (List.map (Token.relocate move)) tokens tokens :=
  fun _ => rfl

theorem relocates_advance : Relocates move (Token.relocate move) advance advance := by
  intro cursor
  change EStateM.Result.ok _ (cursor.relocate move).advance = _
  rw [cursor.advance_relocate]
  rfl

theorem relocates_expect (expected : Token.Kind) :
    Relocates move (Token.relocate move) (expect expected) (expect expected) := by
  apply relocates_kind.bind
  intro kind
  dsimp only [id]
  split
  next => exact relocates_advance
  next => exact relocates_fail _ _

theorem relocates_commaSeparated {item other : Reader Result}
    (relocates : Relocates move change item other) (rounds : List Token) :
    Relocates move (List.map change) (commaSeparated item rounds)
      (commaSeparated other (rounds.map (Token.relocate move))) := by
  induction rounds with
  | nil => exact relocates_pure rfl
  | cons round rounds inductionHypothesis =>
      rw [List.map_cons, commaSeparated, commaSeparated]
      apply relocates.bind
      intro first
      apply relocates_kind.bind
      intro kind
      dsimp only [id]
      split
      next =>
        apply relocates_advance.bind
        intro _
        exact inductionHypothesis.bind fun rest => relocates_pure rfl
      next => exact relocates_pure rfl
      next => exact relocates_fail _ _

theorem relocates_items {item other : Reader Result}
    (relocates : Relocates move change item other) :
    Relocates move (List.map change) (items item) (items other) := by
  apply relocates_kind.bind
  intro kind
  dsimp only [id]
  split
  next => exact relocates_pure rfl
  next => exact relocates_tokens.bind fun rounds => relocates_commaSeparated relocates rounds

theorem relocates_parenthesised {item other : Reader Result}
    (relocates : Relocates move change item other) :
    Relocates move (fun read => (read.1.map change, read.2.relocate move))
      (parenthesised item) (parenthesised other) := by
  apply (relocates_expect _).bind
  intro _
  apply (relocates_items relocates).bind
  intro read
  exact (relocates_expect _).bind fun close => relocates_pure rfl

theorem relocates_untilKind {item other : Reader Result}
    (relocates : Relocates move change item other) (stop : Token.Kind) (rounds : List Token) :
    Relocates move (List.map change) (untilKind stop item rounds)
      (untilKind stop other (rounds.map (Token.relocate move))) := by
  induction rounds with
  | nil => exact relocates_pure rfl
  | cons round rounds inductionHypothesis =>
      rw [List.map_cons, untilKind, untilKind]
      apply relocates_kind.bind
      intro kind
      dsimp only [id]
      split
      next => exact relocates_pure rfl
      next =>
        apply relocates.bind
        intro first
        exact inductionHypothesis.bind fun rest => relocates_pure rfl

end Reader

namespace Expression

open Reader

variable {move} {grammar : Grammar} {inner other : Reader Expr}

theorem atom?_relocate (token : Token) :
    atom? (token.relocate move) = (atom? token).map (Expr.relocate move) := by
  rcases token with ⟨kind, text, value, span⟩
  unfold atom? Token.relocate
  dsimp only
  split <;> rfl

theorem relocates_call (relocates : Relocates move (Expr.relocate move) inner other) :
    Relocates move (Expr.relocate move) (call inner) (call other) := by
  apply (relocates_expect _).bind
  intro callee
  apply (relocates_parenthesised relocates).bind
  rintro ⟨arguments, close⟩
  apply relocates_pure
  rw [Expr.relocate, Expr.listRelocate_eq_map]
  rfl

theorem relocates_primary (relocates : Relocates move (Expr.relocate move) inner other) :
    Relocates move (Expr.relocate move) (primary inner) (primary other) := by
  apply relocates_current.bind
  intro token
  apply relocates_nextKind.bind
  intro next
  dsimp only [id]
  have kind : (token.relocate move).kind = token.kind := rfl
  rw [kind, atom?_relocate]
  split
  next => exact relocates_call relocates
  next =>
    cases atom? token with
    | none => exact relocates_fail _ _
    | some expression => exact relocates_advance.bind fun _ => relocates_pure rfl

theorem relocates_grouping (relocates : Relocates move (Expr.relocate move) inner other) :
    Relocates move (Expr.relocate move) (grouping inner) (grouping other) := by
  apply relocates_advance.bind
  intro opening
  apply relocates.bind
  intro expression
  apply (relocates_expect _).bind
  intro close
  apply relocates_pure
  rw [Expr.relocate]
  rfl

theorem relocates_unary (relocates : Relocates move (Expr.relocate move) inner other) :
    Relocates move (Expr.relocate move) (unary inner) (unary other) := by
  apply relocates_kind.bind
  intro kind
  dsimp only [id]
  split
  next => exact relocates_refuse
  next operator _ =>
    apply relocates_advance.bind
    intro token
    apply relocates.bind
    intro expression
    apply relocates_pure
    rw [Expr.relocate, Expr.span_relocate]
    rfl

theorem relocates_binary (relocates : Relocates move (Expr.relocate move) inner other)
    (left : Expr) :
    Relocates move (Expr.relocate move) (binary inner left)
      (binary other (left.relocate move)) := by
  apply relocates_kind.bind
  intro kind
  dsimp only [id]
  split
  next => exact relocates_refuse
  next operator _ =>
    apply relocates_advance.bind
    intro _
    apply relocates.bind
    intro expression
    apply relocates_pure
    rw [Expr.relocate, Expr.span_relocate, Expr.span_relocate]
    rfl

theorem relocates_announced {operation otherOperation : Reader Expr}
    (relocates : Relocates move (Expr.relocate move) inner other)
    (relocatesOperation : Relocates move (Expr.relocate move) operation otherOperation) :
    Relocates move (Expr.relocate move) (announced grammar inner operation)
      (announced grammar other otherOperation) := by
  apply relocates_kind.bind
  intro kind
  dsimp only [id]
  cases grammar.leading kind with
  | none => exact relocates_fail _ _
  | some leading =>
      cases leading with
      | primary => exact relocates_primary relocates
      | unary => exact relocatesOperation
      | grouping => exact relocates_grouping relocates
      | call => exact relocates_call relocates

theorem relocates_operand (relocates : Relocates move (Expr.relocate move) inner other) :
    Relocates move (Expr.relocate move) (operand grammar inner) (operand grammar other) := by
  apply relocates_kind.bind
  intro kind
  dsimp only [id]
  split
  next => exact relocates_fail _ _
  next => exact relocates_announced relocates relocates_refuse

theorem relocates_leading (relocates : Relocates move (Expr.relocate move) inner other) :
    Relocates move (Expr.relocate move) (leading grammar inner) (leading grammar other) :=
  relocates_announced relocates (relocates_unary (relocates_operand relocates))

theorem relocates_climb {right otherRight : BindingPower -> Reader Expr}
    (relocates : forall power, Relocates move (Expr.relocate move) (right power) (otherRight power))
    (power : BindingPower) (rounds : List Token) (left : Expr) :
    Relocates move (Expr.relocate move) (climb grammar right power rounds left)
      (climb grammar otherRight power (rounds.map (Token.relocate move)) (left.relocate move)) := by
  induction rounds generalizing left with
  | nil => exact relocates_pure rfl
  | cons round rounds inductionHypothesis =>
      rw [List.map_cons, climb, climb]
      apply relocates_kind.bind
      intro kind
      dsimp only [id]
      split
      next => exact relocates_pure rfl
      next next _ =>
        split
        next => exact relocates_pure rfl
        next => exact (relocates_binary (relocates next) left).bind inductionHypothesis

theorem relocates_read (levels : Nat) (power : BindingPower) :
    Relocates move (Expr.relocate move) (read grammar levels power)
      (read grammar levels power) := by
  induction levels generalizing power with
  | zero => exact relocates_fail _ _
  | succ levels relocates =>
      apply (relocates_leading (relocates .loosest)).bind
      intro left
      apply relocates_tokens.bind
      intro rounds
      exact relocates_climb relocates power rounds left

end Expression

namespace Statement

open Reader

variable {move} {grammar : Grammar} {expression : Reader Expr} {block : Reader Block}

theorem relocates_typeName : Relocates move id typeName typeName := by
  apply relocates_kind.bind
  intro kind
  dsimp only [id]
  split
  next => exact relocates_advance.bind fun _ => relocates_pure rfl
  next => exact relocates_fail _ _

theorem relocates_parameter :
    Relocates move (Parameter.relocate move) parameter parameter := by
  apply relocates_current.bind
  intro first
  apply relocates_typeName.bind
  intro type
  exact (relocates_expect _).bind fun name => relocates_pure rfl

theorem relocates_initializer
    (relocates : Relocates move (Expr.relocate move) expression expression)
    (type : Option TypeName) :
    Relocates move (Option.map (Expr.relocate move)) (initializer expression type)
      (initializer expression type) := by
  apply relocates_kind.bind
  intro kind
  dsimp only [id]
  split
  next =>
    apply relocates_advance.bind
    intro _
    exact relocates.bind fun value => relocates_pure rfl
  next =>
    split
    next => exact relocates_pure rfl
    next => exact relocates_fail _ _
  next =>
    split
    next => exact relocates_fail _ _
    next => exact relocates_fail _ _

theorem relocates_declaration
    (relocates : Relocates move (Expr.relocate move) expression expression) :
    Relocates move (Stmt.relocate move) (declaration expression) (declaration expression) := by
  apply relocates_advance.bind
  intro first
  apply (relocates_expect _).bind
  intro name
  apply (relocates_initializer relocates _).bind
  intro initial
  apply (relocates_expect _).bind
  intro last
  apply relocates_pure
  rw [Stmt.relocate]
  rfl

theorem relocates_assignment
    (relocates : Relocates move (Expr.relocate move) expression expression) :
    Relocates move (Stmt.relocate move) (assignment expression) (assignment expression) := by
  apply relocates_advance.bind
  intro target
  apply relocates_advance.bind
  intro _
  apply relocates.bind
  intro value
  apply (relocates_expect _).bind
  intro last
  apply relocates_pure
  rw [Stmt.relocate]
  rfl

theorem relocates_callStatement
    (relocates : Relocates move (Expr.relocate move) expression expression) :
    Relocates move (Stmt.relocate move) (callStatement expression) (callStatement expression) := by
  apply relocates_advance.bind
  intro callee
  apply (relocates_parenthesised relocates).bind
  rintro ⟨arguments, close⟩
  apply (relocates_expect _).bind
  intro last
  apply relocates_pure
  rw [Stmt.relocate, Expr.relocate, Expr.listRelocate_eq_map]
  rfl

theorem relocates_assignmentOrCall
    (relocates : Relocates move (Expr.relocate move) expression expression) :
    Relocates move (Stmt.relocate move) (assignmentOrCall expression)
      (assignmentOrCall expression) := by
  apply relocates_nextKind.bind
  intro kind
  dsimp only [id]
  split
  next => exact relocates_assignment relocates
  next => exact relocates_callStatement relocates
  next => exact relocates_advance.bind fun _ => relocates_fail _ _

theorem relocates_condition
    (relocates : Relocates move (Expr.relocate move) expression expression) :
    Relocates move (Expr.relocate move) (condition expression) (condition expression) := by
  apply (relocates_expect _).bind
  intro _
  apply relocates.bind
  intro value
  exact (relocates_expect _).bind fun _ => relocates_pure rfl

theorem relocates_conditional
    (relocates : Relocates move (Expr.relocate move) expression expression)
    (relocatesBlock : Relocates move (Block.relocate move) block block) :
    Relocates move (Stmt.relocate move) (conditional expression block)
      (conditional expression block) := by
  apply relocates_advance.bind
  intro first
  apply (relocates_condition relocates).bind
  intro test
  apply relocatesBlock.bind
  intro consequent
  apply relocates_kind.bind
  intro kind
  dsimp only [id]
  split
  next =>
    apply relocates_advance.bind
    intro _
    apply relocatesBlock.bind
    intro alternative
    apply relocates_pure
    rw [Stmt.relocate, Block.span_relocate]
    rfl
  next =>
    apply relocates_pure
    rw [Stmt.relocate, Block.span_relocate]
    rfl

theorem relocates_loop
    (relocates : Relocates move (Expr.relocate move) expression expression)
    (relocatesBlock : Relocates move (Block.relocate move) block block) :
    Relocates move (Stmt.relocate move) (loop expression block) (loop expression block) := by
  apply relocates_advance.bind
  intro first
  apply (relocates_condition relocates).bind
  intro test
  apply relocatesBlock.bind
  intro body
  apply relocates_pure
  rw [Stmt.relocate, Block.span_relocate]
  rfl

theorem relocates_function (relocatesBlock : Relocates move (Block.relocate move) block block) :
    Relocates move (Stmt.relocate move) (function block) (function block) := by
  apply relocates_advance.bind
  intro first
  apply (relocates_expect _).bind
  intro name
  apply (relocates_parenthesised relocates_parameter).bind
  rintro ⟨parameters, close⟩
  apply relocatesBlock.bind
  intro body
  apply relocates_pure
  rw [Stmt.relocate, Block.span_relocate]
  rfl

theorem relocates_optionalValue
    (relocates : Relocates move (Expr.relocate move) expression expression) :
    Relocates move (Option.map (Expr.relocate move)) (optionalValue expression)
      (optionalValue expression) := by
  apply relocates_kind.bind
  intro kind
  dsimp only [id]
  split
  next => exact relocates_pure rfl
  next => exact relocates.bind fun value => relocates_pure rfl

theorem relocates_result
    (relocates : Relocates move (Expr.relocate move) expression expression) :
    Relocates move (Stmt.relocate move) (result expression) (result expression) := by
  apply relocates_advance.bind
  intro first
  apply (relocates_optionalValue relocates).bind
  intro value
  apply (relocates_expect _).bind
  intro last
  apply relocates_pure
  rw [Stmt.relocate]
  rfl

theorem relocates_print
    (relocates : Relocates move (Expr.relocate move) expression expression) :
    Relocates move (Stmt.relocate move) (print expression) (print expression) := by
  apply relocates_advance.bind
  intro first
  apply (relocates_condition relocates).bind
  intro value
  apply (relocates_expect _).bind
  intro last
  apply relocates_pure
  rw [Stmt.relocate]
  rfl

theorem relocates_announced (expected : List Token.Kind)
    (relocates : Relocates move (Expr.relocate move) expression expression)
    (relocatesBlock : Relocates move (Block.relocate move) block block) :
    Relocates move (Stmt.relocate move) (announced grammar expected expression block)
      (announced grammar expected expression block) := by
  apply relocates_kind.bind
  intro kind
  dsimp only [id]
  cases grammar.statement kind with
  | none => exact relocates_fail _ _
  | some form =>
      cases form with
      | declaration => exact relocates_declaration relocates
      | assignmentOrCall => exact relocates_assignmentOrCall relocates
      | conditional => exact relocates_conditional relocates relocatesBlock
      | loop => exact relocates_loop relocates relocatesBlock
      | function => exact relocates_function relocatesBlock
      | result => exact relocates_result relocates
      | print => exact relocates_print relocates

theorem relocates_braced {body : Reader (List Stmt)}
    (relocates : Relocates move (List.map (Stmt.relocate move)) body body) :
    Relocates move (Block.relocate move) (braced body) (braced body) := by
  apply (relocates_expect _).bind
  intro opening
  apply relocates.bind
  intro enclosed
  apply (relocates_expect _).bind
  intro close
  apply relocates_pure
  rw [Block.relocate, Stmt.listRelocate_eq_map]
  rfl

theorem relocates_block (levels : Nat) :
    Relocates move (Block.relocate move) (Statement.block grammar levels)
      (Statement.block grammar levels) := by
  induction levels with
  | zero => exact relocates_braced (relocates_fail _ _)
  | succ levels relocatesBlock =>
      apply relocates_braced
      apply relocates_tokens.bind
      intro rounds
      apply relocates_untilKind
      apply relocates_kind.bind
      intro kind
      dsimp only [id]
      split
      next => exact relocates_fail _ _
      next =>
        exact relocates_announced _ (Expression.relocates_read levels .loosest) relocatesBlock

theorem relocates_atTop (levels : Nat) :
    Relocates move (Stmt.relocate move) (atTop grammar levels) (atTop grammar levels) := by
  apply relocates_kind.bind
  intro kind
  dsimp only [id]
  split
  next => exact relocates_function (relocates_block levels)
  next =>
    exact relocates_announced _ (Expression.relocates_read levels .loosest)
      (relocates_block levels)

end Statement

/-! ## Programs at other places -/

/-- What was read, with all places replaced. -/
def Outcome.relocate (outcome : Outcome) : Outcome where
  statements := outcome.statements.map (Stmt.relocate move)
  stop := move outcome.stop
  failure := outcome.failure.map (SyntaxError.relocate move)

theorem Outcome.ofCursor_relocate (rounds : List Token) (cursor : Cursor) :
    ofCursor (rounds.map (Token.relocate move)) (cursor.relocate move) =
      (ofCursor rounds cursor).relocate move := by
  induction rounds generalizing cursor with
  | nil => rfl
  | cons round rounds inductionHypothesis =>
      have hasTokens : (cursor.relocate move).hasTokens = cursor.hasTokens := rfl
      have run := @Statement.relocates_atTop move .standard SyntaxTree.nestingLimit cursor
      rw [List.map_cons, ofCursor, ofCursor, hasTokens, run]
      split
      next =>
        cases (Statement.atTop .standard SyntaxTree.nestingLimit).run cursor with
        | ok statement next =>
            exact congrArg (Outcome.prepend _) (inductionHypothesis next)
        | error error next => rfl
      next => rfl

end Reading

theorem Reading.Cursor.ofTokens_relocate (lexemes : List Token) {marker : Token}
    (ends : marker.kind = .eof) :
    ofTokens ((lexemes ++ [marker]).map (Token.relocate move)) =
      (ofTokens (lexemes ++ [marker])).relocate move := by
  have closedMoved : withEndMarker ((lexemes ++ [marker]).map (Token.relocate move)) =
      (lexemes ++ [marker]).map (Token.relocate move) := by
    rw [List.map_append]
    exact withEndMarker_concat _ ends
  rw [ofTokens, ofTokens, withEndMarker_concat lexemes ends, closedMoved]
  cases lexemes <;> rfl

/-- Tokens at other places are read as the same program, or refused for the same error,
with the places replaced. -/
theorem parseTokens_relocate (lexemes : List Token) {marker : Token} (ends : marker.kind = .eof) :
    parseTokens ((lexemes ++ [marker]).map (Token.relocate move)) =
      match parseTokens (lexemes ++ [marker]) with
      | .ok program => .ok (program.relocate move)
      | .error error => .error (error.relocate move) := by
  rw [parseTokens, parseTokens, Reading.Outcome.ofTokens, Reading.Outcome.ofTokens,
    Reading.Cursor.ofTokens_relocate move lexemes ends, Reading.Cursor.tokens_relocate,
    Reading.Outcome.ofCursor_relocate]
  generalize Reading.Outcome.ofCursor _ _ = outcome
  rcases outcome with ⟨statements, stop, _ | error⟩ <;> rfl

end ToyFrontend
