import ToyFrontend.Proofs.Reading.Procedure
import ToyFrontend.Proofs.Reading.Rounds

namespace ToyFrontend
namespace Reading

/-!
# Procedures and readers

Each procedure has a reader that it is compared with.  `Process.Matches` says that
a process does what a reader does, at one depth and with a bounded number of tokens
ahead.  Processes that match readers may be put together like these, and behind a
reader that takes a token the bound is smaller by one.

A procedure is compared with its reader under the premise that calls match theirs.
`Procedure.Serves` names the calls that this takes: with fewer tokens ahead, on
a deeper level, or of a procedure of lower rank.  The rank is needed because some
calls take neither a token nor a level.  A grammar may say that the end marker
begins a grouping, and no reader moves past that marker.
-/

open SyntaxTree (Expr Stmt Block Parameter TypeName BindingPower BinaryOperator UnaryOperator
  nestingLimit)

namespace Process

variable {Result Next : Type} {grammar : Grammar} {depth ahead : Nat}

/-- With this grammar, at this depth and with at most so many tokens ahead the process does
what the reader does. -/
def Matches (grammar : Grammar) (depth ahead : Nat) (process : Process Result)
    (reader : Reader Result) : Prop :=
  forall ⦃cursor : Cursor⦄, cursor.Closed -> cursor.tokens.length <= ahead ->
    process.run { cursor, grammar, depth } =
      Session.ending { cursor, grammar, depth } (reader.run cursor)

theorem run_bind_of_run {process : Process Result} {reader : Reader Result}
    {goesOn : Result -> Process Next} {continuation : Result -> Reader Next} {session : Session}
    (first : process.run session = session.ending (reader.run session.cursor))
    (second : forall result cursor, reader.run session.cursor = .ok result cursor ->
      (goesOn result).run { session with cursor } =
        session.ending ((continuation result).run cursor)) :
    (process >>= goesOn).run session =
      session.ending ((reader >>= continuation).run session.cursor) := by
  rw [EStateM.run_bind, EStateM.run_bind, first]
  cases run : reader.run session.cursor with
  | ok result cursor => exact second result cursor run
  | error error cursor => rfl

theorem matches_read (reader : Reader Result) : Matches grammar depth ahead (read reader) reader :=
  fun _ _ _ => rfl

theorem matches_pure (result : Result) :
    Matches grammar depth ahead (pure result) (pure result) :=
  fun _ _ _ => rfl

theorem Matches.bind {process : Process Result} {reader : Reader Result}
    {goesOn : Result -> Process Next} {continuation : Result -> Reader Next}
    (first : Matches grammar depth ahead process reader) (onward : reader.Onward)
    (second : forall result, Matches grammar depth ahead (goesOn result) (continuation result)) :
    Matches grammar depth ahead (process >>= goesOn) (reader >>= continuation) := by
  intro cursor closed within
  apply run_bind_of_run (first closed within)
  intro result middle run
  have reaches := onward.reaches run
  exact second result (reaches.closed closed) (Nat.le_trans reaches.length_le within)

/-- Behind what takes a token there is one token less ahead. -/
theorem Matches.bind_of_consumes {process : Process Result} {reader : Reader Result}
    {goesOn : Result -> Process Next} {continuation : Result -> Reader Next}
    (first : Matches grammar depth (ahead + 1) process reader) (consumes : reader.Consumes)
    (second : forall result, Matches grammar depth ahead (goesOn result) (continuation result)) :
    Matches grammar depth (ahead + 1) (process >>= goesOn) (reader >>= continuation) := by
  intro cursor closed within
  apply run_bind_of_run (first closed within)
  intro result middle run
  have shorter := consumes.progress closed run
  exact second result ((consumes.onward.reaches run).closed closed) (by omega)

theorem Matches.of_le {process : Process Result} {reader : Reader Result} {fewer : Nat}
    (first : Matches grammar depth ahead process reader) (within : fewer <= ahead) :
    Matches grammar depth fewer process reader :=
  fun _ closed bounded => first closed (Nat.le_trans bounded within)

theorem run_read_kind_bind (goesOn : Token.Kind -> Process Next) (session : Session) :
    (read Reader.kind >>= goesOn).run session = (goesOn session.cursor.kind).run session :=
  rfl

theorem run_grammar_bind (goesOn : Grammar -> Process Next) (session : Session) :
    (Process.grammar >>= goesOn).run session = (goesOn session.grammar).run session :=
  rfl

/-- A token that is looked at and is no end marker is passed. -/
theorem run_advance_bind_of_ne {goesOn : Token -> Process Next}
    {continuation : Token -> Reader Next} {cursor : Cursor} (closed : cursor.Closed)
    (within : cursor.tokens.length <= ahead + 1) (notMarker : cursor.kind ≠ .eof)
    (second : forall token, Matches grammar depth ahead (goesOn token) (continuation token)) :
    (read Reader.advance >>= goesOn).run { cursor, grammar, depth } =
      Session.ending { cursor, grammar, depth }
        ((Reader.advance >>= continuation).run cursor) := by
  have passes := closed.passes_advance notMarker
  have shorter := passes.length_lt (List.cons_ne_nil _ _)
  have later : cursor.advance.tokens.length <= ahead := by omega
  exact second cursor.current (passes.closed closed) later

/-- Inside there is one level less, and none is missing behind. -/
theorem Matches.nested {inside : Process Result} {reader : Reader Result}
    (first : Matches grammar (depth + 1) ahead inside reader) (isOpen : depth < nestingLimit) :
    Matches grammar depth ahead (nested inside) reader := by
  intro cursor closed within
  have enters : Session.enter { cursor, grammar, depth } =
      .ok { cursor, grammar, depth := depth + 1 } := if_pos isOpen
  have run := first closed within
  unfold EStateM.run at run ⊢
  rw [Process.nested, enters]
  dsimp only [EStateM.run]
  rw [run]
  cases reader cursor <;> rfl

theorem matches_nested_of_full (inside : Process Result) (full : depth = nestingLimit) :
    Matches grammar depth ahead (Process.nested inside) (Reader.fail .nestingTooDeep []) := by
  intro cursor closed within
  have refuses : Session.enter { cursor, grammar, depth } =
      .error (SyntaxError.blame .nestingTooDeep [] cursor.current) :=
    if_neg (Nat.not_lt.mpr (Nat.le_of_eq full.symm))
  unfold EStateM.run
  rw [Process.nested, refuses]
  rfl

/-! ### Lists -/

section Lists

open Reader (Onward Consumes)

variable {Item : Type} {item : Process Item} {more : Process (List Item)} {reader : Reader Item}

theorem matches_moreItems (consumes : Consumes reader)
    (first : Matches grammar depth (ahead + 1) item reader)
    (others : Matches grammar depth ahead more
      (do Reader.commaSeparated reader (← Reader.tokens))) :
    Matches grammar depth (ahead + 1) (moreItems item more)
      (do Reader.commaSeparated reader (← Reader.tokens)) := by
  intro cursor closed within
  rw [Reader.run_tokens_bind, Cursor.tokens, Reader.commaSeparated]
  apply run_bind_of_run (first closed within)
  intro value middle run
  have shorter := consumes.progress closed run
  have behind := middle.reaches_advance
  have closedBehind := behind.closed ((consumes.onward.reaches run).closed closed)
  have fewer := behind.length_le
  have enough : middle.advance.tokens.length <= cursor.following.length := by
    have whole : cursor.tokens.length = cursor.following.length + 1 := List.length_cons
    omega
  rw [run_read_kind_bind, Reader.run_kind_bind]
  dsimp only
  cases middle.kind with
  | comma =>
      dsimp only
      rw [Reader.run_advance_bind]
      have goesOn := others closedBehind (by omega)
      rw [Reader.run_tokens_bind,
        Reader.run_commaSeparated_of_enough consumes closedBehind (Nat.le_refl _) enough] at goesOn
      exact run_bind_of_run goesOn fun _ _ _ => rfl
  | _ => rfl

theorem matches_items
    (others : Matches grammar depth ahead more
      (do Reader.commaSeparated reader (← Reader.tokens))) :
    Matches grammar depth ahead (items more) (Reader.items reader) := by
  intro cursor closed within
  rw [items, Reader.items, run_read_kind_bind, Reader.run_kind_bind]
  dsimp only
  split
  next => rfl
  next => exact others closed within

theorem matches_parenthesised (onward : Onward reader)
    (others : Matches grammar depth ahead more
      (do Reader.commaSeparated reader (← Reader.tokens))) :
    Matches grammar depth (ahead + 1) (parenthesised more) (Reader.parenthesised reader) := by
  apply (matches_read _).bind_of_consumes (Reader.consumes_expect (by decide))
  intro opening
  apply (matches_items others).bind (Reader.onward_items onward)
  intro enclosed
  apply (matches_read _).bind (Reader.onward_expect _)
  intro close
  exact matches_pure _

theorem matches_untilKind {stop : Token.Kind} (consumes : Consumes reader)
    (first : Matches grammar depth (ahead + 1) item reader)
    (others : Matches grammar depth ahead more
      (do Reader.untilKind stop reader (← Reader.tokens))) :
    Matches grammar depth (ahead + 1) (untilKind stop item more)
      (do Reader.untilKind stop reader (← Reader.tokens)) := by
  intro cursor closed within
  rw [Reader.run_tokens_bind, Cursor.tokens, Reader.untilKind, untilKind, run_read_kind_bind,
    Reader.run_kind_bind]
  dsimp only
  split
  next => rfl
  next =>
    apply run_bind_of_run (first closed within)
    intro value middle run
    have shorter := consumes.progress closed run
    have closedMiddle := (consumes.onward.reaches run).closed closed
    have enough : middle.tokens.length <= cursor.following.length := by
      have whole : cursor.tokens.length = cursor.following.length + 1 := List.length_cons
      omega
    have goesOn := others closedMiddle (by omega)
    rw [Reader.run_tokens_bind,
      Reader.run_untilKind_of_enough consumes closedMiddle (Nat.le_refl _) enough] at goesOn
    exact run_bind_of_run goesOn fun _ _ _ => rfl

end Lists

end Process

namespace Procedure

open Process (Matches matches_read matches_pure)
open Reader (Onward Consumes onward_advance onward_expect consumes_expect)

/-- The reader of the library that a procedure is compared with. -/
def reader (grammar : Grammar) (levels : Nat) :
    {Result : Type} -> Procedure Result -> Reader Result
  | _, .expression power => Expression.read grammar levels power
  | _, .climb power left => do
      Expression.climb grammar (Expression.read grammar levels) power (← Reader.tokens) left
  | _, .operation left power => Expression.binary (Expression.read grammar levels power) left
  | _, .leading => Expression.leading grammar (Expression.whole grammar levels)
  | _, .expressionForm form => Expression.ofForm grammar levels form
  | _, .arguments => Reader.parenthesised (Expression.whole grammar levels)
  | _, .moreArguments => do
      Reader.commaSeparated (Expression.whole grammar levels) (← Reader.tokens)
  | _, .typeName => Statement.typeName
  | _, .moreParameters => do Reader.commaSeparated Statement.parameter (← Reader.tokens)
  | _, .statementForm form => Statement.ofForm grammar levels form
  | _, .statement => Statement.read grammar levels
  | _, .topStatement => Statement.atTop grammar levels
  | _, .block => Statement.block grammar levels
  | _, .moreStatements =>
      Statement.statements
        (Statement.inBlock grammar (Expression.whole grammar levels)
          (Statement.block grammar levels))
  | _, .moreProgram => do
      Reader.untilKind .eof (Statement.atTop grammar levels) (← Reader.tokens)

/-- Does a success of the procedure mean that a token was taken?  A loop need not go on, and
there may be no statement to read. -/
def takes : {Result : Type} -> Procedure Result -> Bool
  | _, .climb _ _ | _, .moreStatements | _, .moreProgram => false
  | _, _ => true

/-- How far a procedure is from one that takes a token or a level. -/
def rank : {Result : Type} -> Procedure Result -> Nat
  | _, .expression _ | _, .operation _ _ | _, .arguments | _, .typeName | _, .moreParameters
  | _, .block => 0
  | _, .expressionForm .primary => 2
  | _, .expressionForm _ | _, .climb _ _ | _, .moreArguments | _, .statementForm _ => 1
  | _, .statement => 2
  | _, .leading | _, .topStatement | _, .moreStatements => 3
  | _, .moreProgram => 4

/-- Calls do what the readers do: with fewer tokens ahead, on a deeper level, and where
neither is the case, of the procedures below a rank. -/
structure Serves (call : Calls) (grammar : Grammar) (depth levels ahead rank : Nat) : Prop where
  later : forall {Result : Type} (procedure : Procedure Result),
    Matches grammar depth ahead (call procedure) (procedure.reader grammar levels)
  deeper : forall {fewer : Nat}, levels = fewer + 1 ->
    forall {Result : Type} (procedure : Procedure Result),
      Matches grammar (depth + 1) (ahead + 1) (call procedure) (procedure.reader grammar fewer)
  lower : forall {Result : Type} (procedure : Procedure Result), procedure.rank < rank ->
    Matches grammar depth (ahead + 1) (call procedure) (procedure.reader grammar levels)

variable {call : Calls} {grammar : Grammar} {depth levels ahead rank : Nat}

section Expressions

open SyntaxTree (Expr)

theorem matches_expression (serves : Serves call grammar depth levels ahead rank)
    (whole : levels + depth = nestingLimit) (power : BindingPower) :
    Matches grammar depth (ahead + 1) (body call (.expression power))
      (Expression.read grammar levels power) := by
  cases levels with
  | zero => exact Process.matches_nested_of_full _ (by omega)
  | succ levels =>
      apply Matches.nested _ (by omega)
      have onward := (@Expression.consumes_read grammar levels .loosest).onward
      apply (serves.deeper rfl .leading).bind_of_consumes
        (Expression.consumes_announced onward (Expression.consumes_operation onward))
      intro left
      exact (serves.deeper rfl (.climb power left)).of_le (Nat.le_succ ahead)

theorem matches_grouping (serves : Serves call grammar depth levels ahead (rank + 1)) :
    Matches grammar depth (ahead + 1) (Process.grouping call)
      (Expression.grouping (Expression.whole grammar levels)) := by
  apply (matches_read _).bind onward_advance
  intro opening
  apply (serves.lower (.expression .loosest) (Nat.succ_pos rank)).bind
    (Statement.onward_whole levels)
  intro inner
  apply (matches_read _).bind (onward_expect _)
  intro close
  exact matches_pure _

theorem matches_calling (serves : Serves call grammar depth levels ahead rank) :
    Matches grammar depth (ahead + 1) (Process.calling call)
      (Expression.call (Expression.whole grammar levels)) := by
  apply (matches_read _).bind_of_consumes (consumes_expect (by decide))
  intro callee
  apply (serves.later .arguments).bind
    (Reader.consumes_parenthesised (Statement.onward_whole levels)).onward
  rintro ⟨arguments, close⟩
  exact matches_pure _

theorem matches_primary (serves : Serves call grammar depth levels ahead (rank + 2)) :
    Matches grammar depth (ahead + 1) (Process.primary call)
      (Expression.primary (Expression.whole grammar levels)) := by
  apply (matches_read _).bind Reader.onward_current
  intro token
  apply (matches_read _).bind Reader.onward_nextKind
  intro next
  split
  next => exact serves.lower (.expressionForm .call) (Nat.succ_lt_succ (Nat.succ_pos rank))
  next =>
    cases Expression.atom? token with
    | some expression => exact (matches_read _).bind onward_advance fun _ => matches_pure expression
    | none => exact matches_read _

/-- An operand has no operator of its own, so it does not matter how one would be read. -/
theorem run_announced_of_no_operator {inner operation : Reader Expr} {cursor : Cursor}
    (noOperator : UnaryOperator.ofKind? cursor.kind = none) :
    (Expression.announced grammar inner (Expression.unary operation)).run cursor =
      (Expression.announced grammar inner Reader.refuse).run cursor := by
  rw [Expression.announced, Expression.announced, Reader.run_kind_bind, Reader.run_kind_bind]
  split
  next form _ =>
    cases form with
    | unary =>
        rw [Expression.form, Expression.form, Expression.unary, Reader.run_kind_bind, noOperator]
    | primary | grouping | call => rfl
  next => rfl

theorem matches_operand (serves : Serves call grammar depth levels ahead rank) :
    Matches grammar depth ahead (Process.operand call)
      (Expression.operand grammar (Expression.whole grammar levels)) := by
  intro cursor closed within
  rw [Process.operand, Expression.operand, Process.run_read_kind_bind, Reader.run_kind_bind]
  dsimp only
  split
  next => rfl
  next noOperator =>
    rw [serves.later .leading closed within]
    apply congrArg
    exact run_announced_of_no_operator (Option.not_isSome_iff_eq_none.mp noOperator)

theorem matches_unary (serves : Serves call grammar depth levels ahead rank) :
    Matches grammar depth (ahead + 1) (Process.unary call)
      (Expression.unary (Expression.operand grammar (Expression.whole grammar levels))) := by
  intro cursor closed within
  rw [Process.unary, Expression.unary, Process.run_read_kind_bind, Reader.run_kind_bind]
  dsimp only
  cases isOperator : UnaryOperator.ofKind? cursor.kind with
  | none => rfl
  | some operator =>
      apply Process.run_advance_bind_of_ne closed within
        (Expression.kind_ne_eof_of_unaryOperator isOperator)
      intro token
      apply (matches_operand serves).bind
        (Expression.consumes_operand (Statement.onward_whole levels)).onward
      intro expression
      exact matches_pure _

theorem matches_operation (serves : Serves call grammar depth levels ahead rank) (left : Expr)
    (power : BindingPower) :
    Matches grammar depth (ahead + 1) (Process.operation call left power)
      (Expression.binary (Expression.read grammar levels power) left) := by
  intro cursor closed within
  rw [Process.operation, Expression.binary, Process.run_read_kind_bind, Reader.run_kind_bind]
  dsimp only
  cases isOperator : BinaryOperator.ofKind? cursor.kind with
  | none => rfl
  | some operator =>
      apply Process.run_advance_bind_of_ne closed within
        (Expression.kind_ne_eof_of_binaryOperator isOperator)
      intro token
      apply (serves.later (.expression power)).bind (Expression.consumes_read levels power).onward
      intro right
      exact matches_pure _

theorem matches_climb (serves : Serves call grammar depth levels ahead (rank + 1))
    (power : BindingPower) (left : Expr) :
    Matches grammar depth (ahead + 1) (Process.climb call power left)
      (reader grammar levels (.climb power left)) := by
  intro cursor closed within
  have whole : cursor.tokens.length = cursor.following.length + 1 := List.length_cons
  rw [reader, Reader.run_tokens_bind, Cursor.tokens, Expression.climb, Process.climb,
    Process.run_grammar_bind, Process.run_read_kind_bind, Reader.run_kind_bind]
  dsimp only
  cases grammar.binding cursor.kind with
  | none => rfl
  | some next =>
      dsimp only
      split
      next => rfl
      next =>
        have onward (power : BindingPower) : Onward (Expression.read grammar levels power) :=
          (Expression.consumes_read levels power).onward
        have consumes := Expression.consumes_binary (onward next) left
        apply Process.run_bind_of_run
          (serves.lower (.operation left next) (Nat.succ_pos rank) closed within)
        intro wider middle run
        have shorter := consumes.progress closed run
        have closedMiddle := (consumes.onward.reaches run).closed closed
        have goesOn := serves.later (.climb power wider) closedMiddle (by omega)
        rw [reader, Reader.run_tokens_bind, Expression.run_climb_of_enough onward closedMiddle
          (Nat.le_refl _) (show middle.tokens.length <= cursor.following.length by omega)] at goesOn
        exact goesOn

theorem matches_leading (serves : Serves call grammar depth levels ahead (rank + 3)) :
    Matches grammar depth (ahead + 1) (Process.leading call)
      (Expression.leading grammar (Expression.whole grammar levels)) := by
  intro cursor closed within
  rw [Process.leading, Expression.leading, Expression.announced, Process.run_grammar_bind,
    Process.run_read_kind_bind, Reader.run_kind_bind]
  dsimp only
  cases grammar.leading cursor.kind with
  | none => rfl
  | some form =>
      have below : (expressionForm form).rank < rank + 3 := by
        cases form <;> simp only [Procedure.rank] <;> omega
      exact serves.lower (.expressionForm form) below closed within

theorem matches_expressionForm (form : LeadingForm)
    (serves : Serves call grammar depth levels ahead (expressionForm form).rank) :
    Matches grammar depth (ahead + 1) (Process.expressionForm call form)
      (Expression.ofForm grammar levels form) := by
  cases form with
  | primary => exact matches_primary serves
  | unary => exact matches_unary serves
  | grouping => exact matches_grouping serves
  | call => exact matches_calling serves

end Expressions

section Statements

open SyntaxTree (Stmt Block)

theorem matches_initializer (serves : Serves call grammar depth levels ahead (rank + 1))
    (type : Option TypeName) :
    Matches grammar depth (ahead + 1) (Process.initializer call type)
      (Statement.initializer (Expression.whole grammar levels) type) := by
  intro cursor closed within
  rw [Process.initializer, Statement.initializer, Process.run_read_kind_bind, Reader.run_kind_bind]
  dsimp only
  cases cursor.kind with
  | assignment =>
      have matched : Matches grammar depth (ahead + 1)
          (Process.read Reader.advance >>= fun _ => call (.expression .loosest) >>= fun value =>
            pure (some value))
          (Reader.advance >>= fun _ => Expression.whole grammar levels >>= fun value =>
            pure (some value)) := by
        apply (matches_read _).bind onward_advance
        intro _
        apply (serves.lower (.expression .loosest) (Nat.succ_pos rank)).bind
          (Statement.onward_whole levels)
        intro value
        exact matches_pure _
      exact matched closed within
  | _ => cases type <;> rfl

theorem matches_declaration (serves : Serves call grammar depth levels ahead (rank + 1)) :
    Matches grammar depth (ahead + 1) (Process.declaration call)
      (Statement.declaration (Expression.whole grammar levels)) := by
  apply (matches_read _).bind onward_advance
  intro first
  apply (matches_read _).bind (onward_expect _)
  intro name
  apply (matches_initializer serves _).bind
    (Statement.onward_initializer (Statement.onward_whole levels) _)
  intro initial
  apply (matches_read _).bind (onward_expect _)
  intro last
  exact matches_pure _

theorem matches_assignment (serves : Serves call grammar depth levels ahead (rank + 1)) :
    Matches grammar depth (ahead + 1) (Process.assignment call)
      (Statement.assignment (Expression.whole grammar levels)) := by
  apply (matches_read _).bind onward_advance
  intro target
  apply (matches_read _).bind onward_advance
  intro _
  apply (serves.lower (.expression .loosest) (Nat.succ_pos rank)).bind
    (Statement.onward_whole levels)
  intro value
  apply (matches_read _).bind (onward_expect _)
  intro last
  exact matches_pure _

theorem matches_callStatement (serves : Serves call grammar depth levels ahead (rank + 1)) :
    Matches grammar depth (ahead + 1) (Process.callStatement call)
      (Statement.callStatement (Expression.whole grammar levels)) := by
  apply (matches_read _).bind onward_advance
  intro callee
  apply (serves.lower .arguments (Nat.succ_pos rank)).bind
    (Reader.consumes_parenthesised (Statement.onward_whole levels)).onward
  rintro ⟨arguments, close⟩
  apply (matches_read _).bind (onward_expect _)
  intro last
  exact matches_pure _

theorem matches_assignmentOrCall (serves : Serves call grammar depth levels ahead (rank + 1)) :
    Matches grammar depth (ahead + 1) (Process.assignmentOrCall call)
      (Statement.assignmentOrCall (Expression.whole grammar levels)) := by
  apply (matches_read _).bind Reader.onward_nextKind
  intro kind
  cases kind with
  | assignment => exact matches_assignment serves
  | openParen => exact matches_callStatement serves
  | _ => exact (matches_read _).bind onward_advance fun _ => matches_read _

theorem matches_condition (serves : Serves call grammar depth levels ahead (rank + 1)) :
    Matches grammar depth (ahead + 1) (Process.condition call)
      (Statement.condition (Expression.whole grammar levels)) := by
  apply (matches_read _).bind (onward_expect _)
  intro _
  apply (serves.lower (.expression .loosest) (Nat.succ_pos rank)).bind
    (Statement.onward_whole levels)
  intro value
  apply (matches_read _).bind (onward_expect _)
  intro _
  exact matches_pure _

theorem matches_conditional (serves : Serves call grammar depth levels ahead (rank + 1)) :
    Matches grammar depth (ahead + 1) (Process.conditional call)
      (Statement.conditional (Expression.whole grammar levels)
        (Statement.block grammar levels)) := by
  have onward : Onward (Statement.block grammar levels) := (Statement.consumes_block levels).onward
  apply (matches_read _).bind onward_advance
  intro first
  apply (matches_condition serves).bind
    (Statement.consumes_condition (Statement.onward_whole levels)).onward
  intro test
  apply (serves.lower .block (Nat.succ_pos rank)).bind onward
  intro consequent
  apply (matches_read _).bind Reader.onward_kind
  intro kind
  split
  next =>
    apply (matches_read _).bind onward_advance
    intro _
    apply (serves.lower .block (Nat.succ_pos rank)).bind onward
    intro alternative
    exact matches_pure _
  next => exact matches_pure _

theorem matches_loop (serves : Serves call grammar depth levels ahead (rank + 1)) :
    Matches grammar depth (ahead + 1) (Process.loop call)
      (Statement.loop (Expression.whole grammar levels) (Statement.block grammar levels)) := by
  apply (matches_read _).bind onward_advance
  intro first
  apply (matches_condition serves).bind
    (Statement.consumes_condition (Statement.onward_whole levels)).onward
  intro test
  apply (serves.lower .block (Nat.succ_pos rank)).bind (Statement.consumes_block levels).onward
  intro body
  exact matches_pure _

theorem matches_function (serves : Serves call grammar depth levels ahead (rank + 1)) :
    Matches grammar depth (ahead + 1) (Process.function call)
      (Statement.function (Statement.block grammar levels)) := by
  apply (matches_read _).bind onward_advance
  intro first
  apply (matches_read _).bind (onward_expect _)
  intro name
  apply (Process.matches_parenthesised Statement.consumes_parameter.onward
    (serves.later .moreParameters)).bind
      (Reader.consumes_parenthesised Statement.consumes_parameter.onward).onward
  rintro ⟨parameters, close⟩
  apply (serves.lower .block (Nat.succ_pos rank)).bind (Statement.consumes_block levels).onward
  intro body
  exact matches_pure _

theorem matches_optionalValue (serves : Serves call grammar depth levels ahead (rank + 1)) :
    Matches grammar depth (ahead + 1) (Process.optionalValue call)
      (Statement.optionalValue (Expression.whole grammar levels)) := by
  apply (matches_read _).bind Reader.onward_kind
  intro kind
  split
  next => exact matches_pure none
  next =>
    apply (serves.lower (.expression .loosest) (Nat.succ_pos rank)).bind
      (Statement.onward_whole levels)
    intro value
    exact matches_pure _

theorem matches_result (serves : Serves call grammar depth levels ahead (rank + 1)) :
    Matches grammar depth (ahead + 1) (Process.result call)
      (Statement.result (Expression.whole grammar levels)) := by
  apply (matches_read _).bind onward_advance
  intro first
  apply (matches_optionalValue serves).bind
    (Statement.onward_optionalValue (Statement.onward_whole levels))
  intro value
  apply (matches_read _).bind (onward_expect _)
  intro last
  exact matches_pure _

theorem matches_print (serves : Serves call grammar depth levels ahead (rank + 1)) :
    Matches grammar depth (ahead + 1) (Process.print call)
      (Statement.print (Expression.whole grammar levels)) := by
  apply (matches_read _).bind onward_advance
  intro first
  apply (matches_condition serves).bind
    (Statement.consumes_condition (Statement.onward_whole levels)).onward
  intro value
  apply (matches_read _).bind (onward_expect _)
  intro last
  exact matches_pure _

theorem matches_statementForm (form : StatementForm)
    (serves : Serves call grammar depth levels ahead (rank + 1)) :
    Matches grammar depth (ahead + 1) (Process.statementForm call form)
      (Statement.ofForm grammar levels form) := by
  cases form with
  | declaration => exact matches_declaration serves
  | assignmentOrCall => exact matches_assignmentOrCall serves
  | conditional => exact matches_conditional serves
  | loop => exact matches_loop serves
  | function => exact matches_function serves
  | result => exact matches_result serves
  | print => exact matches_print serves

theorem matches_statement (serves : Serves call grammar depth levels ahead (rank + 2)) :
    Matches grammar depth (ahead + 1) (Process.statement call) (Statement.read grammar levels) := by
  intro cursor closed within
  rw [Process.statement, Statement.read, Statement.announced, Process.run_grammar_bind,
    Process.run_read_kind_bind, Reader.run_kind_bind]
  dsimp only
  cases grammar.statement cursor.kind with
  | none => rfl
  | some form =>
      exact serves.lower (.statementForm form) (Nat.succ_lt_succ (Nat.succ_pos rank)) closed within

/-- Where the current token announces a statement, it does not matter what else could. -/
theorem run_announced_eq_read {expected : List Token.Kind} {cursor : Cursor}
    (announces : (grammar.statement cursor.kind).isSome) :
    (Statement.announced grammar expected (Expression.whole grammar levels)
      (Statement.block grammar levels)).run cursor =
        (Statement.read grammar levels).run cursor := by
  rcases Option.isSome_iff_exists.mp announces with ⟨form, announces⟩
  rw [Statement.read, Statement.announced, Statement.announced, Reader.run_kind_bind,
    Reader.run_kind_bind, announces]

theorem matches_topStatement (serves : Serves call grammar depth levels ahead (rank + 3)) :
    Matches grammar depth (ahead + 1) (Process.topStatement call)
      (Statement.atTop grammar levels) := by
  intro cursor closed within
  rw [Process.topStatement, Statement.atTop, Process.run_read_kind_bind, Reader.run_kind_bind]
  dsimp only
  split
  next =>
    exact serves.lower (.statementForm .function) (Nat.succ_lt_succ (Nat.succ_pos _)) closed within
  next =>
    rw [Process.run_grammar_bind]
    dsimp only
    split
    next announces =>
      rw [run_announced_eq_read announces]
      exact serves.lower .statement (by simp only [Procedure.rank]; omega) closed within
    next silent =>
      rw [Statement.announced, Reader.run_kind_bind, Option.not_isSome_iff_eq_none.mp silent]
      rfl

theorem matches_braced {enclosed : Process (List Stmt)} {body : Reader (List Stmt)}
    (first : Matches grammar depth ahead enclosed body) (onward : body.Onward) :
    Matches grammar depth (ahead + 1) (Process.braced enclosed) (Statement.braced body) := by
  apply (matches_read _).bind_of_consumes (consumes_expect (by decide))
  intro opening
  apply first.bind onward
  intro enclosed
  apply (matches_read _).bind (onward_expect _)
  intro close
  exact matches_pure _

theorem matches_block (serves : Serves call grammar depth levels ahead rank)
    (whole : levels + depth = nestingLimit) :
    Matches grammar depth (ahead + 1)
      (Process.braced (Process.nested (call .moreStatements)))
      (Statement.block grammar levels) := by
  cases levels with
  | zero =>
      exact matches_braced (Process.matches_nested_of_full _ (by omega))
        (Reader.consumes_fail _ _).onward
  | succ levels =>
      have inside := (serves.deeper rfl .moreStatements).of_le (Nat.le_succ ahead)
      apply matches_braced (inside.nested (by omega))
      exact Statement.onward_statements
        (Statement.consumes_inBlock (Statement.onward_whole levels)
          (Statement.consumes_block levels).onward).onward

theorem matches_inBlock (serves : Serves call grammar depth levels ahead (rank + 3)) :
    Matches grammar depth (ahead + 1) (Process.inBlock call)
      (Statement.inBlock grammar (Expression.whole grammar levels)
        (Statement.block grammar levels)) := by
  intro cursor closed within
  rw [Process.inBlock, Statement.inBlock, Process.run_read_kind_bind, Reader.run_kind_bind]
  dsimp only
  split
  next => rfl
  next =>
    rw [Process.run_grammar_bind]
    dsimp only
    split
    next announces =>
      rw [run_announced_eq_read announces]
      exact serves.lower .statement (by simp only [Procedure.rank]; omega) closed within
    next silent =>
      rw [Statement.announced, Reader.run_kind_bind, Option.not_isSome_iff_eq_none.mp silent]
      rfl

end Statements

end Procedure

end Reading
end ToyFrontend
