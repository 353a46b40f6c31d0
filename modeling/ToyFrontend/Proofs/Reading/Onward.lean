import ToyFrontend.Proofs.Reading.Statement

namespace ToyFrontend
namespace Reading

/-!
# Readers go forward

Whatever grammar a reader is given, and whether it succeeds or fails, it leaves
the cursor where it was or further ahead, with no end marker between.  And a form
that is read with success has taken at least one token: some token of it is asked
for by its kind, or looked at before it is passed, and an end marker never is.

`Reader.Onward` is the first of these properties and `Reader.Consumes` both.
Nothing here depends on what a token announces, so a grammar may assign any form
to any token, the end marker included.
-/

open SyntaxTree (Expr Stmt Block BindingPower BinaryOperator UnaryOperator TypeName)

namespace Cursor

/-- The second cursor is at the first one or ahead of it, before or at the first end
marker there. -/
def Reaches (start stop : Cursor) : Prop :=
  Exists fun passed => start.Passes passed stop

theorem Reaches.refl (cursor : Cursor) : cursor.Reaches cursor :=
  ⟨[], .refl cursor⟩

theorem Reaches.trans {start middle stop : Cursor} (first : start.Reaches middle)
    (second : middle.Reaches stop) : start.Reaches stop := by
  rcases first with ⟨before, passesFirst⟩
  rcases second with ⟨behind, passesSecond⟩
  exact ⟨before ++ behind, passesFirst.trans passesSecond⟩

theorem Reaches.closed {start stop : Cursor} (reaches : start.Reaches stop)
    (closed : start.Closed) : stop.Closed := by
  rcases reaches with ⟨passed, passes⟩
  exact passes.closed closed

theorem Reaches.length_le {start stop : Cursor} (reaches : start.Reaches stop) :
    stop.tokens.length <= start.tokens.length := by
  rcases reaches with ⟨passed, passes⟩
  exact passes.length_le

/-- The cursor stays at an end marker, and where nothing follows. -/
theorem reaches_advance (cursor : Cursor) : cursor.Reaches cursor.advance := by
  unfold advance
  split
  next => exact .refl cursor
  next notMarker =>
    split
    next next rest follows =>
      refine ⟨[cursor.current], ?_, ?_⟩
      · rw [tokens, follows]
        rfl
      · intro token only
        rw [List.mem_singleton.mp only]
        exact notMarker
    next => exact .refl cursor

end Cursor

namespace Reader

variable {Result Next : Type}

/-- Where a run leaves the cursor, with a result or with an error. -/
def stop (reader : Reader Result) (start : Cursor) : Cursor :=
  match reader.run start with
  | .ok _ stop => stop
  | .error _ stop => stop

theorem stop_of_run {reader : Reader Result} {start stop : Cursor} {value : Result}
    (run : reader.run start = .ok value stop) : reader.stop start = stop := by
  rw [Reader.stop, run]

/-- A reader never goes back. -/
def Onward (reader : Reader Result) : Prop :=
  forall start : Cursor, start.Reaches (reader.stop start)

/-- A reader never goes back, and with a result it has gone on. -/
structure Consumes (reader : Reader Result) : Prop where
  onward : Onward reader
  progress : forall {start stop : Cursor} {value : Result}, start.Closed ->
    reader.run start = .ok value stop -> stop.tokens.length < start.tokens.length

theorem Onward.reaches {reader : Reader Result} (onward : Onward reader) {start stop : Cursor}
    {value : Result} (run : reader.run start = .ok value stop) : start.Reaches stop :=
  stop_of_run run ▸ onward start

/-! ## Sequences -/

theorem Onward.bind {reader : Reader Result} {continuation : Result -> Reader Next}
    (onward : Onward reader) (continued : forall value, Onward (continuation value)) :
    Onward (reader >>= continuation) := by
  intro start
  have first := onward start
  unfold stop at first ⊢
  rw [EStateM.run_bind]
  cases run : reader.run start with
  | ok value middle =>
      rw [run] at first
      exact first.trans (continued value middle)
  | error error middle =>
      rw [run] at first
      exact first

/-- The first part goes on. -/
theorem Consumes.bind {reader : Reader Result} {continuation : Result -> Reader Next}
    (consumes : Consumes reader) (continued : forall value, Onward (continuation value)) :
    Consumes (reader >>= continuation) where
  onward := consumes.onward.bind continued
  progress := by
    intro start stop value closed run
    rcases run_bind_eq_ok_iff.mp run with ⟨result, middle, first, second⟩
    have before := consumes.progress closed first
    have behind := ((continued result).reaches second).length_le
    omega

/-- The second part goes on. -/
theorem Onward.consumes_bind {reader : Reader Result} {continuation : Result -> Reader Next}
    (onward : Onward reader) (continued : forall value, Consumes (continuation value)) :
    Consumes (reader >>= continuation) where
  onward := onward.bind fun value => (continued value).onward
  progress := by
    intro start stop value closed run
    rcases run_bind_eq_ok_iff.mp run with ⟨result, middle, first, second⟩
    have reaches := onward.reaches first
    have before := reaches.length_le
    have behind := (continued result).progress (reaches.closed closed) second
    omega

theorem onward_pure (value : Result) : Onward (pure value : Reader Result) :=
  fun start => .refl start

theorem onward_kind : Onward kind :=
  fun start => .refl start

theorem onward_nextKind : Onward nextKind :=
  fun start => .refl start

theorem onward_current : Onward current :=
  fun start => .refl start

theorem onward_tokens : Onward tokens :=
  fun start => .refl start

theorem onward_advance : Onward advance :=
  fun start => start.reaches_advance

theorem consumes_fail (cause : SyntaxError.Cause) (expected : List Token.Kind) :
    Consumes (fail cause expected : Reader Result) where
  onward start := .refl start
  progress := by
    intro start stop value closed run
    cases run

theorem consumes_refuse : Consumes (refuse : Reader Result) where
  onward start := start.reaches_advance
  progress := by
    intro start stop value closed run
    cases run

theorem onward_expect (expected : Token.Kind) : Onward (expect expected) := by
  apply onward_kind.bind
  intro kind
  split
  next => exact onward_advance
  next => exact (consumes_fail _ _).onward

theorem consumes_expect {expected : Token.Kind} (proper : expected ≠ .eof) :
    Consumes (expect expected) where
  onward := onward_expect expected
  progress := by
    intro start stop value closed run
    exact (passes_of_expect closed proper run).1.length_lt (List.cons_ne_nil _ _)

/-- A token that is looked at and is no end marker is passed. -/
theorem progress_of_advance {continuation : Token -> Reader Next} {start stop : Cursor}
    {value : Next} (continued : forall token, Onward (continuation token))
    (closed : start.Closed) (notMarker : start.kind ≠ .eof)
    (run : (advance >>= continuation).run start = .ok value stop) :
    stop.tokens.length < start.tokens.length := by
  rw [run_advance_bind] at run
  have first := (closed.passes_advance notMarker).length_lt (List.cons_ne_nil _ _)
  have behind := ((continued _).reaches run).length_le
  omega

/-! ## Loops -/

/-- Behind an item there are a comma and other items, or there is nothing more. -/
theorem onward_behindItem {others : Reader (List Result)} (onward : Onward others)
    (first : Result) :
    Onward (do
      match ← kind with
      | .comma =>
          let _ ← advance
          let rest ← others
          return first :: rest
      | .closeParen => return [first]
      | _ => fail .unexpectedToken [.comma, .closeParen]) := by
  apply onward_kind.bind
  intro kind
  split
  next =>
    apply onward_advance.bind
    intro _
    exact onward.bind fun rest => onward_pure _
  next => exact onward_pure _
  next => exact (consumes_fail _ _).onward

theorem onward_commaSeparated {item : Reader Result} (onward : Onward item)
    (rounds : List Token) : Onward (commaSeparated item rounds) := by
  induction rounds with
  | nil => exact onward_pure []
  | cons round rounds inductionHypothesis =>
      exact onward.bind (onward_behindItem inductionHypothesis)

/-- There is a round, so an item is read. -/
theorem consumes_commaSeparated {item : Reader Result} (consumes : Consumes item) :
    Consumes (do commaSeparated item (← tokens)) where
  onward := onward_tokens.bind fun rounds => onward_commaSeparated consumes.onward rounds
  progress := by
    intro start stop value closed run
    rw [run_tokens_bind, Cursor.tokens, commaSeparated] at run
    have others := onward_commaSeparated consumes.onward start.following
    exact (consumes.bind (onward_behindItem others)).progress closed run

theorem onward_items {item : Reader Result} (onward : Onward item) : Onward (items item) := by
  apply onward_kind.bind
  intro kind
  split
  next => exact onward_pure []
  next => exact onward_tokens.bind fun rounds => onward_commaSeparated onward rounds

theorem consumes_parenthesised {item : Reader Result} (onward : Onward item) :
    Consumes (parenthesised item) := by
  apply (consumes_expect (by decide)).bind
  intro opening
  apply (onward_items onward).bind
  intro read
  exact (onward_expect _).bind fun close => onward_pure _

theorem onward_untilKind {item : Reader Result} (onward : Onward item) (last : Token.Kind)
    (rounds : List Token) : Onward (untilKind last item rounds) := by
  induction rounds with
  | nil => exact onward_pure []
  | cons round rounds inductionHypothesis =>
      apply onward_kind.bind
      intro kind
      split
      next => exact onward_pure []
      next =>
        apply onward.bind
        intro first
        exact inductionHypothesis.bind fun rest => onward_pure _

end Reader

/-! ## Expressions -/

namespace Expression

open Reader

variable {grammar : Grammar} {inner : Reader Expr}

theorem consumes_call (onward : Onward inner) : Consumes (call inner) := by
  apply (consumes_expect (by decide)).bind
  intro callee
  exact (consumes_parenthesised onward).onward.bind fun _ => onward_pure _

theorem consumes_primary (onward : Onward inner) : Consumes (primary inner) where
  onward := by
    apply onward_current.bind
    intro token
    apply onward_nextKind.bind
    intro next
    split
    next => exact (consumes_call onward).onward
    next =>
      split
      next => exact onward_advance.bind fun _ => onward_pure _
      next => exact (consumes_fail _ _).onward
  progress := by
    intro start stop expression closed run
    rw [primary, run_current_bind, run_nextKind_bind] at run
    split at run
    next => exact (consumes_call onward).progress closed run
    next =>
      split at run
      next isAtom =>
        have notMarker := kind_ne_eof_of_leading (leading_of_atom (atom?_eq_some_iff.mp isAtom))
        exact progress_of_advance (fun _ => onward_pure _) closed notMarker run
      next => cases run

theorem consumes_grouping (onward : Onward inner) : Consumes (grouping inner) := by
  apply onward_advance.consumes_bind
  intro opening
  apply onward.consumes_bind
  intro expression
  exact (consumes_expect (by decide)).bind fun close => onward_pure _

theorem consumes_unary (onward : Onward inner) : Consumes (unary inner) where
  onward := by
    apply onward_kind.bind
    intro kind
    split
    next => exact consumes_refuse.onward
    next =>
      apply onward_advance.bind
      intro token
      exact onward.bind fun expression => onward_pure _
  progress := by
    intro start stop expression closed run
    rw [unary, run_kind_bind] at run
    split at run
    next => cases run
    next operator isOperator =>
      exact progress_of_advance (fun _ => onward.bind fun _ => onward_pure _) closed
        (kind_ne_eof_of_unaryOperator isOperator) run

theorem consumes_binary (onward : Onward inner) (left : Expr) : Consumes (binary inner left) where
  onward := by
    apply onward_kind.bind
    intro kind
    split
    next => exact consumes_refuse.onward
    next =>
      apply onward_advance.bind
      intro token
      exact onward.bind fun expression => onward_pure _
  progress := by
    intro start stop expression closed run
    rw [binary, run_kind_bind] at run
    split at run
    next => cases run
    next operator isOperator =>
      exact progress_of_advance (fun _ => onward.bind fun _ => onward_pure _) closed
        (kind_ne_eof_of_binaryOperator isOperator) run

theorem consumes_form {operation : Reader Expr} (onward : Onward inner)
    (consumes : Consumes operation) (leading : LeadingForm) :
    Consumes (form inner operation leading) := by
  cases leading with
  | primary => exact consumes_primary onward
  | unary => exact consumes
  | grouping => exact consumes_grouping onward
  | call => exact consumes_call onward

theorem consumes_announced {operation : Reader Expr} (onward : Onward inner)
    (consumes : Consumes operation) : Consumes (announced grammar inner operation) := by
  apply onward_kind.consumes_bind
  intro kind
  split
  next leading _ => exact consumes_form onward consumes leading
  next => exact consumes_fail _ _

theorem consumes_operand (onward : Onward inner) : Consumes (operand grammar inner) := by
  apply onward_kind.consumes_bind
  intro kind
  split
  next => exact consumes_fail _ _
  next => exact consumes_announced onward consumes_refuse

theorem consumes_operation (onward : Onward inner) :
    Consumes (unary (operand grammar inner)) :=
  consumes_unary (consumes_operand onward).onward

theorem onward_climb {right : BindingPower -> Reader Expr}
    (onward : forall power, Onward (right power)) (power : BindingPower) (rounds : List Token)
    (left : Expr) : Onward (climb grammar right power rounds left) := by
  induction rounds generalizing left with
  | nil => exact onward_pure left
  | cons round rounds inductionHypothesis =>
      apply onward_kind.bind
      intro kind
      split
      next => exact onward_pure left
      next next _ =>
        split
        next => exact onward_pure left
        next => exact (consumes_binary (onward next) left).onward.bind inductionHypothesis

theorem consumes_read (levels : Nat) (power : BindingPower) :
    Consumes (read grammar levels power) := by
  induction levels generalizing power with
  | zero => exact consumes_fail _ _
  | succ levels inductionHypothesis =>
      have inner := (inductionHypothesis .loosest).onward
      apply (consumes_announced inner (consumes_operation inner)).bind
      intro left
      apply onward_tokens.bind
      intro rounds
      exact onward_climb (fun power => (inductionHypothesis power).onward) power rounds left

theorem consumes_ofForm (levels : Nat) (leading : LeadingForm) :
    Consumes (ofForm grammar levels leading) := by
  have inner : Onward (whole grammar levels) := (consumes_read levels .loosest).onward
  exact consumes_form inner (consumes_operation inner) leading

end Expression

/-! ## Statements -/

namespace Statement

open Reader

variable {grammar : Grammar} {expression : Reader Expr} {block : Reader Block}

theorem consumes_typeName : Consumes typeName where
  onward := by
    apply onward_kind.bind
    intro kind
    split
    next => exact onward_advance.bind fun _ => onward_pure _
    next => exact (consumes_fail _ _).onward
  progress := by
    intro start stop type closed run
    exact (passes_of_typeName closed run).1.length_lt (List.cons_ne_nil _ _)

theorem consumes_parameter : Consumes parameter := by
  apply onward_current.consumes_bind
  intro first
  apply consumes_typeName.bind
  intro type
  exact (onward_expect _).bind fun name => onward_pure _

theorem onward_initializer (onward : Onward expression) (type : Option TypeName) :
    Onward (initializer expression type) := by
  apply onward_kind.bind
  intro kind
  split
  next =>
    apply onward_advance.bind
    intro _
    exact onward.bind fun value => onward_pure _
  next =>
    split
    next => exact onward_pure none
    next => exact (consumes_fail _ _).onward
  next =>
    split
    next => exact (consumes_fail _ _).onward
    next => exact (consumes_fail _ _).onward

theorem consumes_declaration (onward : Onward expression) :
    Consumes (declaration expression) := by
  apply onward_advance.consumes_bind
  intro first
  apply (consumes_expect (by decide)).bind
  intro name
  apply (onward_initializer onward _).bind
  intro initial
  exact (onward_expect _).bind fun last => onward_pure _

theorem consumes_assignment (onward : Onward expression) : Consumes (assignment expression) := by
  apply onward_advance.consumes_bind
  intro target
  apply onward_advance.consumes_bind
  intro _
  apply onward.consumes_bind
  intro value
  exact (consumes_expect (by decide)).bind fun last => onward_pure _

theorem consumes_callStatement (onward : Onward expression) :
    Consumes (callStatement expression) := by
  apply onward_advance.consumes_bind
  intro callee
  apply (consumes_parenthesised onward).bind
  rintro ⟨arguments, close⟩
  exact (onward_expect _).bind fun last => onward_pure _

theorem consumes_assignmentOrCall (onward : Onward expression) :
    Consumes (assignmentOrCall expression) := by
  apply onward_nextKind.consumes_bind
  intro kind
  split
  next => exact consumes_assignment onward
  next => exact consumes_callStatement onward
  next => exact onward_advance.consumes_bind fun _ => consumes_fail _ _

theorem consumes_condition (onward : Onward expression) : Consumes (condition expression) := by
  apply (consumes_expect (by decide)).bind
  intro _
  apply onward.bind
  intro value
  exact (onward_expect _).bind fun _ => onward_pure _

theorem consumes_conditional (onward : Onward expression) (onwardBlock : Onward block) :
    Consumes (conditional expression block) := by
  apply onward_advance.consumes_bind
  intro first
  apply (consumes_condition onward).bind
  intro test
  apply onwardBlock.bind
  intro consequent
  apply onward_kind.bind
  intro kind
  split
  next =>
    apply onward_advance.bind
    intro _
    exact onwardBlock.bind fun alternative => onward_pure _
  next => exact onward_pure _

theorem consumes_loop (onward : Onward expression) (onwardBlock : Onward block) :
    Consumes (loop expression block) := by
  apply onward_advance.consumes_bind
  intro first
  apply (consumes_condition onward).bind
  intro test
  exact onwardBlock.bind fun body => onward_pure _

theorem consumes_function (onwardBlock : Onward block) : Consumes (function block) := by
  apply onward_advance.consumes_bind
  intro first
  apply (consumes_expect (by decide)).bind
  intro name
  apply (consumes_parenthesised consumes_parameter.onward).onward.bind
  rintro ⟨parameters, close⟩
  exact onwardBlock.bind fun body => onward_pure _

theorem onward_optionalValue (onward : Onward expression) : Onward (optionalValue expression) := by
  apply onward_kind.bind
  intro kind
  split
  next => exact onward_pure none
  next => exact onward.bind fun value => onward_pure _

theorem consumes_result (onward : Onward expression) : Consumes (result expression) := by
  apply onward_advance.consumes_bind
  intro first
  apply (onward_optionalValue onward).consumes_bind
  intro value
  exact (consumes_expect (by decide)).bind fun last => onward_pure _

theorem consumes_print (onward : Onward expression) : Consumes (print expression) := by
  apply onward_advance.consumes_bind
  intro first
  apply (consumes_condition onward).bind
  intro value
  exact (onward_expect _).bind fun last => onward_pure _

theorem consumes_form (onward : Onward expression) (onwardBlock : Onward block)
    (statement : StatementForm) : Consumes (form expression block statement) := by
  cases statement with
  | declaration => exact consumes_declaration onward
  | assignmentOrCall => exact consumes_assignmentOrCall onward
  | conditional => exact consumes_conditional onward onwardBlock
  | loop => exact consumes_loop onward onwardBlock
  | function => exact consumes_function onwardBlock
  | result => exact consumes_result onward
  | print => exact consumes_print onward

theorem consumes_announced (expected : List Token.Kind) (onward : Onward expression)
    (onwardBlock : Onward block) :
    Consumes (announced grammar expected expression block) := by
  apply onward_kind.consumes_bind
  intro kind
  split
  next statement _ => exact consumes_form onward onwardBlock statement
  next => exact consumes_fail _ _

theorem consumes_inBlock (onward : Onward expression) (onwardBlock : Onward block) :
    Consumes (inBlock grammar expression block) := by
  apply onward_kind.consumes_bind
  intro kind
  split
  next => exact consumes_fail _ _
  next => exact consumes_announced _ onward onwardBlock

theorem consumes_braced {body : Reader (List Stmt)} (onward : Onward body) :
    Consumes (braced body) := by
  apply (consumes_expect (by decide)).bind
  intro opening
  apply onward.bind
  intro enclosed
  exact (onward_expect _).bind fun close => onward_pure _

theorem onward_whole (levels : Nat) : Onward (Expression.whole grammar levels) :=
  (Expression.consumes_read levels .loosest).onward

theorem onward_statements {statement : Reader Stmt} (onward : Onward statement) :
    Onward (statements statement) :=
  onward_tokens.bind fun rounds => onward_untilKind onward _ rounds

theorem consumes_block (levels : Nat) : Consumes (Statement.block grammar levels) := by
  induction levels with
  | zero => exact consumes_braced (consumes_fail _ _).onward
  | succ levels inductionHypothesis =>
      apply consumes_braced
      exact onward_statements
        (consumes_inBlock (onward_whole levels) inductionHypothesis.onward).onward

theorem consumes_ofForm (levels : Nat) (statement : StatementForm) :
    Consumes (ofForm grammar levels statement) :=
  consumes_form (onward_whole levels) (consumes_block levels).onward statement

theorem consumes_read (levels : Nat) : Consumes (read grammar levels) :=
  consumes_announced _ (onward_whole levels) (consumes_block levels).onward

theorem consumes_atTop (levels : Nat) : Consumes (atTop grammar levels) := by
  apply onward_kind.consumes_bind
  intro kind
  split
  next => exact consumes_function (consumes_block levels).onward
  next => exact consumes_announced _ (onward_whole levels) (consumes_block levels).onward

end Statement

end Reading
end ToyFrontend
