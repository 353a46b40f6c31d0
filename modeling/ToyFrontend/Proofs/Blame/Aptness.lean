import ToyFrontend.Proofs.Blame.Program
import ToyFrontend.Proofs.Reading.Onward
import ToyFrontend.Proofs.Scan.Longest

namespace ToyFrontend

/-!
# Every syntax error has something to say

An error names the kinds that could stand in place of the token at fault.  It never
names the kind that stands there, and it names none only where the nesting is too
deep; so there is always some advice to give.

Three readers have a last resort besides.  A primary expression, an operation before
an operand and an operation between two operands are read where the grammar announces
them; given any other token they refuse it with an error that helps nobody.  These
errors do occur for lists of tokens that no scanner has made, and for other grammars.
They do not occur for documents: the kinds that the grammar announces are those that
the readers know, and a literal that was scanned has its value.  The second fact is an
invariant of the cursor, `Cursor.Genuine`, since it is about each token ahead.

What a reader says is stated twice below.  `Reader.AptAt` is about one cursor, for
the readers that rely on having been announced by its token; `Reader.Advises` is about
every genuine cursor, and sequences and loops inherit it from their parts.
-/

open SyntaxTree (Expr Stmt Block BindingPower BinaryOperator UnaryOperator TypeName)
open Reading (Cursor Reader Grammar)

/-! ## Errors -/

namespace SyntaxError

/-- The error of a last resort: a reader was given a token that begins nothing which it
reads. -/
inductive IsFallback (error : SyntaxError) : Prop
  | primary {argument : Reader Expr} {cursor stop : Cursor}
      (noAtom : Reading.Expression.atom? cursor.current = none)
      (run : (Reading.Expression.primary argument).run cursor = .error error stop)
  | unary {operand : Reader Expr} {cursor stop : Cursor}
      (noOperator : UnaryOperator.ofKind? cursor.kind = none)
      (run : (Reading.Expression.unary operand).run cursor = .error error stop)
  | binary {right : Reader Expr} {left : Expr} {cursor stop : Cursor}
      (noOperator : BinaryOperator.ofKind? cursor.kind = none)
      (run : (Reading.Expression.binary right left).run cursor = .error error stop)

/-- What is expected is not what was found, and something is expected unless the nesting
is too deep.  Only a last resort would blame a token for not beginning a primary
expression. -/
structure Apt (error : SyntaxError) : Prop where
  apart : error.found ∉ error.expected
  lists : error.expected = [] ↔ error.cause = .nestingTooDeep
  settled : error.cause = .unexpectedToken -> error.expected ≠ Token.Kind.primaryStart

theorem Apt.exists_tip {error : SyntaxError} (apt : error.Apt) :
    Exists fun tip => error.tip? = some tip := by
  apply Option.isSome_iff_exists.mp
  have lists := apt.lists
  unfold tip? expectationTip?
  cases cause : error.cause with
  | bareIdentifier => rfl
  | missingInitializer => rfl
  | nestingTooDeep => rfl
  | _ =>
      have nonempty : error.expected.isEmpty = false := by
        rw [List.isEmpty_eq_false_iff, Ne, lists, cause]
        decide
      simp only [nonempty]
      split
      · rfl
      · split <;> rfl

/-- The error of a last resort lists nothing, or what begins a primary expression. -/
theorem IsFallback.not_apt {error : SyntaxError} (isFallback : error.IsFallback) :
    ¬ error.Apt := by
  intro apt
  cases isFallback with
  | @primary argument cursor stop noAtom run =>
      have notNamed : cursor.current.kind ≠ .identifier := by
        intro named
        rw [Reading.Expression.atom?, named] at noAtom
        cases noAtom
      rw [Reading.Expression.primary, Reader.run_current_bind, Reader.run_nextKind_bind,
        decide_eq_false notNamed, Bool.false_and, if_neg (by decide), noAtom] at run
      cases run
      exact apt.settled rfl rfl
  | unary noOperator run =>
      rw [Reading.Expression.unary, Reader.run_kind_bind, noOperator] at run
      cases run
      cases apt.lists.mp rfl
  | binary noOperator run =>
      rw [Reading.Expression.binary, Reader.run_kind_bind, noOperator] at run
      cases run
      cases apt.lists.mp rfl

end SyntaxError

namespace Reading

/-! ## Cursors -/

/-- The tokens ahead are such as a scan leaves: one of them is an end marker, and every
literal has its value. -/
structure Cursor.Genuine (cursor : Cursor) : Prop where
  closed : cursor.Closed
  coherent : forall token, token ∈ cursor.tokens -> token.Coherent

theorem Cursor.Reaches.genuine {start stop : Cursor} (reaches : start.Reaches stop)
    (genuine : start.Genuine) : stop.Genuine where
  closed := reaches.closed genuine.closed
  coherent token member := by
    rcases reaches with ⟨passed, passes⟩
    apply genuine.coherent
    rw [passes.tokens_eq]
    exact List.mem_append_right _ member

namespace Reader

variable {Result Next : Type}

/-! ## Contracts -/

/-- Every error of the reader at this cursor is apt. -/
def AptAt (start : Cursor) (reader : Reader Result) : Prop :=
  forall ⦃error : SyntaxError⦄ ⦃stop : Cursor⦄, reader.run start = .error error stop -> error.Apt

/-- A reader that goes forward, and whose errors at genuine cursors are apt. -/
structure Advises (reader : Reader Result) : Prop where
  onward : Onward reader
  apt : forall ⦃start : Cursor⦄, start.Genuine -> AptAt start reader

theorem aptAt_fail {start : Cursor} {cause : SyntaxError.Cause} {expected : List Token.Kind}
    (apart : start.kind ∉ expected) (lists : expected = [] ↔ cause = .nestingTooDeep)
    (settled : cause = .unexpectedToken -> expected ≠ Token.Kind.primaryStart) :
    AptAt start (fail cause expected : Reader Result) := by
  intro error stop run
  cases run
  exact ⟨apart, lists, settled⟩

theorem advises_nestingTooDeep : Advises (fail .nestingTooDeep [] : Reader Result) where
  onward := (consumes_fail _ _).onward
  apt _ _ := aptAt_fail List.not_mem_nil (by decide) (by decide)

/-- The second part runs at a cursor that the first part has reached. -/
theorem AptAt.bind {start : Cursor} {reader : Reader Result}
    {continuation : Result -> Reader Next} (first : AptAt start reader) (onward : Onward reader)
    (genuine : start.Genuine) (second : forall value, Advises (continuation value)) :
    AptAt start (reader >>= continuation) := by
  intro error stop run
  rcases run_bind_eq_error_iff.mp run with early | ⟨value, middle, passed, late⟩
  · exact first early
  · exact (second value).apt ((onward.reaches passed).genuine genuine) late

theorem Advises.bind {reader : Reader Result} {continuation : Result -> Reader Next}
    (first : Advises reader) (second : forall value, Advises (continuation value)) :
    Advises (reader >>= continuation) where
  onward := first.onward.bind fun value => (second value).onward
  apt _ genuine := (first.apt genuine).bind first.onward genuine second

theorem advises_of_no_error {reader : Reader Result} (onward : Onward reader)
    (succeeds : forall start error stop, reader.run start ≠ .error error stop) :
    Advises reader where
  onward := onward
  apt start _ error stop run := absurd run (succeeds start error stop)

theorem advises_pure (value : Result) : Advises (pure value : Reader Result) :=
  advises_of_no_error (onward_pure value) (by rintro start error stop ⟨⟩)

theorem advises_advance : Advises advance :=
  advises_of_no_error onward_advance (by rintro start error stop ⟨⟩)

theorem advises_current : Advises current :=
  advises_of_no_error onward_current (by rintro start error stop ⟨⟩)

theorem advises_tokens : Advises tokens :=
  advises_of_no_error onward_tokens (by rintro start error stop ⟨⟩)

/-- A reader that looks at the kind of the current token: what it goes on with has to be
apt for this kind only. -/
theorem advises_kind_bind {continuation : Token.Kind -> Reader Next}
    (onward : Onward (kind >>= continuation))
    (apt : forall ⦃start : Cursor⦄, start.Genuine -> AptAt start (continuation start.kind)) :
    Advises (kind >>= continuation) where
  onward := onward
  apt := by
    intro start genuine error stop run
    rw [run_kind_bind] at run
    exact apt genuine run

theorem advises_expect (expected : Token.Kind) : Advises (expect expected) := by
  apply advises_kind_bind (onward_expect expected)
  intro start genuine
  split
  next => exact advises_advance.apt genuine
  next different =>
    exact aptAt_fail (by simpa using different) (by simp) (by simp [Token.Kind.primaryStart])

/-! ## Loops -/

theorem advises_commaSeparated {item : Reader Result} (advises : Advises item)
    (rounds : List Token) : Advises (commaSeparated item rounds) := by
  induction rounds with
  | nil => exact advises_pure []
  | cons round rounds inductionHypothesis =>
      apply advises.bind
      intro first
      apply advises_kind_bind (onward_behindItem inductionHypothesis.onward first)
      intro start genuine
      split
      next =>
        have others := inductionHypothesis.bind fun rest => advises_pure (first :: rest)
        exact (advises_advance.bind fun _ => others).apt genuine
      next => exact (advises_pure [first]).apt genuine
      next notComma notClose =>
        refine aptAt_fail ?_ (by decide) (by decide)
        simpa using And.intro notComma notClose

theorem advises_items {item : Reader Result} (advises : Advises item) : Advises (items item) := by
  apply advises_kind_bind (onward_items advises.onward)
  intro start genuine
  split
  next => exact (advises_pure []).apt genuine
  next => exact (advises_tokens.bind (advises_commaSeparated advises)).apt genuine

theorem advises_parenthesised {item : Reader Result} (advises : Advises item) :
    Advises (parenthesised item) := by
  apply (advises_expect _).bind
  intro opening
  apply (advises_items advises).bind
  intro read
  exact (advises_expect _).bind fun close => advises_pure _

/-- No item is read at a token that ends the loop. -/
theorem advises_untilKind {item : Reader Result} {last : Token.Kind} (onward : Onward item)
    (apt : forall ⦃start : Cursor⦄, start.Genuine -> start.kind ≠ last -> AptAt start item)
    (rounds : List Token) : Advises (untilKind last item rounds) := by
  induction rounds with
  | nil => exact advises_pure []
  | cons round rounds inductionHypothesis =>
      apply advises_kind_bind (onward_untilKind onward last (round :: rounds))
      intro start genuine
      split
      next => exact (advises_pure []).apt genuine
      next more =>
        refine (apt genuine more).bind onward genuine fun first => ?_
        exact inductionHypothesis.bind fun rest => advises_pure (first :: rest)

end Reader

/-! ## Expressions -/

namespace Expression

open Reader

theorem exists_atom_of_leading {token : Token} (coherent : token.Coherent)
    (announces : Grammar.standard.leading token.kind = some .primary) :
    Exists fun expression => atom? token = some expression := by
  rcases token with ⟨kind, text, value, span⟩
  -- A literal of the kind has a value of the kind, and a name needs none.
  cases kind with
  | intLiteral | stringLiteral | boolLiteral =>
      rcases coherent rfl with ⟨literal, rfl, isKind⟩
      cases literal <;> cases isKind
      exact ⟨_, rfl⟩
  | identifier => exact ⟨_, rfl⟩
  | _ => cases announces

theorem not_mem_expressionStart {kind : Token.Kind}
    (unannounced : Grammar.standard.leading kind = none) : kind ∉ Token.Kind.expressionStart := by
  cases kind <;> first | decide | cases unannounced

theorem not_mem_primaryStart {kind : Token.Kind}
    (isOperator : (UnaryOperator.ofKind? kind).isSome) : kind ∉ Token.Kind.primaryStart := by
  have operators : forall operator, operator ∈ [Token.Kind.dash, .not] ->
      operator ∉ Token.Kind.primaryStart := by
    decide
  exact operators kind (mem_of_unaryOperator isOperator)

variable {inner : Reader Expr}

theorem advises_call (advises : Advises inner) : Advises (call inner) := by
  apply (advises_expect _).bind
  intro callee
  exact (advises_parenthesised advises).bind fun _ => advises_pure _

theorem aptAt_primary {start : Cursor} (advises : Advises inner) (genuine : start.Genuine)
    (announces : Grammar.standard.leading start.kind = some .primary) :
    AptAt start (primary inner) := by
  intro error stop run
  rw [primary, run_current_bind, run_nextKind_bind] at run
  split at run
  next => exact (advises_call advises).apt genuine run
  next =>
    have coherent := genuine.coherent start.current List.mem_cons_self
    rcases exists_atom_of_leading coherent announces with ⟨atom, isAtom⟩
    rw [isAtom] at run
    cases run

theorem advises_grouping (advises : Advises inner) : Advises (grouping inner) := by
  apply advises_advance.bind
  intro opening
  apply advises.bind
  intro expression
  exact (advises_expect _).bind fun close => advises_pure _

theorem aptAt_unary {start : Cursor} (advises : Advises inner) (genuine : start.Genuine)
    (announces : Grammar.standard.leading start.kind = some .unary) :
    AptAt start (unary inner) := by
  intro error stop run
  rcases Option.isSome_iff_exists.mp (isSome_of_leading_unary announces) with
    ⟨operator, isOperator⟩
  rw [unary, run_kind_bind, isOperator] at run
  have operation := advises_advance.bind fun token => advises.bind fun expression =>
    advises_pure (Expr.unary operator expression (token.span.through expression.span))
  exact operation.apt genuine run

theorem aptAt_binary {start : Cursor} {operator : BinaryOperator} (advises : Advises inner)
    (genuine : start.Genuine) (ahead : BinaryOperator.ofKind? start.kind = some operator)
    (left : Expr) : AptAt start (binary inner left) := by
  intro error stop run
  rw [binary, run_kind_bind, ahead] at run
  have operation := advises_advance.bind fun _ => advises.bind fun expression =>
    advises_pure (Expr.binary left operator expression (left.span.through expression.span))
  exact operation.apt genuine run

/-- Whatever the token announces is read by the reader for it. -/
theorem aptAt_announced {start : Cursor} {operation : Reader Expr} (advises : Advises inner)
    (genuine : start.Genuine)
    (aptOperation : Grammar.standard.leading start.kind = some .unary -> AptAt start operation) :
    AptAt start (announced .standard inner operation) := by
  intro error stop run
  rw [announced, run_kind_bind] at run
  split at run
  next form announces =>
    cases form with
    | primary => exact aptAt_primary advises genuine announces run
    | unary => exact aptOperation announces run
    | grouping => exact (advises_grouping advises).apt genuine run
    | call => exact absurd announces (leading_ne_call _)
  next unannounced =>
    exact aptAt_fail (not_mem_expressionStart unannounced) (by decide) (by decide) run

theorem advises_operand (advises : Advises inner) : Advises (operand .standard inner) := by
  apply advises_kind_bind (consumes_operand advises.onward).onward
  intro start genuine
  split
  next isOperator => exact aptAt_fail (not_mem_primaryStart isOperator) (by decide) (by decide)
  next notOperator =>
    apply aptAt_announced advises genuine
    intro announces
    exact absurd (isSome_of_leading_unary announces) notOperator

theorem advises_leading (advises : Advises inner) : Advises (leading .standard inner) where
  onward := (consumes_announced advises.onward (consumes_operation advises.onward)).onward
  apt := by
    intro start genuine
    exact aptAt_announced advises genuine (aptAt_unary (advises_operand advises) genuine)

theorem advises_climb {right : BindingPower -> Reader Expr}
    (advises : forall power, Advises (right power)) (power : BindingPower) (rounds : List Token)
    (left : Expr) : Advises (climb .standard right power rounds left) := by
  induction rounds generalizing left with
  | nil => exact advises_pure left
  | cons round rounds inductionHypothesis =>
      have onward : Onward (climb .standard right power (round :: rounds) left) :=
        onward_climb (fun power => (advises power).onward) power (round :: rounds) left
      apply advises_kind_bind onward
      intro start genuine
      split
      next => exact (advises_pure left).apt genuine
      next next binds =>
        split
        next => exact (advises_pure left).apt genuine
        next =>
          rcases exists_operator_of_binding binds with ⟨operator, isOperator⟩
          have first := aptAt_binary (advises next) genuine isOperator left
          have onward := (consumes_binary (advises next).onward left).onward
          exact first.bind onward genuine inductionHypothesis

theorem advises_read (levels : Nat) (power : BindingPower) :
    Advises (read .standard levels power) := by
  induction levels generalizing power with
  | zero => exact advises_nestingTooDeep
  | succ levels inductionHypothesis =>
      apply (advises_leading (inductionHypothesis .loosest)).bind
      intro left
      apply advises_tokens.bind
      intro rounds
      exact advises_climb inductionHypothesis power rounds left

theorem advises_whole (levels : Nat) : Advises (whole .standard levels) :=
  advises_read levels .loosest

end Expression

/-! ## Statements -/

namespace Statement

open Reader

variable {expression : Reader Expr} {block : Reader Block}

theorem not_mem_typeNames {kind : Token.Kind} (notType : TypeName.ofKind? kind = none) :
    kind ∉ Token.Kind.typeNames := by
  cases kind <;> first | decide | cases notType

theorem not_mem_statementStart {kind : Token.Kind}
    (unannounced : Grammar.standard.statement kind = none) :
    kind ∉ Token.Kind.statementStart := by
  cases kind <;> first | decide | cases unannounced

theorem advises_typeName : Advises typeName := by
  apply advises_kind_bind consumes_typeName.onward
  intro start genuine
  split
  next type isType => exact (advises_advance.bind fun _ => advises_pure type).apt genuine
  next notType => exact aptAt_fail (not_mem_typeNames notType) (by decide) (by decide)

theorem advises_parameter : Advises parameter := by
  apply advises_current.bind
  intro first
  apply advises_typeName.bind
  intro type
  exact (advises_expect _).bind fun name => advises_pure _

theorem advises_initializer (advises : Advises expression) (type : Option TypeName) :
    Advises (initializer expression type) := by
  apply advises_kind_bind (onward_initializer advises.onward type)
  intro start genuine
  split
  next =>
    have given := advises.bind fun value => advises_pure (some value)
    exact (advises_advance.bind fun _ => given).apt genuine
  next semicolon =>
    split
    next => exact (advises_pure none).apt genuine
    next => exact aptAt_fail (by rw [semicolon]; decide) (by decide) (by decide)
  next notAssignment notSemicolon =>
    split
    next =>
      refine aptAt_fail ?_ (by decide) (by decide)
      simpa using And.intro notAssignment notSemicolon
    next => exact aptAt_fail (by simpa using notAssignment) (by decide) (by decide)

theorem advises_declaration (advises : Advises expression) :
    Advises (declaration expression) := by
  apply advises_advance.bind
  intro first
  apply (advises_expect _).bind
  intro name
  apply (advises_initializer advises _).bind
  intro initial
  exact (advises_expect _).bind fun last => advises_pure _

theorem advises_assignment (advises : Advises expression) : Advises (assignment expression) := by
  apply advises_advance.bind
  intro target
  apply advises_advance.bind
  intro _
  apply advises.bind
  intro value
  exact (advises_expect _).bind fun last => advises_pure _

theorem advises_callStatement (advises : Advises expression) :
    Advises (callStatement expression) := by
  apply advises_advance.bind
  intro callee
  apply (advises_parenthesised advises).bind
  rintro ⟨arguments, close⟩
  exact (advises_expect _).bind fun last => advises_pure _

/-- The kind that decides is that of the token which is blamed after the name. -/
theorem aptAt_assignmentOrCall {start : Cursor} (advises : Advises expression)
    (genuine : start.Genuine) (named : start.kind = .identifier) :
    AptAt start (assignmentOrCall expression) := by
  intro error stop run
  rw [assignmentOrCall, run_nextKind_bind] at run
  split at run
  next => exact (advises_assignment advises).apt genuine run
  next => exact (advises_callStatement advises).apt genuine run
  next notAssignment notCall =>
    have passes := genuine.closed.passes_advance (by rw [named]; decide)
    rw [passes.nextKind_head] at notAssignment notCall
    rw [run_advance_bind] at run
    refine aptAt_fail ?_ (by decide) (by decide) run
    simpa using And.intro notAssignment notCall

theorem advises_condition (advises : Advises expression) : Advises (condition expression) := by
  apply (advises_expect _).bind
  intro _
  apply advises.bind
  intro value
  exact (advises_expect _).bind fun _ => advises_pure _

theorem advises_conditional (advises : Advises expression) (advisesBlock : Advises block) :
    Advises (conditional expression block) := by
  apply advises_advance.bind
  intro first
  apply (advises_condition advises).bind
  intro test
  apply advisesBlock.bind
  intro consequent
  apply advises_kind_bind
  · apply onward_kind.bind
    intro kind
    split
    next =>
      exact onward_advance.bind fun _ => advisesBlock.onward.bind fun _ => onward_pure _
    next => exact onward_pure _
  · intro start genuine
    split
    next =>
      have alternative := advisesBlock.bind fun alternative =>
        advises_pure (Stmt.conditional test consequent (some alternative)
          (first.span.through alternative.span))
      exact (advises_advance.bind fun _ => alternative).apt genuine
    next => exact (advises_pure _).apt genuine

theorem advises_loop (advises : Advises expression) (advisesBlock : Advises block) :
    Advises (loop expression block) := by
  apply advises_advance.bind
  intro first
  apply (advises_condition advises).bind
  intro test
  exact advisesBlock.bind fun body => advises_pure _

theorem advises_function (advisesBlock : Advises block) : Advises (function block) := by
  apply advises_advance.bind
  intro first
  apply (advises_expect _).bind
  intro name
  apply (advises_parenthesised advises_parameter).bind
  rintro ⟨parameters, close⟩
  exact advisesBlock.bind fun body => advises_pure _

theorem advises_optionalValue (advises : Advises expression) :
    Advises (optionalValue expression) := by
  apply advises_kind_bind (onward_optionalValue advises.onward)
  intro start genuine
  split
  next => exact (advises_pure none).apt genuine
  next => exact (advises.bind fun value => advises_pure (some value)).apt genuine

theorem advises_result (advises : Advises expression) : Advises (result expression) := by
  apply advises_advance.bind
  intro first
  apply (advises_optionalValue advises).bind
  intro value
  exact (advises_expect _).bind fun last => advises_pure _

theorem advises_print (advises : Advises expression) : Advises (print expression) := by
  apply advises_advance.bind
  intro first
  apply (advises_condition advises).bind
  intro value
  exact (advises_expect _).bind fun last => advises_pure _

/-- Where no statement is announced, the list has to be one without the kind that stands
there. -/
theorem aptAt_announced {start : Cursor} {expected : List Token.Kind}
    (advises : Advises expression) (advisesBlock : Advises block) (genuine : start.Genuine)
    (nonempty : expected ≠ [])
    (apart : Grammar.standard.statement start.kind = none -> start.kind ∉ expected) :
    AptAt start (announced .standard expected expression block) := by
  intro error stop run
  rw [announced, run_kind_bind] at run
  split at run
  next form announces =>
    cases form with
    | declaration => exact (advises_declaration advises).apt genuine run
    | assignmentOrCall =>
        exact aptAt_assignmentOrCall advises genuine (announces_of_statement announces) run
    | conditional => exact (advises_conditional advises advisesBlock).apt genuine run
    | loop => exact (advises_loop advises advisesBlock).apt genuine run
    | function => exact (advises_function advisesBlock).apt genuine run
    | result => exact (advises_result advises).apt genuine run
    | print => exact (advises_print advises).apt genuine run
  next unannounced => exact aptAt_fail (apart unannounced) (by simp [nonempty]) (by simp) run

/-- The closing brace ends the loop over the statements, so it does not stand here. -/
theorem aptAt_inBlock {start : Cursor} (advises : Advises expression)
    (advisesBlock : Advises block) (genuine : start.Genuine) (unclosed : start.kind ≠ .closeCurly) :
    AptAt start (inBlock .standard expression block) := by
  intro error stop run
  rw [inBlock, run_kind_bind] at run
  split at run
  next ends => exact aptAt_fail (by rw [ends]; decide) (by decide) (by decide) run
  next =>
    refine aptAt_announced advises advisesBlock genuine (by decide) ?_ run
    intro unannounced listed
    rcases List.mem_append.mp listed with begins | closes
    · exact not_mem_statementStart unannounced begins
    · exact unclosed (List.mem_singleton.mp closes)

theorem advises_braced {body : Reader (List Stmt)} (advises : Advises body) :
    Advises (braced body) := by
  apply (advises_expect _).bind
  intro opening
  apply advises.bind
  intro enclosed
  exact (advises_expect _).bind fun close => advises_pure _

theorem advises_block (levels : Nat) : Advises (Statement.block .standard levels) := by
  induction levels with
  | zero => exact advises_braced advises_nestingTooDeep
  | succ levels inductionHypothesis =>
      have expression := Expression.advises_whole levels
      apply advises_braced
      apply advises_tokens.bind
      apply advises_untilKind (consumes_inBlock expression.onward inductionHypothesis.onward).onward
      exact fun start genuine => aptAt_inBlock expression inductionHypothesis genuine

theorem advises_atTop (levels : Nat) : Advises (atTop .standard levels) := by
  have expression := Expression.advises_whole levels
  have block := advises_block levels
  apply advises_kind_bind (consumes_atTop levels).onward
  intro start genuine
  split
  next => exact (advises_function block).apt genuine
  next notFunction =>
    apply aptAt_announced expression block genuine (by decide)
    intro unannounced listed
    rcases List.mem_cons.mp listed with isFunction | begins
    · exact notFunction isFunction
    · exact not_mem_statementStart unannounced begins

end Statement

theorem advises_program : Reader.Advises program := by
  have top := Statement.advises_atTop SyntaxTree.nestingLimit
  apply Reader.advises_tokens.bind
  exact Reader.advises_untilKind top.onward fun start genuine _ => top.apt genuine

end Reading

/-! ## Documents -/

/-- What a text calls for as a literal has a value of its kind. -/
theorem Token.coherent_of_classified {token : Token}
    (classified : Classified token.kind token.text token.value) : token.Coherent := by
  intro isLiteral
  generalize token.kind = kind, token.text = text, token.value = value at classified isLiteral
  cases classified with
  | spelled fixed =>
      have notLiteral : kind.isLiteral = false := by
        cases kind <;> first | rfl | cases fixed
      rw [notLiteral] at isLiteral
      cases isLiteral
  | truth value => exact ⟨_, rfl, rfl⟩
  | identifier isWord unreserved => cases isLiteral
  | integer isNumber => exact ⟨_, rfl, rfl⟩
  | string isString => exact ⟨_, rfl, rfl⟩

theorem Token.coherent_of_tokenize {source : String} {tokens : List Token} {token : Token}
    (scanned : tokenize source = .ok tokens) (member : token ∈ tokens) : token.Coherent := by
  by_cases isMarker : token.kind = .eof
  · intro isLiteral
    rw [isMarker] at isLiteral
    cases isLiteral
  · rcases Scan.exists_read_of_tokenize scanned member isMarker with
      ⟨passed, first, ahead, piece, -, run, isToken⟩
    exact coherent_of_classified (Scan.recognized_of_read run isToken).classified

/-- A scan leaves a genuine cursor at its first token. -/
theorem Reading.genuine_of_tokenize {source : String} {tokens : List Token}
    (scanned : tokenize source = .ok tokens) : (Cursor.ofTokens tokens).Genuine where
  closed := Cursor.closed_ofTokens tokens
  coherent token member := by
    rw [Cursor.tokens_ofTokens, withEndMarker_of_tokenize scanned] at member
    exact Token.coherent_of_tokenize scanned member

theorem SyntaxError.apt_of_parse {source : String} {error : SyntaxError}
    (failed : parse source = .error (.syntactic error)) : error.Apt := by
  rcases Reading.exists_tokens_of_parse failed with ⟨tokens, scanned, refused⟩
  rcases Reading.parseTokens_eq_error_iff.mp refused with ⟨stop, run⟩
  exact Reading.advises_program.apt (Reading.genuine_of_tokenize scanned) run

/-- A syntax error of a document does not expect what it has found, expects something
unless the nesting is too deep, always has a tip, and is never that of a last resort. -/
theorem advises_of_parse {source : String} {error : SyntaxError}
    (failed : parse source = .error (.syntactic error)) :
    error.found ∉ error.expected ∧
      (error.expected = [] ↔ error.cause = .nestingTooDeep) ∧
      (Exists fun tip => error.tip? = some tip) ∧ ¬ error.IsFallback := by
  have apt := SyntaxError.apt_of_parse failed
  exact ⟨apt.apart, apt.lists, apt.exists_tip, fun isFallback => isFallback.not_apt apt⟩

/-- An output that ends with its value. -/
def unfinishedPrint : List Token :=
  [.inFirstLine .printWord "print" 0, .inFirstLine .openParen "(" 5,
    { Token.inFirstLine .intLiteral "1" 6 with value := some (.int 1) }, .endMarker ⟨7, 1, 8⟩]

def unfinishedPrintError : SyntaxError :=
  .blame .unexpectedToken [.closeParen] (.endMarker ⟨7, 1, 8⟩)

theorem advises_of_parse_of_unfinishedPrint :
    parse "print(1" = .error (.syntactic unfinishedPrintError) ∧
      unfinishedPrintError.found ∉ unfinishedPrintError.expected ∧
      (unfinishedPrintError.expected = [] ↔ unfinishedPrintError.cause = .nestingTooDeep) ∧
      (Exists fun tip => unfinishedPrintError.tip? = some tip) ∧
      ¬ unfinishedPrintError.IsFallback := by
  have scanned : tokenize "print(1" = .ok unfinishedPrint := tokenize_eq_ok (by decide +kernel)
  have failed := parse_eq_error scanned (show _ = Except.error unfinishedPrintError from rfl)
  exact ⟨failed, advises_of_parse failed⟩

/-- No scan leaves a literal without its value.  With such a token the last resort is
reached, and what it expects is what it has found. -/
example :
    parseTokens [.inFirstLine .printWord "print" 0, .inFirstLine .openParen "(" 5,
        .inFirstLine .intLiteral "1" 6] =
      .error (.blame .unexpectedToken Token.Kind.primaryStart
        (.inFirstLine .intLiteral "1" 6)) :=
  rfl

end ToyFrontend
