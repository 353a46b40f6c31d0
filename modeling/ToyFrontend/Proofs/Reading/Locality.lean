import ToyFrontend.Proofs.Reading.Program

namespace ToyFrontend
namespace Reading

/-!
# How far a reader looks

A run ends at a token, with a result or with an error, and whatever stands behind
that token had no part in it.  `Reader.Local` says so: from every other cursor
with the same tokens up to there the run has the same end.

Two readers of this library do look one token further than the one they are at.
Both are at a name then, and both go on to pass it, so the token they looked at
is one they come to.  Loops are given the tokens ahead for their rounds, and
these differ between two cursors.  This is why the relation behind `Local`
compares two readers, and the second one only where a number of tokens that its
rounds cover is ahead.
-/

namespace Cursor

/-- Ways over the same tokens to the same token begin at the same token. -/
theorem Passes.current_eq {start stop other otherStop : Cursor} {passed : List Token}
    (passes : start.Passes passed stop) (passesOther : other.Passes passed otherStop)
    (same : otherStop.current = stop.current) : other.current = start.current := by
  cases passed with
  | nil => rw [passes.eq_of_nil, passesOther.eq_of_nil, same]
  | cons token rest => rw [passes.head.1, passesOther.head.1]

theorem Passes.unique {start stop : Cursor} {passed again : List Token}
    (passes : start.Passes passed stop) (passesAgain : start.Passes again stop) :
    passed = again :=
  List.append_cancel_right (passes.tokens_eq.symm.trans passesAgain.tokens_eq)

theorem Passes.length_add {start stop : Cursor} {passed : List Token}
    (passes : start.Passes passed stop) :
    passed.length + stop.tokens.length = start.tokens.length := by
  rw [passes.tokens_eq, List.length_append]

end Cursor

namespace Reader

variable {Result Next : Type}

/-- The end of a run at a cursor, with a result or an error. -/
def ended (stop : Cursor) :
    Except SyntaxError Result -> EStateM.Result SyntaxError Cursor Result
  | .ok value => .ok value stop
  | .error error => .error error stop

/-- The end of the first reader's run is that of the second one from every cursor
that has the same tokens up to there, and not more than `bound` of them. -/
def MirrorsAt (bound : Nat) (start : Cursor) (first second : Reader Result) : Prop :=
  forall ⦃stop : Cursor⦄ ⦃answer : Except SyntaxError Result⦄,
    first.run start = ended stop answer ->
    Exists fun passed => start.Passes passed stop ∧
      forall ⦃other otherStop : Cursor⦄, other.tokens.length <= bound ->
        other.Passes passed otherStop -> otherStop.current = stop.current ->
        second.run other = ended otherStop answer

/-- A reader looks no further than the token at which it ends. -/
def Local (reader : Reader Result) : Prop :=
  forall (bound : Nat) ⦃start : Cursor⦄, start.Closed -> MirrorsAt bound start reader reader

namespace MirrorsAt

variable {bound : Nat} {start : Cursor} {first second : Reader Result}

theorem of_le {fewer : Nat} (mirrors : MirrorsAt bound start first second)
    (within : fewer <= bound) : MirrorsAt fewer start first second := by
  intro stop answer run
  rcases mirrors run with ⟨passed, passes, mirrored⟩
  exact ⟨passed, passes, fun _ _ below => mirrored (Nat.le_trans below within)⟩

/-- No cursor is without a token, so without any token ahead there is nothing to compare. -/
theorem of_zero (mirrors : MirrorsAt bound start first second) (third : Reader Result) :
    MirrorsAt 0 start first third := by
  intro stop answer run
  rcases mirrors run with ⟨passed, passes, -⟩
  refine ⟨passed, passes, ?_⟩
  intro other otherStop none
  exact absurd none (Nat.not_le.mpr other.tokens_length_pos)

/-- What a reader does may depend on the token it is at. -/
theorem congr {firstForm secondForm : Reader Result}
    (mirrors : MirrorsAt bound start firstForm secondForm)
    (runFirst : first.run start = firstForm.run start)
    (runSecond : forall ⦃other : Cursor⦄, other.current = start.current ->
      second.run other = secondForm.run other) :
    MirrorsAt bound start first second := by
  intro stop answer run
  rcases mirrors (runFirst.symm.trans run) with ⟨passed, passes, mirrored⟩
  refine ⟨passed, passes, ?_⟩
  intro other otherStop within passesOther same
  rw [runSecond (passes.current_eq passesOther same)]
  exact mirrored within passesOther same

/-- What the first part passes is no longer ahead of the second. -/
theorem bind {continuation otherContinuation : Result -> Reader Next}
    (mirrors : MirrorsAt bound start first second)
    (continued : forall ⦃value : Result⦄ ⦃middle : Cursor⦄ ⦃passed : List Token⦄,
      first.run start = .ok value middle -> start.Passes passed middle ->
      MirrorsAt (bound - passed.length) middle (continuation value) (otherContinuation value)) :
    MirrorsAt bound start (first >>= continuation) (second >>= otherContinuation) := by
  intro stop answer run
  rw [EStateM.run_bind] at run
  cases firstRun : first.run start with
  | error error middle =>
      rw [firstRun] at run
      cases answer with
      | ok value => cases run
      | error error =>
          cases run
          rcases @mirrors _ (.error error) firstRun with ⟨passed, passes, mirrored⟩
          refine ⟨passed, passes, ?_⟩
          intro other otherStop within passesOther same
          rw [EStateM.run_bind, mirrored within passesOther same]
          rfl
  | ok value middle =>
      rw [firstRun] at run
      rcases @mirrors _ (.ok value) firstRun with ⟨before, passesBefore, mirrored⟩
      rcases continued firstRun passesBefore run with ⟨behind, passesBehind, mirroredBehind⟩
      refine ⟨before ++ behind, passesBefore.trans passesBehind, ?_⟩
      intro other otherStop within passesOther same
      rcases passesOther.split with ⟨otherMiddle, passesFirst, passesSecond⟩
      have sameMiddle := passesBehind.current_eq passesSecond same
      have shorter := passesFirst.length_add
      rw [run_bind_of_ok (mirrored within passesFirst sameMiddle)]
      exact mirroredBehind (by omega) passesSecond same

end MirrorsAt

section Local

variable {reader : Reader Result}

theorem local_pure (value : Result) : Local (pure value) := by
  intro bound start _closed stop answer run
  cases answer with
  | error error => cases run
  | ok result =>
      cases run
      refine ⟨[], .refl start, ?_⟩
      intro other otherStop _within passes _same
      rw [passes.eq_of_nil]
      rfl

theorem local_fail (cause : SyntaxError.Cause) (expected : List Token.Kind) :
    Local (fail cause expected : Reader Result) := by
  intro bound start _closed stop answer run
  cases answer with
  | ok result => cases run
  | error error =>
      cases run
      refine ⟨[], .refl start, ?_⟩
      intro other otherStop _within passes same
      rw [passes.eq_of_nil]
      change EStateM.Result.error (SyntaxError.blame cause expected otherStop.current) _ = _
      rw [same]
      rfl

theorem Local.bind {continuation : Result -> Reader Next} (isLocal : Local reader)
    (continued : forall value, Local (continuation value)) :
    Local (reader >>= continuation) := by
  intro bound start closed
  apply (isLocal bound closed).bind
  intro value middle passed _run passes
  exact continued value _ (passes.closed closed)

theorem mirrorsAt_kind {bound : Nat} {start : Cursor}
    {continuation otherContinuation : Token.Kind -> Reader Next}
    (mirrors : MirrorsAt bound start (continuation start.kind) (otherContinuation start.kind)) :
    MirrorsAt bound start (kind >>= continuation) (kind >>= otherContinuation) := by
  apply mirrors.congr (run_kind_bind _ _)
  intro other same
  rw [run_kind_bind, Cursor.kind, same, Cursor.kind]

theorem local_current {continuation : Token -> Reader Next}
    (continued : forall token, Local (continuation token)) :
    Local (current >>= continuation) := by
  intro bound start closed
  apply (continued start.current bound closed).congr (run_current_bind _ _)
  intro other same
  rw [run_current_bind, same]

theorem local_kind {continuation : Token.Kind -> Reader Next}
    (continued : forall kind, Local (continuation kind)) : Local (kind >>= continuation) :=
  fun bound _ closed => mirrorsAt_kind (continued _ bound closed)

/-- The token behind the current one may be looked at if the current one is passed
in any case. -/
theorem mirrorsAt_nextKind {bound : Nat} {start : Cursor} {form : Token.Kind -> Reader Next}
    (closed : start.Closed) (proper : start.kind ≠ .eof)
    (steps : forall next, Exists fun rest : Token -> Reader Next =>
      (forall token, Local (rest token)) ∧
        forall ⦃cursor : Cursor⦄, cursor.current = start.current ->
          (form next).run cursor = (advance >>= rest).run cursor) :
    MirrorsAt bound start (nextKind >>= form) (nextKind >>= form) := by
  intro stop answer run
  rcases steps start.nextKind with ⟨rest, isLocal, runs⟩
  rw [run_nextKind_bind, runs rfl, run_advance_bind] at run
  have passesFirst := closed.passes_advance proper
  rcases isLocal _ bound (passesFirst.closed closed) run with ⟨passed, passes, mirrored⟩
  refine ⟨start.current :: passed, passesFirst.trans passes, ?_⟩
  intro other otherStop within passesOther same
  have ahead := passes.current_eq passesOther.head.2 same
  have next : other.nextKind = start.nextKind := by
    rw [passesOther.nextKind_head, passesFirst.nextKind_head, Cursor.kind, ahead, Cursor.kind]
  rw [run_nextKind_bind, next, runs passesOther.head.1, run_advance_bind, passesOther.head.1]
  have whole := passesOther.length_add
  have later := passesOther.head.2.length_add
  rw [List.length_cons] at whole
  exact mirrored (by omega) passesOther.head.2 same

theorem local_advance : Local advance := by
  intro bound start closed
  by_cases atEnd : start.kind = .eof
  · -- The cursor stays at an end marker.
    have stays {cursor : Cursor} (isEnd : cursor.kind = .eof) :
        advance.run cursor = (pure cursor.current : Reader Token).run cursor := by
      change EStateM.Result.ok cursor.current cursor.advance = .ok cursor.current cursor
      rw [Cursor.advance, if_pos isEnd]
    apply (local_pure start.current bound closed).congr (stays atEnd)
    intro other same
    rw [stays (by rw [Cursor.kind, same]; exact atEnd), same]
  · have passes : MirrorsAt bound start (nextKind >>= fun _ => advance)
        (nextKind >>= fun _ => advance) :=
      mirrorsAt_nextKind closed atEnd fun _ => ⟨pure, local_pure, fun _ _ => rfl⟩
    exact passes.congr rfl fun _ _ => rfl

theorem local_refuse : Local (refuse : Reader Result) := by
  intro bound start closed
  apply MirrorsAt.bind (local_advance bound closed)
  intro token middle passed _run _passes stop answer run
  cases answer with
  | ok result => cases run
  | error error =>
      cases run
      refine ⟨[], .refl _, ?_⟩
      intro other otherStop _within passes _same
      rw [passes.eq_of_nil]
      rfl

theorem local_expect (expected : Token.Kind) : Local (expect expected) := by
  apply local_kind
  intro kind
  split
  next => exact local_advance
  next => exact local_fail _ _

/-- A loop is local if its rounds make no difference wherever they cover what is ahead. -/
theorem local_tokens {loop : List Token -> Reader Result}
    (mirrors : forall rounds others ⦃start : Cursor⦄, start.Closed ->
      start.tokens.length <= rounds.length ->
      MirrorsAt others.length start (loop rounds) (loop others)) :
    Local (tokens >>= loop) := by
  intro bound start closed stop answer run
  rw [run_tokens_bind] at run
  rcases mirrors start.tokens [] closed (Nat.le_refl _) run with ⟨passed, passes, -⟩
  refine ⟨passed, passes, ?_⟩
  intro other otherStop _within passesOther same
  rcases mirrors start.tokens other.tokens closed (Nat.le_refl _) run with
    ⟨again, passesAgain, mirrored⟩
  cases passes.unique passesAgain
  rw [run_tokens_bind]
  exact mirrored (Nat.le_refl _) passesOther same

/-- Only a loop with a round left can meet a token. -/
theorem mirrorsAt_of_cons {start : Cursor} {loop : List Token -> Reader Result} (round : Token)
    (step : forall other others, MirrorsAt (others.length + 1) start reader
      (loop (other :: others))) (others : List Token) :
    MirrorsAt others.length start reader (loop others) := by
  cases others with
  | nil => exact (step round []).of_zero _
  | cons other others => exact step other others

theorem mirrorsAt_commaSeparated {item : Reader Result} (isLocal : Local item)
    (rounds others : List Token) ⦃start : Cursor⦄ (closed : start.Closed)
    (adequate : start.tokens.length <= rounds.length) :
    MirrorsAt others.length start (commaSeparated item rounds) (commaSeparated item others) := by
  induction rounds generalizing start others with
  | nil => exact absurd adequate (Nat.not_le.mpr start.tokens_length_pos)
  | cons round rounds inductionHypothesis =>
      apply mirrorsAt_of_cons round
      intro other others
      apply MirrorsAt.bind (isLocal _ closed)
      intro value middle passed _run passes
      have closedMiddle := passes.closed closed
      have shorter := passes.length_le
      rw [List.length_cons] at adequate
      apply mirrorsAt_kind
      split
      next comma =>
        apply MirrorsAt.bind (local_advance _ closedMiddle)
        intro separator next first run passesFirst
        cases run
        have separates := closedMiddle.passes_advance (by rw [comma]; decide)
        have fewer := separates.length_lt (List.cons_ne_nil _ _)
        have counted := passesFirst.length_add
        have closedNext := separates.closed closedMiddle
        have mirrors := inductionHypothesis others closedNext (by omega)
        apply MirrorsAt.bind (mirrors.of_le (by omega))
        intro values stop last _run passesLast
        exact local_pure _ _ (passesLast.closed closedNext)
      next => exact local_pure _ _ closedMiddle
      next => exact local_fail _ _ _ closedMiddle

theorem local_items {item : Reader Result} (isLocal : Local item) : Local (items item) := by
  apply local_kind
  intro kind
  split
  next => exact local_pure []
  next => exact local_tokens (mirrorsAt_commaSeparated isLocal)

theorem local_parenthesised {item : Reader Result} (isLocal : Local item) :
    Local (parenthesised item) := by
  apply (local_expect .openParen).bind
  intro opening
  apply (local_items isLocal).bind
  intro read
  exact (local_expect .closeParen).bind fun close => local_pure (read, close.span)

theorem mirrorsAt_untilKind {item : Reader Result} (last : Token.Kind) (isLocal : Local item)
    (progress : forall ⦃start stop : Cursor⦄ ⦃value : Result⦄, start.Closed ->
      item.run start = .ok value stop -> stop.tokens.length < start.tokens.length)
    (rounds others : List Token) ⦃start : Cursor⦄ (closed : start.Closed)
    (adequate : start.tokens.length <= rounds.length) :
    MirrorsAt others.length start (untilKind last item rounds) (untilKind last item others) := by
  induction rounds generalizing start others with
  | nil => exact absurd adequate (Nat.not_le.mpr start.tokens_length_pos)
  | cons round rounds inductionHypothesis =>
      apply mirrorsAt_of_cons round
      intro other others
      apply mirrorsAt_kind
      split
      next => exact local_pure _ _ closed
      next =>
        apply MirrorsAt.bind (isLocal _ closed)
        intro value middle passed run passes
        have closedMiddle := passes.closed closed
        have shorter := progress closed run
        have counted := passes.length_add
        rw [List.length_cons] at adequate
        have mirrors := inductionHypothesis others closedMiddle (by omega)
        apply MirrorsAt.bind (mirrors.of_le (by omega))
        intro values stop last _run passesLast
        exact local_pure _ _ (passesLast.closed closedMiddle)

end Local
end Reader

/-! ## Expressions -/

namespace Expression

open Reader
open SyntaxTree (Expr BindingPower BinaryOperator UnaryOperator)

variable {inner : Reader Expr}

theorem local_call (isLocal : Local inner) : Local (call inner) := by
  apply (local_expect .identifier).bind
  intro callee
  exact (local_parenthesised isLocal).bind fun read => local_pure _

/-- A token that is no name, and whether it is a literal. -/
def literalOnly (token : Token) : Reader Expr :=
  match atom? token with
  | some expression => advance >>= fun _ => pure expression
  | none => fail .unexpectedToken Token.Kind.primaryStart

theorem local_literalOnly (token : Token) : Local (literalOnly token) := by
  unfold literalOnly
  split
  next => exact local_advance.bind fun _ => local_pure _
  next => exact local_fail _ _

theorem run_primary (inner : Reader Expr) (cursor : Cursor) :
    (primary inner).run cursor =
      (nextKind >>= fun next =>
        if cursor.kind = .identifier && next = .openParen then call inner
        else literalOnly cursor.current).run cursor :=
  rfl

/-- A name is passed whether it is called or not. -/
theorem local_primary (isLocal : Local inner) : Local (primary inner) := by
  intro bound start closed
  have runs {cursor : Cursor} (same : cursor.current = start.current) :
      (primary inner).run cursor =
        (nextKind >>= fun next =>
          if start.kind = .identifier && next = .openParen then call inner
          else literalOnly start.current).run cursor := by
    rw [run_primary, same, Cursor.kind, same, Cursor.kind]
  refine MirrorsAt.congr ?_ (runs rfl) fun _ => runs
  by_cases named : start.kind = .identifier
  · apply mirrorsAt_nextKind closed (by rw [named]; decide)
    intro next
    split
    next =>
      refine ⟨fun callee => parenthesised inner >>= fun read =>
        pure (.call callee.text read.1 (callee.span.through read.2)), ?_, ?_⟩
      · exact fun callee => (local_parenthesised isLocal).bind fun read => local_pure _
      · intro cursor same
        rw [call, run_bind_of_ok (run_expect_of_eq (by rw [Cursor.kind, same]; exact named)),
          run_advance_bind]
    next =>
      refine ⟨_, fun _ => local_pure (.identifier start.current.text start.current.span), ?_⟩
      intro cursor _same
      rw [literalOnly, atom?_eq_some_iff.mpr (.identifier named)]
  · apply (local_literalOnly start.current bound closed).congr
    · rw [run_nextKind_bind, if_neg (by simp [named])]
    · intro other _same
      rw [run_nextKind_bind, if_neg (by simp [named])]

theorem local_grouping (isLocal : Local inner) : Local (grouping inner) := by
  apply local_advance.bind
  intro opening
  apply isLocal.bind
  intro expression
  exact (local_expect .closeParen).bind fun close => local_pure _

theorem local_announced (grammar : Grammar) {operation : Reader Expr} (isLocal : Local inner)
    (isLocalOperation : Local operation) : Local (announced grammar inner operation) := by
  apply local_kind
  intro kind
  split
  next form _ =>
    cases form with
    | primary => exact local_primary isLocal
    | unary => exact isLocalOperation
    | grouping => exact local_grouping isLocal
    | call => exact local_call isLocal
  next => exact local_fail _ _

theorem local_operand (grammar : Grammar) (isLocal : Local inner) :
    Local (operand grammar inner) := by
  apply local_kind
  intro kind
  split
  next => exact local_fail _ _
  next => exact local_announced grammar isLocal local_refuse

theorem local_unary (isLocal : Local inner) : Local (unary inner) := by
  apply local_kind
  intro kind
  split
  next => exact local_refuse
  next =>
    apply local_advance.bind
    intro token
    exact isLocal.bind fun expression => local_pure _

theorem local_leading (grammar : Grammar) (isLocal : Local inner) :
    Local (leading grammar inner) :=
  local_announced grammar isLocal (local_unary (local_operand grammar isLocal))

theorem local_binary (isLocal : Local inner) (left : Expr) : Local (binary inner left) := by
  apply local_kind
  intro kind
  split
  next => exact local_refuse
  next =>
    apply local_advance.bind
    intro token
    exact isLocal.bind fun expression => local_pure _

/-- An operation passes its operator. -/
theorem length_lt_of_binary (isLocal : Local inner) {start stop : Cursor} {left value : Expr}
    (closed : start.Closed) (run : (binary inner left).run start = .ok value stop) :
    stop.tokens.length < start.tokens.length := by
  rw [binary, run_kind_bind] at run
  split at run
  next => cases run
  next operator isOperator =>
    rw [run_advance_bind] at run
    rcases run_bind_eq_ok_iff.mp run with ⟨right, middle, rightRun, run⟩
    cases run
    have passesOperator := closed.passes_advance (kind_ne_eof_of_binaryOperator isOperator)
    have shorter := passesOperator.length_lt (List.cons_ne_nil _ _)
    rcases @isLocal 0 _ (passesOperator.closed closed) _ (.ok right) rightRun with
      ⟨_, passes, -⟩
    exact Nat.lt_of_le_of_lt passes.length_le shorter

theorem mirrorsAt_climb (grammar : Grammar) {right : BindingPower -> Reader Expr}
    (isLocal : forall power, Local (right power)) (power : BindingPower) (left : Expr)
    (rounds others : List Token) ⦃start : Cursor⦄ (closed : start.Closed)
    (adequate : start.tokens.length <= rounds.length) :
    MirrorsAt others.length start (climb grammar right power rounds left)
      (climb grammar right power others left) := by
  induction rounds generalizing start others left with
  | nil => exact absurd adequate (Nat.not_le.mpr start.tokens_length_pos)
  | cons round rounds inductionHypothesis =>
      refine @mirrorsAt_of_cons _ _ start (climb grammar right power · left) round ?_ others
      intro other others
      apply mirrorsAt_kind
      split
      next => exact local_pure _ _ closed
      next own _ =>
        split
        next => exact local_pure _ _ closed
        next =>
          apply MirrorsAt.bind (local_binary (isLocal own) left _ closed)
          intro joined middle passed run passes
          have shorter := length_lt_of_binary (isLocal own) closed run
          have counted := passes.length_add
          rw [List.length_cons] at adequate
          have mirrors := inductionHypothesis joined others (passes.closed closed) (by omega)
          exact mirrors.of_le (by omega)

theorem local_read (grammar : Grammar) (levels : Nat) (power : BindingPower) :
    Local (read grammar levels power) := by
  induction levels generalizing power with
  | zero => exact local_fail _ _
  | succ levels inductionHypothesis =>
      apply (local_leading grammar (inductionHypothesis .loosest)).bind
      intro left
      exact local_tokens (mirrorsAt_climb grammar inductionHypothesis power left)

end Expression

/-! ## Statements -/

namespace Statement

open Reader
open SyntaxTree (Expr Stmt Block Parameter TypeName)

theorem local_typeName : Local typeName := by
  apply local_kind
  intro kind
  split
  next => exact local_advance.bind fun _ => local_pure _
  next => exact local_fail _ _

theorem local_parameter : Local parameter := by
  apply local_current
  intro first
  apply local_typeName.bind
  intro type
  exact (local_expect .identifier).bind fun name => local_pure _

section Forms

variable {expression : Reader Expr} {block : Reader Block}

theorem local_initializer (isLocal : Local expression) (type : Option TypeName) :
    Local (initializer expression type) := by
  apply local_kind
  intro kind
  split
  next =>
    apply local_advance.bind
    intro token
    exact isLocal.bind fun value => local_pure _
  next =>
    split
    next => exact local_pure _
    next => exact local_fail _ _
  next =>
    split
    next => exact local_fail _ _
    next => exact local_fail _ _

theorem local_declaration (isLocal : Local expression) : Local (declaration expression) := by
  apply local_advance.bind
  intro first
  apply (local_expect .identifier).bind
  intro name
  apply (local_initializer isLocal _).bind
  intro initial
  exact (local_expect .semicolon).bind fun last => local_pure _

/-- A name at the beginning of a statement is passed whatever stands behind it. -/
theorem mirrorsAt_assignmentOrCall (isLocal : Local expression) {bound : Nat} {start : Cursor}
    (closed : start.Closed) (proper : start.kind ≠ .eof) :
    MirrorsAt bound start (assignmentOrCall expression) (assignmentOrCall expression) := by
  apply mirrorsAt_nextKind closed proper
  intro next
  split
  next =>
    refine ⟨_, fun target => ?_, fun _ _ => rfl⟩
    apply local_advance.bind
    intro token
    apply isLocal.bind
    intro value
    exact (local_expect .semicolon).bind fun last => local_pure _
  next =>
    refine ⟨_, fun callee => ?_, fun _ _ => rfl⟩
    apply (local_parenthesised isLocal).bind
    intro read
    exact (local_expect .semicolon).bind fun last => local_pure _
  next => exact ⟨_, fun _ => local_fail _ _, fun _ _ => rfl⟩

theorem local_condition (isLocal : Local expression) : Local (condition expression) := by
  apply (local_expect .openParen).bind
  intro opening
  apply isLocal.bind
  intro value
  exact (local_expect .closeParen).bind fun close => local_pure _

theorem local_conditional (isLocal : Local expression) (isLocalBlock : Local block) :
    Local (conditional expression block) := by
  apply local_advance.bind
  intro first
  apply (local_condition isLocal).bind
  intro test
  apply isLocalBlock.bind
  intro consequent
  apply local_kind
  intro kind
  split
  next =>
    apply local_advance.bind
    intro token
    exact isLocalBlock.bind fun alternative => local_pure _
  next => exact local_pure _

theorem local_loop (isLocal : Local expression) (isLocalBlock : Local block) :
    Local (loop expression block) := by
  apply local_advance.bind
  intro first
  apply (local_condition isLocal).bind
  intro test
  exact isLocalBlock.bind fun body => local_pure _

theorem local_function (isLocalBlock : Local block) : Local (function block) := by
  apply local_advance.bind
  intro first
  apply (local_expect .identifier).bind
  intro name
  apply (local_parenthesised local_parameter).bind
  intro read
  exact isLocalBlock.bind fun body => local_pure _

theorem local_result (isLocal : Local expression) : Local (result expression) := by
  apply local_advance.bind
  intro first
  have isLocalValue : Local (optionalValue expression) := by
    apply local_kind
    intro kind
    split
    next => exact local_pure _
    next => exact isLocal.bind fun value => local_pure _
  apply isLocalValue.bind
  intro value
  exact (local_expect .semicolon).bind fun last => local_pure _

theorem local_print (isLocal : Local expression) : Local (print expression) := by
  apply local_advance.bind
  intro first
  apply (local_condition isLocal).bind
  intro value
  exact (local_expect .semicolon).bind fun last => local_pure _

/-- In the grammar of the language a statement that begins with a name is announced
by a name only, so the token that is looked at is never one behind an end marker. -/
theorem local_announced (expected : List Token.Kind) (isLocal : Local expression)
    (isLocalBlock : Local block) : Local (announced .standard expected expression block) := by
  intro bound start closed
  apply mirrorsAt_kind
  split
  next chosen announced =>
    cases chosen with
    | declaration => exact local_declaration isLocal bound closed
    | assignmentOrCall =>
        exact mirrorsAt_assignmentOrCall isLocal closed (kind_ne_eof_of_statement announced)
    | conditional => exact local_conditional isLocal isLocalBlock bound closed
    | loop => exact local_loop isLocal isLocalBlock bound closed
    | function => exact local_function isLocalBlock bound closed
    | result => exact local_result isLocal bound closed
    | print => exact local_print isLocal bound closed
  next => exact local_fail _ _ bound closed

theorem local_inBlock (isLocal : Local expression) (isLocalBlock : Local block) :
    Local (inBlock .standard expression block) := by
  apply local_kind
  intro kind
  split
  next => exact local_fail _ _
  next => exact local_announced _ isLocal isLocalBlock

theorem local_braced {body : Reader (List Stmt)} (isLocal : Local body) :
    Local (braced body) := by
  apply (local_expect .openCurly).bind
  intro opening
  apply isLocal.bind
  intro enclosed
  exact (local_expect .closeCurly).bind fun close => local_pure _

end Forms

/-- A phrase with a first token is passed in at least one step. -/
theorem length_lt_of_sound {Result : Type} {reader : Reader Result}
    {phrase : List Token -> Result -> Prop} {starts : Token.Kind -> Prop}
    (sound : reader.Sound phrase) (begins : Phrase.Begins phrase starts) {start stop : Cursor}
    {value : Result} (closed : start.Closed) (run : reader.run start = .ok value stop) :
    stop.tokens.length < start.tokens.length := by
  rcases sound closed run with ⟨passed, passes, spelled⟩
  rcases begins spelled with ⟨first, rest, rfl, -⟩
  exact passes.length_lt (List.cons_ne_nil _ _)

theorem local_block (levels : Nat) : Local (block .standard levels) := by
  induction levels with
  | zero => exact local_braced (local_fail _ _)
  | succ levels inductionHypothesis =>
      have sound := sound_inBlock (Expression.sound_read levels .loosest) (sound_block levels)
      have isLocal := local_inBlock (Expression.local_read .standard levels .loosest)
        inductionHypothesis
      exact local_braced (local_tokens (mirrorsAt_untilKind .closeCurly isLocal
        fun _ _ _ closed run => length_lt_of_sound sound begins_statement closed run))

theorem local_atTop (levels : Nat) : Local (atTop .standard levels) := by
  apply local_kind
  intro kind
  split
  next => exact local_function (local_block levels)
  next =>
    exact local_announced _ (Expression.local_read .standard levels .loosest) (local_block levels)

end Statement

/-! ## Programs -/

/-- The statements of a program, up to the end marker. -/
def program : Reader (List SyntaxTree.Stmt) := do
  Reader.untilKind .eof (Statement.atTop .standard SyntaxTree.nestingLimit) (← Reader.tokens)

theorem local_program : Reader.Local program := by
  have sound := Statement.sound_atTop SyntaxTree.nestingLimit
  have begins := Statement.begins_top SyntaxTree.nestingLimit
  exact Reader.local_tokens (Reader.mirrorsAt_untilKind .eof (Statement.local_atTop _)
    fun _ _ _ closed run => Statement.length_lt_of_sound sound begins closed run)

/-- The program that a run over statements has read, up to where it stopped. -/
def programOf :
    EStateM.Result SyntaxError Cursor (List SyntaxTree.Stmt) ->
      Except SyntaxError SyntaxTree.Program
  | .ok body stop => .ok { body, span := { start := .start, finish := stop.position } }
  | .error error _ => .error error

theorem Outcome.result_prepend (statement : SyntaxTree.Stmt) (outcome : Outcome) :
    (outcome.prepend statement).result =
      outcome.result.map fun program => { program with body := statement :: program.body } := by
  unfold Outcome.result Outcome.prepend
  dsimp only
  cases outcome.failure <;> rfl

/-- A program is read statement by statement, and both ways of reading it end alike. -/
theorem result_ofCursor (rounds : List Token) (cursor : Cursor) :
    (Outcome.ofCursor rounds cursor).result =
      programOf ((Reader.untilKind .eof (Statement.atTop .standard SyntaxTree.nestingLimit)
        rounds).run cursor) := by
  induction rounds generalizing cursor with
  | nil => rfl
  | cons round rounds inductionHypothesis =>
      rw [Outcome.ofCursor, Reader.untilKind, Reader.run_kind_bind]
      by_cases atEnd : cursor.kind = .eof
      · rw [if_neg (by rw [Cursor.hasTokens, atEnd]; decide), if_pos atEnd]
        rfl
      · rw [if_pos (by rw [Cursor.hasTokens, bne_iff_ne]; exact atEnd), if_neg atEnd]
        cases run : (Statement.atTop .standard SyntaxTree.nestingLimit).run cursor with
        | error failure next =>
            rw [EStateM.run_bind, run]
            rfl
        | ok statement next =>
            change ((Outcome.ofCursor rounds next).prepend statement).result = _
            rw [Outcome.result_prepend, inductionHypothesis, Reader.run_bind_of_ok run,
              EStateM.run_bind]
            cases (Reader.untilKind .eof (Statement.atTop .standard SyntaxTree.nestingLimit)
              rounds).run next <;> rfl

theorem parseTokens_eq (tokens : List Token) :
    parseTokens tokens = programOf (program.run (Cursor.ofTokens tokens)) :=
  result_ofCursor _ _

theorem parseTokens_eq_error_iff {tokens : List Token} {error : SyntaxError} :
    parseTokens tokens = .error error ↔
      Exists fun stop => program.run (Cursor.ofTokens tokens) = .error error stop := by
  rw [parseTokens_eq]
  cases program.run (Cursor.ofTokens tokens) with
  | ok body stop => simp [programOf]
  | error failure stop => simp [programOf]

end Reading
end ToyFrontend
