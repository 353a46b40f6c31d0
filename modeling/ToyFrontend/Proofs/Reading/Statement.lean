import ToyFrontend.Proofs.Reading.Expression
import ToyFrontend.Reading.Statement

namespace ToyFrontend
namespace Reading
namespace Statement

/-!
# Readers of statements meet their phrases

As with expressions, each form of statement is treated for arbitrary readers of
its parts, and blocks follow by induction over the levels.  Most readers of
statements pass their first token without looking at it: that it is of the right
kind is a fact about the grammar, which announced the form by this very token.

What follows a statement matters in one case only.  A conditional without an
alternative goes on if the word for an alternative stands behind it.
-/

open SyntaxTree (Expr Stmt Block Parameter TypeName)
open Expression (Starts Ends)

/-- The kinds that begin a statement inside a block. -/
def Opens (kind : Token.Kind) : Prop :=
  (Grammar.standard.statement kind).isSome

/-- The kinds that begin a statement at the top of a program. -/
def OpensTop (kind : Token.Kind) : Prop :=
  kind = .functionWord ∨ Opens kind

/-- Which kinds announce a form. -/
def Announces (kind : Token.Kind) : StatementForm -> Prop
  | .declaration => kind = Phrase.declarator (TypeName.ofKind? kind)
  | .assignmentOrCall => kind = .identifier
  | .conditional => kind = .ifWord
  | .loop => kind = .whileWord
  | .function => False
  | .result => kind = .returnWord
  | .print => kind = .printWord

theorem announces_of_statement {kind : Token.Kind} {form : StatementForm}
    (announced : Grammar.standard.statement kind = some form) : Announces kind form := by
  cases kind <;> cases announced <;> rfl

theorem kind_ne_eof_of_statement {kind : Token.Kind} {form : StatementForm}
    (announced : Grammar.standard.statement kind = some form) : kind ≠ .eof := by
  rintro rfl
  cases announced

/-! ## Soundness -/

/-- The name of a type is one token. -/
theorem passes_of_typeName {start stop : Cursor} {type : TypeName} (closed : start.Closed)
    (run : typeName.run start = .ok type stop) :
    start.Passes [start.current] stop ∧ start.kind = type.kind := by
  rw [typeName, Reader.run_kind_bind] at run
  split at run
  next named isType =>
    cases run
    have typed := (TypeName.ofKind?_eq_some_iff.mp isType).symm
    exact ⟨closed.passes_advance (by rw [typed]; cases type <;> decide), typed⟩
  next => cases run

theorem sound_parameter : parameter.Sound Phrase.Parameter := by
  intro start stop value closed run
  rw [parameter, Reader.run_current_bind] at run
  rcases Reader.run_bind_eq_ok_iff.mp run with ⟨type, middle, typeRun, run⟩
  rcases Reader.run_bind_eq_ok_iff.mp run with ⟨name, final, nameRun, run⟩
  cases run
  rcases passes_of_typeName closed typeRun with ⟨passesType, typed⟩
  rcases Reader.passes_of_expect (passesType.closed closed) (by decide) nameRun with
    ⟨passesName, named⟩
  exact ⟨_, passesType.trans passesName, .mk typed named⟩

section Soundness

variable {expression : Reader Expr} {block : Reader Block}
  {expressionPhrase : List Token -> Expr -> Prop} {blockPhrase : List Token -> Block -> Prop}

theorem sound_initializer (sound : expression.Sound expressionPhrase) (type : Option TypeName) :
    (initializer expression type).Sound (Phrase.Initial expressionPhrase type) := by
  intro start stop initial closed run
  rw [initializer, Reader.run_kind_bind] at run
  split at run
  next assigns =>
    rw [Reader.run_advance_bind] at run
    rcases Reader.run_bind_eq_ok_iff.mp run with ⟨value, middle, valueRun, run⟩
    cases run
    have passesToken := closed.passes_advance (by rw [assigns]; decide)
    rcases sound (passesToken.closed closed) valueRun with ⟨passed, passes, spelled⟩
    exact ⟨_, passesToken.trans passes, .some assigns spelled⟩
  next =>
    split at run
    next typed =>
      cases run
      exact ⟨[], .refl _, .none typed⟩
    next => cases run
  next =>
    split at run
    next => cases run
    next => cases run

theorem sound_optionalValue (sound : expression.Sound expressionPhrase) :
    (optionalValue expression).Sound (Phrase.Optional expressionPhrase) := by
  intro start stop value closed run
  rw [optionalValue, Reader.run_kind_bind] at run
  split at run
  next =>
    cases run
    exact ⟨[], .refl _, .none⟩
  next =>
    rcases Reader.run_bind_eq_ok_iff.mp run with ⟨value, middle, valueRun, run⟩
    cases run
    rcases sound closed valueRun with ⟨passed, passes, spelled⟩
    exact ⟨passed, passes, .some spelled⟩

theorem sound_condition (sound : expression.Sound expressionPhrase) :
    (condition expression).Sound (Phrase.Condition expressionPhrase) := by
  intro start stop value closed run
  rw [condition] at run
  rcases Reader.run_bind_eq_ok_iff.mp run with ⟨opening, first, openRun, run⟩
  rcases Reader.passes_of_expect closed (by decide) openRun with ⟨passesOpening, opens⟩
  rcases Reader.followed_ok sound (by decide) (passesOpening.closed closed) run with
    ⟨passed, enclosed, close, passes, spelled, closes, rfl⟩
  exact ⟨_, passesOpening.trans passes, .mk opens spelled closes⟩

theorem statement_of_declaration (sound : expression.Sound expressionPhrase)
    {start stop : Cursor} {statement : Stmt} (closed : start.Closed)
    (declares : start.kind = Phrase.declarator (TypeName.ofKind? start.kind))
    (notMarker : start.kind ≠ .eof)
    (run : (declaration expression).run start = .ok statement stop) :
    Exists fun passed => start.Passes passed stop ∧
      Phrase.Statement expressionPhrase blockPhrase passed statement := by
  rw [declaration, Reader.run_advance_bind] at run
  rcases Reader.run_bind_eq_ok_iff.mp run with ⟨name, first, nameRun, run⟩
  have passesType := closed.passes_advance notMarker
  have closedName := passesType.closed closed
  rcases Reader.passes_of_expect closedName (by decide) nameRun with ⟨passesName, named⟩
  rcases Reader.followed_ok (sound_initializer sound _) (by decide)
    (passesName.closed closedName) run with ⟨passed, initial, last, passes, spelled, ends, rfl⟩
  exact ⟨_, passesType.trans (passesName.trans passes), .declaration declares named spelled ends⟩

/-- The token behind the name has been looked at when the name is passed. -/
theorem statement_of_assignmentOrCall (sound : expression.Sound expressionPhrase)
    {start stop : Cursor} {statement : Stmt} (closed : start.Closed)
    (named : start.kind = .identifier)
    (run : (assignmentOrCall expression).run start = .ok statement stop) :
    Exists fun passed => start.Passes passed stop ∧
      Phrase.Statement expressionPhrase blockPhrase passed statement := by
  have passesName := closed.passes_advance (by rw [named]; decide)
  have closedNext := passesName.closed closed
  rw [assignmentOrCall, Reader.run_nextKind_bind, passesName.nextKind_head] at run
  split at run
  next assigns =>
    rw [assignment, Reader.run_advance_bind, Reader.run_advance_bind] at run
    have passesToken := closedNext.passes_advance (by rw [assigns]; decide)
    rcases Reader.followed_ok sound (by decide) (passesToken.closed closedNext) run with
      ⟨passed, value, last, passes, spelled, ends, rfl⟩
    exact ⟨_, passesName.trans (passesToken.trans passes),
      .assignment named assigns spelled ends⟩
  next =>
    rw [callStatement, Reader.run_advance_bind] at run
    rcases Reader.run_bind_eq_ok_iff.mp run with ⟨⟨arguments, close⟩, first, argumentsRun, run⟩
    rcases Reader.run_bind_eq_ok_iff.mp run with ⟨last, second, lastRun, run⟩
    cases run
    rcases Reader.sound_parenthesised sound closedNext argumentsRun with
      ⟨passed, passes, spelled⟩
    rcases Reader.passes_of_expect (passes.closed closedNext) (by decide) lastRun with
      ⟨passesLast, ends⟩
    exact ⟨_, passesName.trans (passes.trans passesLast), .call named spelled ends⟩
  next => cases run

theorem statement_of_conditional (sound : expression.Sound expressionPhrase)
    (soundBlock : block.Sound blockPhrase) {start stop : Cursor} {statement : Stmt}
    (closed : start.Closed) (begins : start.kind = .ifWord)
    (run : (conditional expression block).run start = .ok statement stop) :
    Exists fun passed => start.Passes passed stop ∧
      Phrase.Statement expressionPhrase blockPhrase passed statement := by
  rw [conditional, Reader.run_advance_bind] at run
  rcases Reader.run_bind_eq_ok_iff.mp run with ⟨test, first, testRun, run⟩
  rcases Reader.run_bind_eq_ok_iff.mp run with ⟨consequent, second, bodyRun, run⟩
  have passesWord := closed.passes_advance (by rw [begins]; decide)
  have closedTest := passesWord.closed closed
  rcases sound_condition sound closedTest testRun with ⟨tokens, passesTest, spelledTest⟩
  have closedBody := passesTest.closed closedTest
  rcases soundBlock closedBody bodyRun with ⟨body, passesBody, spelledBody⟩
  have closedElse := passesBody.closed closedBody
  rw [Reader.run_kind_bind] at run
  split at run
  next turns =>
    rw [Reader.run_advance_bind] at run
    rcases Reader.run_bind_eq_ok_iff.mp run with ⟨alternative, third, otherRun, run⟩
    cases run
    have passesElse := closedElse.passes_advance (by rw [turns]; decide)
    rcases soundBlock (passesElse.closed closedElse) otherRun with
      ⟨other, passesOther, spelledOther⟩
    exact ⟨_, passesWord.trans (passesTest.trans (passesBody.trans
      (passesElse.trans passesOther))),
      .alternative begins spelledTest spelledBody turns spelledOther⟩
  next =>
    cases run
    exact ⟨start.current :: (tokens ++ body), passesWord.trans (passesTest.trans passesBody),
      .conditional begins spelledTest spelledBody⟩

theorem statement_of_loop (sound : expression.Sound expressionPhrase)
    (soundBlock : block.Sound blockPhrase) {start stop : Cursor} {statement : Stmt}
    (closed : start.Closed) (begins : start.kind = .whileWord)
    (run : (loop expression block).run start = .ok statement stop) :
    Exists fun passed => start.Passes passed stop ∧
      Phrase.Statement expressionPhrase blockPhrase passed statement := by
  rw [loop, Reader.run_advance_bind] at run
  rcases Reader.run_bind_eq_ok_iff.mp run with ⟨test, first, testRun, run⟩
  rcases Reader.run_bind_eq_ok_iff.mp run with ⟨body, second, bodyRun, run⟩
  cases run
  have passesWord := closed.passes_advance (by rw [begins]; decide)
  have closedTest := passesWord.closed closed
  rcases sound_condition sound closedTest testRun with ⟨tokens, passesTest, spelledTest⟩
  rcases soundBlock (passesTest.closed closedTest) bodyRun with
    ⟨enclosed, passesBody, spelledBody⟩
  exact ⟨start.current :: (tokens ++ enclosed), passesWord.trans (passesTest.trans passesBody),
    .loop begins spelledTest spelledBody⟩

theorem statement_of_result (sound : expression.Sound expressionPhrase) {start stop : Cursor}
    {statement : Stmt} (closed : start.Closed) (begins : start.kind = .returnWord)
    (run : (result expression).run start = .ok statement stop) :
    Exists fun passed => start.Passes passed stop ∧
      Phrase.Statement expressionPhrase blockPhrase passed statement := by
  rw [result, Reader.run_advance_bind] at run
  have passesWord := closed.passes_advance (by rw [begins]; decide)
  rcases Reader.followed_ok (sound_optionalValue sound) (by decide) (passesWord.closed closed) run
    with ⟨passed, value, last, passes, spelled, ends, rfl⟩
  exact ⟨_, passesWord.trans passes, .result begins spelled ends⟩

theorem statement_of_print (sound : expression.Sound expressionPhrase) {start stop : Cursor}
    {statement : Stmt} (closed : start.Closed) (begins : start.kind = .printWord)
    (run : (print expression).run start = .ok statement stop) :
    Exists fun passed => start.Passes passed stop ∧
      Phrase.Statement expressionPhrase blockPhrase passed statement := by
  rw [print, Reader.run_advance_bind] at run
  have passesWord := closed.passes_advance (by rw [begins]; decide)
  rcases Reader.followed_ok (sound_condition sound) (by decide) (passesWord.closed closed) run with
    ⟨passed, value, last, passes, spelled, ends, rfl⟩
  exact ⟨_, passesWord.trans passes, .print begins spelled ends⟩

theorem sound_announced (expected : List Token.Kind) (sound : expression.Sound expressionPhrase)
    (soundBlock : block.Sound blockPhrase) :
    (announced .standard expected expression block).Sound
      (Phrase.Statement expressionPhrase blockPhrase) := by
  intro start stop statement closed run
  rw [announced, Reader.run_kind_bind] at run
  split at run
  next chosen announced =>
    have announces := announces_of_statement announced
    cases chosen with
    | declaration =>
        exact statement_of_declaration sound closed announces
          (kind_ne_eof_of_statement announced) run
    | assignmentOrCall => exact statement_of_assignmentOrCall sound closed announces run
    | conditional => exact statement_of_conditional sound soundBlock closed announces run
    | loop => exact statement_of_loop sound soundBlock closed announces run
    | function => exact False.elim announces
    | result => exact statement_of_result sound closed announces run
    | print => exact statement_of_print sound closed announces run
  next => cases run

theorem sound_inBlock (sound : expression.Sound expressionPhrase)
    (soundBlock : block.Sound blockPhrase) :
    (inBlock .standard expression block).Sound
      (Phrase.Statement expressionPhrase blockPhrase) := by
  intro start stop statement closed run
  rw [inBlock, Reader.run_kind_bind] at run
  split at run
  next => cases run
  next => exact sound_announced _ sound soundBlock closed run

theorem sound_braced {body : Reader (List Stmt)} {phrase : List Token -> Stmt -> Prop}
    (sound : body.Sound (Phrase.Repeated phrase)) : (braced body).Sound (Phrase.Braced phrase) := by
  intro start stop value closed run
  rw [braced] at run
  rcases Reader.run_bind_eq_ok_iff.mp run with ⟨opening, first, openRun, run⟩
  rcases Reader.passes_of_expect closed (by decide) openRun with ⟨passesOpening, opens⟩
  rcases Reader.followed_ok sound (by decide) (passesOpening.closed closed) run with
    ⟨passed, enclosed, close, passes, spelled, closes, rfl⟩
  exact ⟨_, passesOpening.trans passes, .mk opens spelled closes⟩

theorem sound_statements {statement : Reader Stmt} {phrase : List Token -> Stmt -> Prop}
    (sound : statement.Sound phrase) : (statements statement).Sound (Phrase.Repeated phrase) := by
  intro start stop values closed run
  rw [statements, Reader.run_tokens_bind] at run
  exact Reader.sound_untilKind .closeCurly sound _ closed run

theorem function_of_function (soundBlock : block.Sound blockPhrase) {start stop : Cursor}
    {statement : Stmt} (closed : start.Closed) (begins : start.kind = .functionWord)
    (run : (function block).run start = .ok statement stop) :
    Exists fun passed => start.Passes passed stop ∧
      Phrase.Function blockPhrase passed statement := by
  rw [function, Reader.run_advance_bind] at run
  rcases Reader.run_bind_eq_ok_iff.mp run with ⟨name, first, nameRun, run⟩
  rcases Reader.run_bind_eq_ok_iff.mp run with ⟨⟨parameters, close⟩, second, listRun, run⟩
  rcases Reader.run_bind_eq_ok_iff.mp run with ⟨body, third, bodyRun, run⟩
  cases run
  have passesWord := closed.passes_advance (by rw [begins]; decide)
  have closedName := passesWord.closed closed
  rcases Reader.passes_of_expect closedName (by decide) nameRun with ⟨passesName, named⟩
  have closedList := passesName.closed closedName
  rcases Reader.sound_parenthesised sound_parameter closedList listRun with
    ⟨listed, passesList, spelledList⟩
  rcases soundBlock (passesList.closed closedList) bodyRun with
    ⟨tokens, passesBody, spelledBody⟩
  exact ⟨start.current :: name :: (listed ++ tokens),
    passesWord.trans (passesName.trans (passesList.trans passesBody)),
    .mk begins named spelledList spelledBody⟩

end Soundness

theorem sound_block (levels : Nat) : (block .standard levels).Sound (Phrase.Block levels) := by
  induction levels with
  | zero =>
      intro start stop value _closed run
      rw [block, braced] at run
      rcases Reader.run_bind_eq_ok_iff.mp run with ⟨opening, first, openRun, run⟩
      cases run
  | succ levels inductionHypothesis =>
      exact sound_braced (sound_statements
        (sound_inBlock (Expression.sound_read levels .loosest) inductionHypothesis))

theorem sound_atTop (levels : Nat) : (atTop .standard levels).Sound (Phrase.Top levels) := by
  intro start stop statement closed run
  rw [atTop, Reader.run_kind_bind] at run
  split at run
  next begins =>
    rcases function_of_function (sound_block levels) closed begins run with
      ⟨passed, passes, spelled⟩
    exact ⟨passed, passes, .function spelled⟩
  next =>
    rcases sound_announced _ (Expression.sound_read levels .loosest) (sound_block levels) closed
      run with ⟨passed, passes, spelled⟩
    exact ⟨passed, passes, .statement spelled⟩

/-! ## Completeness -/

theorem statement_declarator (type : Option TypeName) :
    Grammar.standard.statement (Phrase.declarator type) = some .declaration := by
  rcases type with _ | type
  · rfl
  · cases type <;> rfl

theorem ofKind?_declarator (type : Option TypeName) :
    TypeName.ofKind? (Phrase.declarator type) = type := by
  rcases type with _ | type
  · rfl
  · cases type <;> rfl

theorem begins_parameter : Phrase.Begins Phrase.Parameter (· ≠ .closeParen) := by
  intro tokens value spelled
  cases spelled with
  | @mk first name type typed named =>
      refine ⟨_, _, rfl, ?_⟩
      rw [typed]
      cases type <;> decide

theorem begins_statement {expression : List Token -> Expr -> Prop}
    {block : List Token -> Block -> Prop} :
    Phrase.Begins (Phrase.Statement expression block) Opens := by
  intro tokens statement spelled
  cases spelled with
  | declaration declares =>
      exact ⟨_, _, rfl, by rw [declares, Opens, statement_declarator]; rfl⟩
  | assignment named => exact ⟨_, _, rfl, by rw [named]; rfl⟩
  | call named => exact ⟨_, _, rfl, by rw [named]; rfl⟩
  | conditional begins => exact ⟨_, _, rfl, by rw [begins]; rfl⟩
  | alternative begins => exact ⟨_, _, rfl, by rw [begins]; rfl⟩
  | loop begins => exact ⟨_, _, rfl, by rw [begins]; rfl⟩
  | result begins => exact ⟨_, _, rfl, by rw [begins]; rfl⟩
  | print begins => exact ⟨_, _, rfl, by rw [begins]; rfl⟩

theorem begins_top (levels : Nat) : Phrase.Begins (Phrase.Top levels) OpensTop := by
  intro tokens statement spelled
  cases spelled with
  | function spelled =>
      cases spelled with
      | mk begins => exact ⟨_, _, rfl, .inl begins⟩
  | statement spelled =>
      rcases begins_statement spelled with ⟨first, rest, shape, opens⟩
      exact ⟨first, rest, shape, .inr opens⟩

theorem complete_parameter : parameter.Complete Phrase.Parameter (fun _ => True) := by
  intro start stop passed value passes spelled _follows
  cases spelled with
  | @mk first name type typed named =>
      rcases passes.uncons with ⟨middle, passesType, passesName⟩
      have isType := TypeName.ofKind?_eq_some_iff.mpr (passesType.kind_head.trans typed).symm
      have typeRun : typeName.run start = .ok type middle := by
        rw [typeName, Reader.run_kind_bind, isType]
        change EStateM.Result.ok type start.advance = _
        rw [passesType.head.2.eq_of_nil]
      rw [parameter, Reader.run_current_bind, Reader.run_bind_of_ok typeRun,
        Reader.run_bind_of_ok (Reader.run_expect_of_passes passesName named), passesType.head.1]
      rfl

section Completeness

variable {expression : Reader Expr} {block : Reader Block}
  {expressionPhrase : List Token -> Expr -> Prop} {blockPhrase : List Token -> Block -> Prop}

theorem complete_initializer (complete : expression.Complete expressionPhrase (Ends 0))
    (type : Option TypeName) :
    (initializer expression type).Complete (Phrase.Initial expressionPhrase type)
      (· = .semicolon) := by
  intro start stop passed initial passes spelled ends
  rw [initializer, Reader.run_kind_bind]
  cases spelled with
  | none typed =>
      cases passes.eq_of_nil
      rw [ends]
      change (if type.isSome then _ else _ : Reader (Option Expr)).run start = _
      rw [if_pos typed]
      rfl
  | some assigns spelled =>
      have valueRun := complete passes.head.2 spelled (ends ▸ Expression.ends_semicolon)
      rw [passes.kind_head, assigns]
      change (Reader.advance >>= fun _ => expression >>= _).run start = _
      rw [Reader.run_advance_bind, Reader.run_bind_of_ok valueRun]
      rfl

theorem complete_optionalValue (complete : expression.Complete expressionPhrase (Ends 0))
    (begins : Phrase.Begins expressionPhrase Starts) :
    (optionalValue expression).Complete (Phrase.Optional expressionPhrase)
      (· = .semicolon) := by
  intro start stop passed value passes spelled ends
  rw [optionalValue, Reader.run_kind_bind]
  cases spelled with
  | none =>
      cases passes.eq_of_nil
      rw [if_pos ends]
      rfl
  | some spelled =>
      have valueRun := complete passes spelled (ends ▸ Expression.ends_semicolon)
      have notEnd : start.kind ≠ .semicolon := by
        rcases begins spelled with ⟨first, rest, rfl, starts⟩
        rw [passes.kind_head]
        intro same
        rw [same] at starts
        cases starts
      rw [if_neg notEnd, Reader.run_bind_of_ok valueRun]
      rfl

theorem complete_condition (complete : expression.Complete expressionPhrase (Ends 0)) :
    (condition expression).Complete (Phrase.Condition expressionPhrase) (fun _ => True) := by
  rintro start stop passed value passes ⟨opens, spelled, closes⟩ -
  rcases passes.uncons with ⟨first, passesOpening, passes⟩
  rw [condition, Reader.run_bind_of_ok (Reader.run_expect_of_passes passesOpening opens)]
  exact Reader.run_followed complete passes spelled closes Expression.ends_closeParen

theorem complete_arguments (complete : expression.Complete expressionPhrase (Ends 0))
    (begins : Phrase.Begins expressionPhrase Starts) :
    (Reader.parenthesised expression).Complete (Phrase.Parenthesised expressionPhrase)
      (fun _ => True) :=
  Reader.complete_parenthesised complete begins Expression.ends_comma Expression.ends_closeParen
    (by rintro ⟨⟩)

theorem run_declaration (complete : expression.Complete expressionPhrase (Ends 0))
    {type : Option TypeName} {first name last : Token} {tokens : List Token}
    {initial : Option Expr} {start stop : Cursor}
    (passes : start.Passes (first :: name :: (tokens ++ [last])) stop)
    (declares : first.kind = Phrase.declarator type) (named : name.kind = .identifier)
    (spelled : Phrase.Initial expressionPhrase type tokens initial)
    (ends : last.kind = .semicolon) :
    (declaration expression).run start =
      .ok (.declaration type name.text initial (first.span.through last.span)) stop := by
  rcases passes.head with ⟨rfl, later⟩
  rcases later.uncons with ⟨second, passesName, passesRest⟩
  rw [declaration, Reader.run_advance_bind, declares, ofKind?_declarator,
    Reader.run_bind_of_ok (Reader.run_expect_of_passes passesName named)]
  exact Reader.run_followed (complete_initializer complete type) passesRest spelled ends rfl

theorem run_assignment (complete : expression.Complete expressionPhrase (Ends 0))
    {target token last : Token} {tokens : List Token} {value : Expr} {start stop : Cursor}
    (passes : start.Passes (target :: token :: (tokens ++ [last])) stop)
    (assigns : token.kind = .assignment) (spelled : expressionPhrase tokens value)
    (ends : last.kind = .semicolon) :
    (assignmentOrCall expression).run start =
      .ok (.assignment target.text value (target.span.through last.span)) stop := by
  have ahead : start.nextKind = .assignment := by
    rw [passes.nextKind_head, passes.head.2.kind_head, assigns]
  rcases passes.head with ⟨rfl, later⟩
  rw [assignmentOrCall, Reader.run_nextKind_bind, ahead]
  change (assignment expression).run start = _
  rw [assignment, Reader.run_advance_bind, Reader.run_advance_bind]
  exact Reader.run_followed complete later.head.2 spelled ends Expression.ends_semicolon

theorem run_callStatement (complete : expression.Complete expressionPhrase (Ends 0))
    (begins : Phrase.Begins expressionPhrase Starts) {callee last : Token}
    {tokens : List Token} {arguments : List Expr} {close : Source.Span} {start stop : Cursor}
    (passes : start.Passes (callee :: (tokens ++ [last])) stop)
    (spelled : Phrase.Parenthesised expressionPhrase tokens (arguments, close))
    (ends : last.kind = .semicolon) :
    (assignmentOrCall expression).run start =
      .ok (.expression (.call callee.text arguments (callee.span.through close))
        (callee.span.through last.span)) stop := by
  have ahead : start.nextKind = .openParen := by
    rw [passes.nextKind_head]
    cases spelled with
    | mk opens => rw [passes.head.2.kind_head, opens]
  rcases passes.head with ⟨rfl, later⟩
  rcases later.split with ⟨middle, passesArguments, passesLast⟩
  have argumentsRun := complete_arguments complete begins passesArguments spelled trivial
  rw [assignmentOrCall, Reader.run_nextKind_bind, ahead]
  change (callStatement expression).run start = _
  rw [callStatement, Reader.run_advance_bind, Reader.run_bind_of_ok argumentsRun]
  change (Reader.expect .semicolon >>= _).run middle = _
  rw [Reader.run_bind_of_ok (Reader.run_expect_of_passes passesLast ends)]
  rfl

/-- A conditional has a second block exactly where the word for it is ahead. -/
theorem run_conditional (complete : expression.Complete expressionPhrase (Ends 0))
    (completeBlock : block.Complete blockPhrase (fun _ => True)) {first : Token}
    {test body : List Token} {value : Expr} {consequent : Block} {start stop : Cursor}
    (passes : start.Passes (first :: (test ++ body)) stop)
    (spelledTest : Phrase.Condition expressionPhrase test value)
    (spelledBody : blockPhrase body consequent) (notElse : stop.kind ≠ .elseWord) :
    (conditional expression block).run start =
      .ok (.conditional value consequent none (first.span.through consequent.span)) stop := by
  rcases passes.head with ⟨rfl, later⟩
  rcases later.split with ⟨middle, passesTest, passesBody⟩
  have testRun := complete_condition complete passesTest spelledTest trivial
  have bodyRun := completeBlock passesBody spelledBody trivial
  rw [conditional, Reader.run_advance_bind, Reader.run_bind_of_ok testRun,
    Reader.run_bind_of_ok bodyRun, Reader.run_kind_bind, if_neg notElse]
  rfl

theorem run_alternative (complete : expression.Complete expressionPhrase (Ends 0))
    (completeBlock : block.Complete blockPhrase (fun _ => True)) {first otherwise : Token}
    {test body other : List Token} {value : Expr} {consequent alternative : Block}
    {start stop : Cursor}
    (passes : start.Passes (first :: (test ++ (body ++ otherwise :: other))) stop)
    (spelledTest : Phrase.Condition expressionPhrase test value)
    (spelledBody : blockPhrase body consequent) (turns : otherwise.kind = .elseWord)
    (spelledOther : blockPhrase other alternative) :
    (conditional expression block).run start =
      .ok (.conditional value consequent (some alternative)
        (first.span.through alternative.span)) stop := by
  rcases passes.head with ⟨rfl, later⟩
  rcases later.split with ⟨middle, passesTest, passesRest⟩
  rcases passesRest.split with ⟨third, passesBody, passesElse⟩
  have testRun := complete_condition complete passesTest spelledTest trivial
  have bodyRun := completeBlock passesBody spelledBody trivial
  have otherRun := completeBlock passesElse.head.2 spelledOther trivial
  rw [conditional, Reader.run_advance_bind, Reader.run_bind_of_ok testRun,
    Reader.run_bind_of_ok bodyRun, Reader.run_kind_bind,
    if_pos (passesElse.kind_head.trans turns), Reader.run_advance_bind,
    Reader.run_bind_of_ok otherRun]
  rfl

theorem run_loop (complete : expression.Complete expressionPhrase (Ends 0))
    (completeBlock : block.Complete blockPhrase (fun _ => True)) {first : Token}
    {test tokens : List Token} {value : Expr} {body : Block} {start stop : Cursor}
    (passes : start.Passes (first :: (test ++ tokens)) stop)
    (spelledTest : Phrase.Condition expressionPhrase test value)
    (spelledBody : blockPhrase tokens body) :
    (loop expression block).run start =
      .ok (.loop value body (first.span.through body.span)) stop := by
  rcases passes.head with ⟨rfl, later⟩
  rcases later.split with ⟨middle, passesTest, passesBody⟩
  have testRun := complete_condition complete passesTest spelledTest trivial
  have bodyRun := completeBlock passesBody spelledBody trivial
  rw [loop, Reader.run_advance_bind, Reader.run_bind_of_ok testRun, Reader.run_bind_of_ok bodyRun]
  rfl

theorem run_result (complete : expression.Complete expressionPhrase (Ends 0))
    (begins : Phrase.Begins expressionPhrase Starts) {first last : Token} {tokens : List Token}
    {value : Option Expr} {start stop : Cursor}
    (passes : start.Passes (first :: (tokens ++ [last])) stop)
    (spelled : Phrase.Optional expressionPhrase tokens value) (ends : last.kind = .semicolon) :
    (result expression).run start = .ok (.result value (first.span.through last.span)) stop := by
  rcases passes.head with ⟨rfl, later⟩
  rw [result, Reader.run_advance_bind]
  exact Reader.run_followed (complete_optionalValue complete begins) later spelled ends rfl

theorem run_print (complete : expression.Complete expressionPhrase (Ends 0))
    {first last : Token} {tokens : List Token} {value : Expr} {start stop : Cursor}
    (passes : start.Passes (first :: (tokens ++ [last])) stop)
    (spelled : Phrase.Condition expressionPhrase tokens value) (ends : last.kind = .semicolon) :
    (print expression).run start = .ok (.print value (first.span.through last.span)) stop := by
  rcases passes.head with ⟨rfl, later⟩
  rw [print, Reader.run_advance_bind]
  exact Reader.run_followed (complete_condition complete) later spelled ends trivial

theorem run_function (completeBlock : block.Complete blockPhrase (fun _ => True))
    {first name : Token} {listed tokens : List Token} {parameters : List Parameter}
    {close : Source.Span} {body : Block} {start stop : Cursor}
    (passes : start.Passes (first :: name :: (listed ++ tokens)) stop)
    (named : name.kind = .identifier)
    (spelledList : Phrase.Parenthesised Phrase.Parameter listed (parameters, close))
    (spelledBody : blockPhrase tokens body) :
    (function block).run start =
      .ok (.function name.text parameters body (first.span.through body.span)) stop := by
  rcases passes.head with ⟨rfl, later⟩
  rcases later.uncons with ⟨second, passesName, passesRest⟩
  rcases passesRest.split with ⟨third, passesList, passesBody⟩
  have listRun := Reader.complete_parenthesised complete_parameter begins_parameter
    trivial trivial (fun impossible => impossible rfl) passesList spelledList trivial
  have bodyRun := completeBlock passesBody spelledBody trivial
  rw [function, Reader.run_advance_bind,
    Reader.run_bind_of_ok (Reader.run_expect_of_passes passesName named),
    Reader.run_bind_of_ok listRun]
  change (block >>= _).run third = _
  rw [Reader.run_bind_of_ok bodyRun]
  rfl

/-- The first token of a phrase announces the form that reads it. -/
theorem run_announced {start stop : Cursor} {first : Token} {rest : List Token}
    {chosen : StatementForm} (passes : start.Passes (first :: rest) stop)
    (announces : Grammar.standard.statement first.kind = some chosen)
    (expected : List Token.Kind) (expression : Reader Expr) (block : Reader Block) :
    (announced .standard expected expression block).run start =
      (form expression block chosen).run start := by
  rw [announced, Reader.run_kind_bind, passes.kind_head, announces]

theorem complete_announced (expected : List Token.Kind)
    (complete : expression.Complete expressionPhrase (Ends 0))
    (begins : Phrase.Begins expressionPhrase Starts)
    (completeBlock : block.Complete blockPhrase (fun _ => True)) :
    (announced .standard expected expression block).Complete
      (Phrase.Statement expressionPhrase blockPhrase) (· ≠ .elseWord) := by
  intro start stop passed statement passes spelled notElse
  cases spelled with
  | declaration declares named spelled ends =>
      rw [run_announced passes (by rw [declares]; exact statement_declarator _)]
      exact run_declaration complete passes declares named spelled ends
  | assignment named assigns spelled ends =>
      rw [run_announced passes (by rw [named]; rfl)]
      exact run_assignment complete passes assigns spelled ends
  | call named spelled ends =>
      rw [run_announced passes (by rw [named]; rfl)]
      exact run_callStatement complete begins passes spelled ends
  | conditional word spelledTest spelledBody =>
      rw [run_announced passes (by rw [word]; rfl)]
      exact run_conditional complete completeBlock passes spelledTest spelledBody notElse
  | alternative word spelledTest spelledBody turns spelledOther =>
      rw [run_announced passes (by rw [word]; rfl)]
      exact run_alternative complete completeBlock passes spelledTest spelledBody turns
        spelledOther
  | loop word spelledTest spelledBody =>
      rw [run_announced passes (by rw [word]; rfl)]
      exact run_loop complete completeBlock passes spelledTest spelledBody
  | result word spelled ends =>
      rw [run_announced passes (by rw [word]; rfl)]
      exact run_result complete begins passes spelled ends
  | print word spelled ends =>
      rw [run_announced passes (by rw [word]; rfl)]
      exact run_print complete passes spelled ends

theorem complete_inBlock (complete : expression.Complete expressionPhrase (Ends 0))
    (begins : Phrase.Begins expressionPhrase Starts)
    (completeBlock : block.Complete blockPhrase (fun _ => True)) :
    (inBlock .standard expression block).Complete
      (Phrase.Statement expressionPhrase blockPhrase) (· ≠ .elseWord) := by
  intro start stop passed statement passes spelled notElse
  have statementRun := complete_announced (Token.Kind.statementStart ++ [.closeCurly]) complete
    begins completeBlock passes spelled notElse
  have notMarker : start.kind ≠ .eof := by
    rcases begins_statement spelled with ⟨first, rest, rfl, _⟩
    rw [passes.kind_head]
    exact passes.proper first (by simp)
  rw [inBlock, Reader.run_kind_bind, if_neg notMarker]
  exact statementRun

theorem complete_statements {statement : Reader Stmt} {phrase : List Token -> Stmt -> Prop}
    (complete : statement.Complete phrase (· ≠ .elseWord)) (begins : Phrase.Begins phrase Opens) :
    (statements statement).Complete (Phrase.Repeated phrase) (· = .closeCurly) := by
  intro start stop passed values passes spelled closes
  have goesOn : forall kind, Opens kind -> kind ≠ .elseWord := by
    rintro kind opens rfl
    cases opens
  rw [statements, Reader.run_tokens_bind]
  exact Reader.run_untilKind complete begins goesOn (by decide) (by rintro ⟨⟩) spelled passes
    closes _ (Nat.le_refl _)

theorem complete_braced {body : Reader (List Stmt)} {phrase : List Token -> Stmt -> Prop}
    (complete : body.Complete (Phrase.Repeated phrase) (· = .closeCurly)) :
    (braced body).Complete (Phrase.Braced phrase) (fun _ => True) := by
  rintro start stop passed value passes ⟨opens, spelled, closes⟩ -
  rcases passes.uncons with ⟨first, passesOpening, passes⟩
  rw [braced, Reader.run_bind_of_ok (Reader.run_expect_of_passes passesOpening opens)]
  exact Reader.run_followed complete passes spelled closes rfl

end Completeness

theorem complete_block (levels : Nat) :
    (block .standard levels).Complete (Phrase.Block levels) (fun _ => True) := by
  induction levels with
  | zero =>
      intro start stop passed value _passes spelled
      exact False.elim spelled
  | succ levels inductionHypothesis =>
      have complete := complete_inBlock (Expression.complete_read levels .loosest)
        (Expression.begins_expression levels 0) inductionHypothesis
      exact complete_braced (complete_statements complete begins_statement)

theorem complete_atTop (levels : Nat) :
    (atTop .standard levels).Complete (Phrase.Top levels) (· ≠ .elseWord) := by
  intro start stop passed statement passes spelled notElse
  rw [atTop, Reader.run_kind_bind]
  cases spelled with
  | function spelled =>
      cases spelled with
      | mk begins named spelledList spelledBody =>
          rw [if_pos (passes.kind_head.trans begins)]
          exact run_function (complete_block levels) passes named spelledList spelledBody
  | statement spelled =>
      have notFunction : start.kind ≠ .functionWord := by
        rcases begins_statement spelled with ⟨first, rest, rfl, opens⟩
        rw [passes.kind_head]
        intro same
        rw [same] at opens
        cases opens
      rw [if_neg notFunction]
      exact complete_announced _ (Expression.complete_read levels .loosest)
        (Expression.begins_expression levels 0) (complete_block levels) passes spelled
        notElse

end Statement
end Reading
end ToyFrontend
