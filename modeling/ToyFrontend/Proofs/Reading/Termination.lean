import ToyFrontend.Proofs.Reading.Correspondence
import ToyFrontend.Proofs.Reading.Locality

namespace ToyFrontend
namespace Reading

/-!
# Reading ends

Procedures call each other without counting, and yet every one of them ends, with
any grammar and at any cursor.  What a call costs is measured by the tokens ahead,
by the levels that are left and by a rank, in this order, and a procedure only makes
calls that cost less than it does.  So the calls inside each other are bounded, and
a procedure that is allowed that many does what its reader does.

A procedure that succeeds has taken a token, except for those that go on with a list
and may find it ended.
-/

open SyntaxTree (Stmt nestingLimit)

namespace Process

variable {Result : Type}

/-- The session that a run leads to, with a result or without one. -/
def last : EStateM.Result Interruption Session Result -> Session
  | .ok _ session => session
  | .error _ session => session

theorem last_ending (session : Session) (reader : Reader Result) :
    last (session.ending (reader.run session.cursor)) =
      { session with cursor := reader.stop session.cursor } := by
  unfold Reader.stop
  cases reader.run session.cursor <;> rfl

end Process

namespace Procedure

open Process (Matches matches_read last_ending)
open Reader (Onward)

variable {call : Calls} {grammar : Grammar} {depth levels ahead : Nat}

/-- What a procedure does with such calls is what its reader does. -/
theorem matches_body {Result : Type} (procedure : Procedure Result)
    (serves : Serves call grammar depth levels ahead procedure.rank)
    (whole : levels + depth = nestingLimit) :
    Matches grammar depth (ahead + 1) (body call procedure) (procedure.reader grammar levels) := by
  have onward : Onward (Expression.whole grammar levels) := Statement.onward_whole levels
  cases procedure with
  | expression power => exact matches_expression serves whole power
  | climb power left => exact matches_climb serves power left
  | operation left power => exact matches_operation serves left power
  | leading => exact matches_leading serves
  | expressionForm form => exact matches_expressionForm form serves
  | arguments => exact Process.matches_parenthesised onward (serves.later .moreArguments)
  | moreArguments =>
      exact Process.matches_moreItems (Expression.consumes_read levels .loosest)
        (serves.lower (.expression .loosest) (Nat.succ_pos _)) (serves.later .moreArguments)
  | typeName => exact matches_read _
  | moreParameters =>
      exact Process.matches_moreItems Statement.consumes_parameter (matches_read _)
        (serves.later .moreParameters)
  | statementForm form => exact matches_statementForm form serves
  | statement => exact matches_statement serves
  | topStatement => exact matches_topStatement serves
  | block => exact matches_block serves whole
  | moreStatements =>
      exact Process.matches_untilKind
        (Statement.consumes_inBlock onward (Statement.consumes_block levels).onward)
        (matches_inBlock serves) (serves.later .moreStatements)
  | moreProgram =>
      exact Process.matches_untilKind (Statement.consumes_atTop levels)
        (serves.lower .topStatement (by decide)) (serves.later .moreProgram)

/-- How many calls inside each other a procedure needs at most: tokens count more than levels,
and levels more than ranks. -/
def cost {Result : Type} (procedure : Procedure Result) (ahead levels : Nat) : Nat :=
  (ahead * (nestingLimit + 1) + levels) * 5 + procedure.rank

theorem rank_lt {Result : Type} (procedure : Procedure Result) : procedure.rank < 5 := by
  unfold Procedure.rank
  split <;> decide

theorem matches_run (calls : Nat) {Result : Type} (procedure : Procedure Result)
    (whole : levels + depth = nestingLimit) (enough : procedure.cost ahead levels < calls) :
    Matches grammar depth ahead (run calls procedure) (procedure.reader grammar levels) := by
  induction calls generalizing Result depth levels ahead with
  | zero => exact absurd enough (Nat.not_lt_zero _)
  | succ calls inductionHypothesis =>
      cases ahead with
      | zero =>
          intro cursor closed within
          exact absurd within (Nat.not_le.mpr cursor.tokens_length_pos)
      | succ ahead =>
          unfold cost at enough inductionHypothesis
          have token := Nat.add_one_mul ahead (nestingLimit + 1)
          refine matches_body procedure ⟨?_, ?_, ?_⟩ whole
          · intro Other other
            have bound := other.rank_lt
            exact inductionHypothesis other whole (by omega)
          · intro fewer level Other other
            have bound := other.rank_lt
            exact inductionHypothesis other (by omega) (by omega)
          · intro Other other below
            exact inductionHypothesis other whole (by omega)

/-! ## The end of a procedure -/

/-- This is how the procedure ends in a session, as soon as it is allowed enough calls inside
each other. -/
def Ends {Result : Type} (procedure : Procedure Result) (session : Session)
    (outcome : EStateM.Result SyntaxError Cursor Result) : Prop :=
  Exists fun enough => forall calls, enough <= calls ->
    (run calls procedure).run session = session.ending outcome

theorem ends_reader {session : Session} (closed : session.cursor.Closed)
    (within : session.depth <= nestingLimit) {Result : Type} (procedure : Procedure Result) :
    procedure.Ends session
      ((procedure.reader session.grammar session.levels).run session.cursor) := by
  refine ⟨procedure.cost session.cursor.tokens.length session.levels + 1, ?_⟩
  intro calls enough
  have whole : session.levels + session.depth = nestingLimit := Nat.sub_add_cancel within
  exact matches_run calls procedure whole enough closed (Nat.le_refl _)

/-- The procedure leads from one session to the other, as soon as it is allowed enough calls inside
each other. -/
def Leads {Result : Type} (procedure : Procedure Result) (session next : Session) : Prop :=
  Exists fun enough => forall calls, enough <= calls ->
    Process.last ((run calls procedure).run session) = next

/-- However many levels a procedure takes on its way, there are as many open behind it as before,
and the grammar is the same. -/
theorem leads_reader {session : Session} (closed : session.cursor.Closed)
    (within : session.depth <= nestingLimit) {Result : Type} (procedure : Procedure Result) :
    procedure.Leads session
      { session with
        cursor := (procedure.reader session.grammar session.levels).stop session.cursor } := by
  rcases ends_reader closed within procedure with ⟨enough, ends⟩
  refine ⟨enough, fun calls isEnough => ?_⟩
  rw [ends calls isEnough, last_ending]

theorem consumes_reader {Result : Type} (procedure : Procedure Result)
    (takes : procedure.takes = true) : (procedure.reader grammar levels).Consumes := by
  have onward : Onward (Expression.whole grammar levels) := Statement.onward_whole levels
  cases procedure with
  | expression power => exact Expression.consumes_read levels power
  | climb power left => cases takes
  | operation left power =>
      exact Expression.consumes_binary (Expression.consumes_read levels power).onward left
  | leading => exact Expression.consumes_announced onward (Expression.consumes_operation onward)
  | expressionForm form => exact Expression.consumes_ofForm levels form
  | arguments => exact Reader.consumes_parenthesised onward
  | moreArguments => exact Reader.consumes_commaSeparated (Expression.consumes_read levels .loosest)
  | typeName => exact Statement.consumes_typeName
  | moreParameters => exact Reader.consumes_commaSeparated Statement.consumes_parameter
  | statementForm form => exact Statement.consumes_ofForm levels form
  | statement => exact Statement.consumes_read levels
  | topStatement => exact Statement.consumes_atTop levels
  | block => exact Statement.consumes_block levels
  | moreStatements => cases takes
  | moreProgram => cases takes

/-- With any grammar, at any place of any list of tokens and at any depth, every procedure ends,
and where it succeeds it has passed at least one token, unless it goes on with a list that may be
at its end.  The statements of a program are read like this from every list of tokens. -/
theorem ends_and_takes :
    (forall (tokens passed : List Token) (session : Session),
      withEndMarker tokens = passed ++ session.cursor.tokens ->
      session.depth <= nestingLimit ->
      forall {Result : Type} (procedure : Procedure Result), Exists fun outcome =>
        procedure.Ends session outcome ∧
        outcome = (procedure.reader session.grammar session.levels).run session.cursor ∧
        (procedure.takes = true -> forall result stop, outcome = .ok result stop ->
          Exists fun token => Exists fun more => session.cursor.Passes (token :: more) stop)) ∧
    (forall tokens : List Token, Exists fun outcome =>
      moreProgram.Ends { cursor := .ofTokens tokens, grammar := .standard, depth := 0 } outcome ∧
      parseTokens tokens = programOf outcome) := by
  constructor
  · intro tokens passed session place within Result procedure
    have closed := Cursor.closed_of_place place
    refine ⟨_, ends_reader closed within procedure, rfl, ?_⟩
    intro takes result stop run
    have consumes : (procedure.reader session.grammar session.levels).Consumes :=
      consumes_reader procedure takes
    have shorter := consumes.progress closed run
    rcases consumes.onward.reaches run with ⟨ _ | ⟨token, more⟩, passes⟩
    · rw [passes.eq_of_nil] at shorter
      exact absurd shorter (Nat.lt_irrefl _)
    · exact ⟨token, more, passes⟩
  · intro tokens
    refine ⟨_, ends_reader (Cursor.closed_ofTokens tokens) (Nat.zero_le _) moreProgram, ?_⟩
    exact parseTokens_eq tokens

/-- A number, an end marker and a closing parenthesis. -/
def markedInside : List Token :=
  [{ kind := .intLiteral, text := "1", value := some (.int 1), span := .point .start },
    Token.endMarker .start,
    { kind := .closeParen, text := ")", value := none, span := .point .start }]

/-- A session at the number, where end markers begin groupings. -/
def atNumber : Session where
  cursor := .ofTokens markedInside
  grammar := Grammar.standard.withLeading .eof .grouping
  depth := 0

/-- The session at the marker behind the number, with one level left. -/
def atMarker : Session :=
  { atNumber with cursor := atNumber.cursor.advance, depth := 255 }

/-- At the number an expression ends with the token taken.  At the marker, which is not passed,
it ends because no level is left for the expression inside the grouping. -/
theorem ends_at_groupingMarker :
    (Exists fun token => Exists fun more =>
      atNumber.cursor.Passes (token :: more) atMarker.cursor) ∧
    (expression .loosest).Ends atMarker
      (.error (SyntaxError.blame .nestingTooDeep [] (Token.endMarker .start)) atMarker.cursor) := by
  constructor
  · rcases ends_and_takes.1 markedInside [] atNumber rfl (by decide) (expression .loosest) with
      ⟨outcome, -, shape, takes⟩
    exact takes rfl _ _ (shape.trans rfl)
  · rcases ends_and_takes.1 markedInside [atNumber.cursor.current] atMarker rfl (by decide)
        (expression .loosest) with ⟨outcome, ends, shape, -⟩
    rw [show outcome = _ from shape.trans rfl] at ends
    exact ends

end Procedure

end Reading
end ToyFrontend
