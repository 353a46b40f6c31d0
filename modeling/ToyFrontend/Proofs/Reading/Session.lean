import ToyFrontend.Proofs.Reading.Termination

namespace ToyFrontend
namespace Reading
namespace Session

/-!
# Sessions stay sound

A session may be asked for anything in any order: to read a form where it does not
stand, with a grammar that assigns forms to arbitrary tokens, and to go on behind
an error.  The cursor then still stands in the tokens that the session began with,
before or at their first end marker, and it only ever moves forward.  The number of
levels that are taken changes with the steps that take levels and give them back,
and with no other.

A reader could not change it: it is told how many levels are open and has none to
keep.  A procedure keeps them itself, one level for each expression and each block
that it is in.  So it is of procedures that one can ask whether all levels are given
back, also behind an error, and `Balanced` says that they are.
-/

open SyntaxTree (Expr Stmt Block TypeName)

/-- The session after several steps, whatever they answered. -/
def after (session : Session) (actions : List Action) : Session :=
  actions.foldl (fun session action => (session.step action).1) session

/-- The number of levels that are taken after a step. -/
def Action.depthAfter : Action -> Nat -> Nat
  | .enter times, depth => min (depth + times) SyntaxTree.nestingLimit
  | .leave times, depth => depth - times
  | _, depth => depth

/-- The procedure that a step carries out, if it is to read something with levels in it. -/
def Action.procedure? : Action -> Option (Sigma Procedure)
  | .topStatement => some ⟨Stmt, .topStatement⟩
  | .statement => some ⟨Stmt, .statement⟩
  | .statementForm form => some ⟨Stmt, .statementForm form⟩
  | .block => some ⟨Block, .block⟩
  | .typeName => some ⟨TypeName, .typeName⟩
  | .expression power => some ⟨Expr, .expression power⟩
  | .expressionForm form => some ⟨Expr, .expressionForm form⟩
  | .operation left power => some ⟨Expr, .operation left power⟩
  | .arguments => some ⟨List Expr × Source.Span, .arguments⟩
  | _ => none

/-- Levels that are taken are given back. -/
structure Balanced (session : Session) (action : Action) : Prop where
  /-- Every procedure ends at the depth at which it began. -/
  restored : forall {Result : Type} (procedure : Procedure Result), Exists fun next =>
    procedure.Leads session next ∧ next.depth = session.depth
  /-- A step leads where the procedure that it carries out leads. -/
  carriedOut : forall {Result : Type} (procedure : Procedure Result),
    action.procedure? = some ⟨Result, procedure⟩ ->
    procedure.Leads session (session.step action).1

/-- What holds of a session over a list of tokens. -/
structure Sound (tokens : List Token) (session : Session) : Prop where
  /-- The tokens before the cursor and those from it on make up the list, and no end marker
  is before it. -/
  placed : Exists fun passed => withEndMarker tokens = passed ++ session.cursor.tokens ∧
    forall token, token ∈ passed -> token.kind ≠ .eof
  marked : session.cursor.tokens.getLast?.map Token.kind = some .eof
  within : session.depth <= SyntaxTree.nestingLimit

/-! ## Steps -/

/-- A reader has no part in a session but the cursor. -/
theorem apply_fst {Result : Type} (session : Session) (reader : Reader Result)
    (answer : Result -> Answer) :
    (session.apply reader answer).1 = { session with cursor := reader.stop session.cursor } := by
  unfold apply Reader.stop
  cases reader.run session.cursor <;> rfl

/-- Levels are taken as long as there are any. -/
theorem enterTimes_fst {session : Session} (within : session.depth <= SyntaxTree.nestingLimit)
    (times : Nat) :
    (enterTimes times session).1 =
      { session with depth := min (session.depth + times) SyntaxTree.nestingLimit } := by
  induction times generalizing session with
  | zero =>
      rw [Nat.add_zero, Nat.min_eq_left within]
      rfl
  | succ times inductionHypothesis =>
      rw [enterTimes, enter]
      by_cases isOpen : session.depth < SyntaxTree.nestingLimit
      · rw [if_pos isOpen]
        have later := @inductionHypothesis { session with depth := session.depth + 1 } isOpen
        rw [show session.depth + 1 + times = session.depth + (times + 1) by omega] at later
        exact later
      · rw [if_neg isOpen]
        have full : session.depth = SyntaxTree.nestingLimit := by omega
        rw [Nat.min_eq_right (by omega), ← full]

/-- A step leads forward, and only levels that are asked for are taken or given back. -/
theorem reaches_step {session : Session} (within : session.depth <= SyntaxTree.nestingLimit)
    (action : Action) :
    session.cursor.Reaches (session.step action).1.cursor ∧
      (session.step action).1.depth = action.depthAfter session.depth := by
  have reads {Result : Type} {reader : Reader Result} (onward : reader.Onward)
      (answer : Result -> Answer) :
      session.cursor.Reaches (session.apply reader answer).1.cursor ∧
        (session.apply reader answer).1.depth = session.depth := by
    rw [apply_fst]
    exact ⟨onward session.cursor, rfl⟩
  cases action with
  | look | leave | blame | grammar | adoptStandard | setBinding | setLeading | setStatement =>
      exact ⟨.refl session.cursor, rfl⟩
  | enter times =>
      rw [step, enterTimes_fst within]
      exact ⟨.refl session.cursor, rfl⟩
  | advance => exact reads Reader.onward_advance _
  | expect kind => exact reads (Reader.onward_expect kind) _
  | topStatement => exact reads (Statement.consumes_atTop _).onward _
  | statement => exact reads (Statement.consumes_read _).onward _
  | statementForm form => exact reads (Statement.consumes_ofForm _ form).onward _
  | block => exact reads (Statement.consumes_block _).onward _
  | typeName => exact reads Statement.consumes_typeName.onward _
  | expression power => exact reads (Expression.consumes_read _ power).onward _
  | expressionForm form => exact reads (Expression.consumes_ofForm _ form).onward _
  | operation _ power =>
      exact reads (Expression.consumes_binary (Expression.consumes_read _ power).onward _).onward _
  | arguments =>
      exact reads (Reader.consumes_parenthesised (Statement.onward_whole _)).onward _

theorem fst_step_of_procedure {session : Session} {action : Action} {Result : Type}
    {procedure : Procedure Result} (asks : action.procedure? = some ⟨Result, procedure⟩) :
    (session.step action).1 =
      { session with
        cursor := (procedure.reader session.grammar session.levels).stop session.cursor } := by
  cases action with
  | look | advance | expect | enter | leave | blame | grammar | adoptStandard | setBinding
  | setLeading | setStatement => cases asks
  | topStatement | statement | statementForm | block | typeName | expression | expressionForm
  | operation | arguments =>
      cases asks
      exact apply_fst session _ _

theorem depthAfter_le {depth : Nat} (within : depth <= SyntaxTree.nestingLimit)
    (action : Action) : action.depthAfter depth <= SyntaxTree.nestingLimit := by
  unfold Action.depthAfter
  split <;> omega

/-- The last token ahead stays the last one. -/
theorem Sound.of_reaches {tokens : List Token} {session next : Session}
    (sound : Sound tokens session) (reaches : session.cursor.Reaches next.cursor)
    (within : next.depth <= SyntaxTree.nestingLimit) : Sound tokens next := by
  rcases reaches with ⟨more, passes⟩
  rcases sound.placed with ⟨passed, shape, proper⟩
  refine ⟨⟨passed ++ more, ?_, ?_⟩, ?_, within⟩
  · rw [shape, passes.tokens_eq, List.append_assoc]
  · intro token member
    rcases List.mem_append.mp member with early | late
    · exact proper token early
    · exact passes.proper token late
  · have marked := sound.marked
    rw [passes.tokens_eq, Cursor.getLast?_append_tokens] at marked
    exact marked

theorem Sound.step {tokens : List Token} {session : Session} (sound : Sound tokens session)
    (action : Action) : Sound tokens (session.step action).1 := by
  rcases reaches_step sound.within action with ⟨reaches, depth⟩
  exact sound.of_reaches reaches (depth ▸ depthAfter_le sound.within action)

theorem Sound.balanced {tokens : List Token} {session : Session} (sound : Sound tokens session)
    (action : Action) : Balanced session action := by
  rcases sound.placed with ⟨passed, place, -⟩
  have closed := Cursor.closed_of_place place
  constructor
  · intro Result procedure
    exact ⟨_, Procedure.leads_reader closed sound.within procedure, rfl⟩
  · intro Result procedure asks
    rw [fst_step_of_procedure asks]
    exact Procedure.leads_reader closed sound.within procedure

/-! ## Runs -/

theorem sound_ofTokens (tokens : List Token) : Sound tokens (ofTokens tokens) where
  placed := ⟨[], (Cursor.tokens_ofTokens tokens).symm, by simp⟩
  marked := by
    rw [ofTokens, Cursor.tokens_ofTokens]
    exact Cursor.getLast?_withEndMarker tokens
  within := Nat.zero_le _

/-- Along any steps a session stays sound, and its cursor does not go back. -/
theorem Sound.after {tokens : List Token} {session : Session} (sound : Sound tokens session)
    (actions : List Action) :
    Sound tokens (session.after actions) ∧
      session.cursor.Reaches (session.after actions).cursor := by
  induction actions generalizing session with
  | nil => exact ⟨sound, .refl session.cursor⟩
  | cons action actions inductionHypothesis =>
      rcases inductionHypothesis (sound.step action) with ⟨soundLast, reaches⟩
      exact ⟨soundLast, (reaches_step sound.within action).1.trans reaches⟩

/-- Whatever a session was asked for before, it is sound, it will only go forward, and the
next step takes or gives back the levels that it is asked to and no others: what it reads gives
back all levels that are taken for it. -/
theorem sound_session (tokens : List Token) (earlier later : List Action) (action : Action) :
    let session := (ofTokens tokens).after earlier
    Sound tokens session ∧
      session.cursor.Reaches (session.after later).cursor ∧
      (session.step action).1.depth = action.depthAfter session.depth ∧
      Balanced session action := by
  have sound := ((sound_ofTokens tokens).after earlier).1
  exact ⟨sound, (sound.after later).2, (reaches_step sound.within action).2,
    sound.balanced action⟩

end Session
end Reading
end ToyFrontend
