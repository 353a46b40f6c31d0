import ToyFrontend.Proofs.Nesting.Expression

namespace ToyFrontend
namespace Reading
namespace Statement

/-!
# Statements beyond the bound

The verdict on a statement.  A block takes a level too, but it is never the block
that fails: a loop or a conditional reads its condition first, with the same
levels, and where none is left the condition has sunk before the block is
reached.  A verdict on blocks is therefore needed only where some expression is
within the bound.
-/

open SyntaxTree (Entries Expr Stmt Block TypeName)
open SyntaxTree.Entries
open Reader
open Expression (Ends Starts)

section Forms

variable {expression : Reader Expr} {block : Reader Block}
  {narrow wide : List Token -> Expr -> Prop} {narrowBlock wideBlock : List Token -> Block -> Prop}
  {depth level : Nat}

theorem decides_initializer
    (decides : expression.Decides narrow wide (Expr.entries (depth + 1)) level)
    (type : Option TypeName) :
    (initializer expression type).Decides (Phrase.Initial narrow type) (Phrase.Initial wide type)
      (Stmt.initialEntries (depth + 1)) level := by
  intro tokens initial spelled
  cases spelled with
  | none typed => exact .fits (.none typed) (quiet_none [])
  | @some token tokens value assigns spelled =>
      refine (decides spelled).ahead (quiet_none [token]) (fun spelled => .some assigns spelled) ?_
      intro before last _ sinks start stop passes here
      rw [initializer, run_kind_bind, passes.kind_head, assigns]
      exact (sinks.bind _).advance passes here

theorem decides_optionalValue
    (decides : expression.Decides narrow wide (Expr.entries (depth + 1)) level)
    (begins : Phrase.Begins wide Starts) :
    (optionalValue expression).Decides (Phrase.Optional narrow) (Phrase.Optional wide)
      (Stmt.optionalEntries (depth + 1)) level := by
  intro tokens value spelled
  cases spelled with
  | none => exact .fits .none (quiet_none [])
  | some spelled =>
      rcases begins spelled with ⟨first, rest, rfl, starts⟩
      refine (decides spelled).ahead (quiet_none []) (fun spelled => .some spelled) ?_
      intro before last leftmost sinks start stop passes here
      have notEnd : start.kind ≠ .semicolon := by
        rw [Cursor.kind, leftmost.current passes here]
        intro same
        rw [same] at starts
        cases starts
      rw [optionalValue, run_kind_bind, if_neg notEnd]
      exact sinks.bind _ passes here

theorem decides_condition
    (decides : expression.Decides narrow wide (Expr.entries (depth + 1)) level) :
    (condition expression).Decides (Phrase.Condition narrow) (Phrase.Condition wide)
      (fun value => Entries.parenthesised (value.entries (depth + 1))) level := by
  rintro tokens value ⟨opens, spelled, closes⟩
  exact (decides spelled).within (quiet_none [_]) (quiet_none [_])
    (fun spelled => .mk opens spelled closes) (fun _ sinks => (sinks.bind _).expect opens)

/-! ### Forms of statements -/

theorem verdict_declaration
    (decides : expression.Decides narrow wide (Expr.entries (depth + 1)) level)
    {type : Option TypeName} {first name last : Token} {tokens : List Token}
    {initial : Option Expr} (declares : first.kind = Phrase.declarator type)
    (named : name.kind = .identifier) (spelled : Phrase.Initial wide type tokens initial)
    (ends : last.kind = .semicolon) :
    (declaration expression).Verdict (Phrase.Statement narrow narrowBlock) level
      (none :: none :: (Stmt.initialEntries (depth + 1) initial ++ [none]))
      (first :: name :: (tokens ++ [last]))
      (.declaration type name.text initial (first.span.through last.span)) := by
  refine (decides_initializer decides type spelled).within (quiet_none [first, name])
    (quiet_none [last]) (fun spelled => .declaration declares named spelled ends) ?_
  intro before token _ sinks
  have typed : TypeName.ofKind? first.kind = type := by
    rw [declares, ofKind?_declarator]
  subst typed
  exact ((sinks.bind _).expect named).advance

theorem verdict_assignment
    (decides : expression.Decides narrow wide (Expr.entries (depth + 1)) level)
    {target equals last : Token} {tokens : List Token} {value : Expr}
    (named : target.kind = .identifier) (assigns : equals.kind = .assignment)
    (spelled : wide tokens value) (ends : last.kind = .semicolon) :
    (assignmentOrCall expression).Verdict (Phrase.Statement narrow narrowBlock) level
      (none :: none :: (value.entries (depth + 1) ++ [none]))
      (target :: equals :: (tokens ++ [last]))
      (.assignment target.text value (target.span.through last.span)) := by
  refine (decides spelled).within (quiet_none [target, equals]) (quiet_none [last])
    (fun spelled => .assignment named assigns spelled ends) ?_
  intro before token _ sinks start stop passes here
  have ahead : start.nextKind = .assignment := by
    rw [passes.nextKind_head, passes.head.2.kind_head]
    exact assigns
  rw [assignmentOrCall, run_nextKind_bind, ahead]
  exact (sinks.bind _).advance.advance passes here

theorem verdict_callStatement
    (decides : expression.Decides narrow wide (Expr.entries (depth + 1)) level)
    (complete : expression.Complete narrow (Ends 0)) (begins : Phrase.Begins wide Starts)
    {callee last : Token} {tokens : List Token} {arguments : List Expr} {close : Source.Span}
    (named : callee.kind = .identifier)
    (spelled : Phrase.Parenthesised wide tokens (arguments, close))
    (ends : last.kind = .semicolon) :
    (assignmentOrCall expression).Verdict (Phrase.Statement narrow narrowBlock) level
      (none :: (Entries.parenthesised
        (Entries.separated (arguments.map (Expr.entries (depth + 1)))) ++ [none]))
      (callee :: (tokens ++ [last]))
      (.expression (.call callee.text arguments (callee.span.through close))
        (callee.span.through last.span)) := by
  refine (Expression.decides_arguments decides complete begins spelled).within
    (quiet_none [callee]) (quiet_none [last]) (fun spelled => .call named spelled ends) ?_
  intro before token leftmost sinks start stop passes here
  have ahead : start.nextKind = .openParen := by
    cases spelled with
    | mk opens =>
        rw [passes.nextKind_head, Cursor.kind, leftmost.current passes.head.2 here, opens]
  rw [assignmentOrCall, run_nextKind_bind, ahead]
  exact (sinks.bind _).advance passes here

/-- The condition is read before anything behind it. -/
theorem verdict_behind_test
    (decides : expression.Decides narrow wide (Expr.entries (depth + 1)) level)
    {reader : Reader Stmt} {statement : Stmt} {first : Token} {test rest : List Token}
    {value : Expr} {entries : Entries} (spelledTest : Phrase.Condition wide test value)
    (sink : forall {before token}, (condition expression).Sinks before token ->
      reader.Sinks (first :: before) token)
    (behind : Phrase.Condition narrow test value ->
      Quiet level (none :: Entries.parenthesised (value.entries (depth + 1))) (first :: test) ->
      reader.Verdict (Phrase.Statement narrow narrowBlock) level
        (none :: (Entries.parenthesised (value.entries (depth + 1)) ++ entries))
        (first :: (test ++ rest)) statement) :
    reader.Verdict (Phrase.Statement narrow narrowBlock) level
      (none :: (Entries.parenthesised (value.entries (depth + 1)) ++ entries))
      (first :: (test ++ rest)) statement := by
  cases decides_condition decides spelledTest with
  | fits spelled quiet => exact behind spelled ((quiet_none [first]).append quiet)
  | sinks leftmost sinks =>
      exact .sinks ((leftmost.behind entries rest).ahead (quiet_none [first])) (sink sinks)

section Blocks

variable (decides : expression.Decides narrow wide (Expr.entries (depth + 1)) level)
  (complete : expression.Complete narrow (Ends 0))
  (decidesBlock : forall {test value}, Phrase.Condition narrow test value ->
    block.Decides narrowBlock wideBlock (Stmt.blockEntries (depth + 1)) level)
  (completeBlock : block.Complete narrowBlock (fun _ => True))

include decides complete decidesBlock

theorem verdict_conditional {first : Token} {test body : List Token} {value : Expr}
    {consequent : Block} (word : first.kind = .ifWord)
    (spelledTest : Phrase.Condition wide test value) (spelledBody : wideBlock body consequent) :
    (conditional expression block).Verdict (Phrase.Statement narrow narrowBlock) level
      (none :: (Entries.parenthesised (value.entries (depth + 1)) ++
        Stmt.blockEntries (depth + 1) consequent))
      (first :: (test ++ body))
      (.conditional value consequent none (first.span.through consequent.span)) := by
  refine verdict_behind_test decides spelledTest (fun sinks => (sinks.bind _).advance) ?_
  intro spelledTest quiet
  refine (decidesBlock spelledTest spelledBody).ahead quiet
    (fun spelledBody => .conditional word spelledTest spelledBody) ?_
  intro before token _ sinks
  exact (Sinks.after (complete_condition complete) spelledTest (sinks.bind _)).advance

theorem verdict_loop {first : Token} {test tokens : List Token} {value : Expr} {body : Block}
    (word : first.kind = .whileWord) (spelledTest : Phrase.Condition wide test value)
    (spelledBody : wideBlock tokens body) :
    (loop expression block).Verdict (Phrase.Statement narrow narrowBlock) level
      (none :: (Entries.parenthesised (value.entries (depth + 1)) ++
        Stmt.blockEntries (depth + 1) body))
      (first :: (test ++ tokens)) (.loop value body (first.span.through body.span)) := by
  refine verdict_behind_test decides spelledTest (fun sinks => (sinks.bind _).advance) ?_
  intro spelledTest quiet
  refine (decidesBlock spelledTest spelledBody).ahead quiet
    (fun spelledBody => .loop word spelledTest spelledBody) ?_
  intro before token _ sinks
  exact (Sinks.after (complete_condition complete) spelledTest (sinks.bind _)).advance

include completeBlock

theorem verdict_alternative {first otherwise : Token} {test body other : List Token} {value : Expr}
    {consequent alternative : Block} (word : first.kind = .ifWord)
    (spelledTest : Phrase.Condition wide test value) (spelledBody : wideBlock body consequent)
    (turns : otherwise.kind = .elseWord) (spelledOther : wideBlock other alternative) :
    (conditional expression block).Verdict (Phrase.Statement narrow narrowBlock) level
      (none :: (Entries.parenthesised (value.entries (depth + 1)) ++
        (Stmt.blockEntries (depth + 1) consequent ++
          none :: Stmt.blockEntries (depth + 1) alternative)))
      (first :: (test ++ (body ++ otherwise :: other)))
      (.conditional value consequent (some alternative)
        (first.span.through alternative.span)) := by
  refine verdict_behind_test decides spelledTest (fun sinks => (sinks.bind _).advance) ?_
  intro spelledTest quiet
  have completeTest := complete_condition complete
  cases decidesBlock spelledTest spelledBody with
  | sinks leftmost sinks =>
      exact .sinks ((leftmost.behind _ _).ahead quiet)
        (Sinks.after completeTest spelledTest (sinks.bind _)).advance
  | fits spelledBody quietBody =>
      cases decidesBlock spelledTest spelledOther with
      | fits spelledOther quietOther =>
          exact .fits (.alternative word spelledTest spelledBody turns spelledOther)
            (quiet.append (quietBody.append ((quiet_none [otherwise]).append quietOther)))
      | sinks leftmost sinks =>
          refine .sinks (((leftmost.ahead (quiet_none [otherwise])).ahead quietBody).ahead quiet)
            (Sinks.after completeTest spelledTest
              (Sinks.after completeBlock spelledBody ?_)).advance
          intro start stop passes here
          rw [run_kind_bind, if_pos (passes.kind_head.trans turns)]
          exact (sinks.bind _).advance passes here

end Blocks

theorem verdict_result
    (decides : expression.Decides narrow wide (Expr.entries (depth + 1)) level)
    (begins : Phrase.Begins wide Starts) {first last : Token} {tokens : List Token}
    {value : Option Expr} (word : first.kind = .returnWord)
    (spelled : Phrase.Optional wide tokens value) (ends : last.kind = .semicolon) :
    (result expression).Verdict (Phrase.Statement narrow narrowBlock) level
      (none :: (Stmt.optionalEntries (depth + 1) value ++ [none])) (first :: (tokens ++ [last]))
      (.result value (first.span.through last.span)) :=
  (decides_optionalValue decides begins spelled).within (quiet_none [first]) (quiet_none [last])
    (fun spelled => .result word spelled ends) (fun _ sinks => (sinks.bind _).advance)

theorem verdict_print
    (decides : expression.Decides narrow wide (Expr.entries (depth + 1)) level)
    {first last : Token} {tokens : List Token} {value : Expr} (word : first.kind = .printWord)
    (spelled : Phrase.Condition wide tokens value) (ends : last.kind = .semicolon) :
    (print expression).Verdict (Phrase.Statement narrow narrowBlock) level
      (none :: (Entries.parenthesised (value.entries (depth + 1)) ++ [none]))
      (first :: (tokens ++ [last])) (.print value (first.span.through last.span)) :=
  (decides_condition decides spelled).within (quiet_none [first]) (quiet_none [last])
    (fun spelled => .print word spelled ends) (fun _ sinks => (sinks.bind _).advance)

/-- The form that the first token announces has the verdict. -/
theorem verdict_announced (expected : List Token.Kind) (chosen : StatementForm)
    {entries : Entries} {first : Token} {rest : List Token} {statement : Stmt}
    (announces : Grammar.standard.statement first.kind = some chosen)
    (verdict : (form expression block chosen).Verdict (Phrase.Statement narrow narrowBlock) level
      entries (first :: rest) statement) :
    (announced .standard expected expression block).Verdict (Phrase.Statement narrow narrowBlock)
      level entries (first :: rest) statement := by
  refine verdict.of_first id ?_
  intro start here
  rw [announced, run_kind_bind, Cursor.kind, here, announces]

theorem decides_announced (expected : List Token.Kind)
    (decides : expression.Decides narrow wide (Expr.entries (depth + 1)) level)
    (complete : expression.Complete narrow (Ends 0)) (begins : Phrase.Begins wide Starts)
    (decidesBlock : forall {test value}, Phrase.Condition narrow test value ->
      block.Decides narrowBlock wideBlock (Stmt.blockEntries (depth + 1)) level)
    (completeBlock : block.Complete narrowBlock (fun _ => True)) :
    (announced .standard expected expression block).Decides (Phrase.Statement narrow narrowBlock)
      (Phrase.Statement wide wideBlock) (Stmt.entries depth) level := by
  intro tokens statement spelled
  cases spelled with
  | declaration declares named spelled ends =>
      rw [Stmt.entries]
      exact verdict_announced expected .declaration (by rw [declares]; exact statement_declarator _)
        (verdict_declaration decides declares named spelled ends)
  | assignment named assigns spelled ends =>
      rw [Stmt.entries]
      exact verdict_announced expected .assignmentOrCall (by rw [named]; rfl)
        (verdict_assignment decides named assigns spelled ends)
  | call named spelled ends =>
      rw [Stmt.entries, Expr.statementEntries, Expr.entryLists_eq_map]
      exact verdict_announced expected .assignmentOrCall (by rw [named]; rfl)
        (verdict_callStatement decides complete begins named spelled ends)
  | conditional word spelledTest spelledBody =>
      rw [Stmt.entries, List.append_nil]
      exact verdict_announced expected .conditional (by rw [word]; rfl)
        (verdict_conditional decides complete decidesBlock word spelledTest spelledBody)
  | alternative word spelledTest spelledBody turns spelledOther =>
      rw [Stmt.entries]
      exact verdict_announced expected .conditional (by rw [word]; rfl)
        (verdict_alternative decides complete decidesBlock completeBlock word spelledTest
          spelledBody turns spelledOther)
  | loop word spelledTest spelledBody =>
      rw [Stmt.entries]
      exact verdict_announced expected .loop (by rw [word]; rfl)
        (verdict_loop decides complete decidesBlock word spelledTest spelledBody)
  | result word spelled ends =>
      rw [Stmt.entries]
      exact verdict_announced expected .result (by rw [word]; rfl)
        (verdict_result decides begins word spelled ends)
  | print word spelled ends =>
      rw [Stmt.entries]
      exact verdict_announced expected .print (by rw [word]; rfl)
        (verdict_print decides word spelled ends)

theorem decides_inBlock
    (decides : expression.Decides narrow wide (Expr.entries (depth + 1)) level)
    (complete : expression.Complete narrow (Ends 0)) (begins : Phrase.Begins wide Starts)
    (decidesBlock : forall {test value}, Phrase.Condition narrow test value ->
      block.Decides narrowBlock wideBlock (Stmt.blockEntries (depth + 1)) level)
    (completeBlock : block.Complete narrowBlock (fun _ => True)) :
    (inBlock .standard expression block).Decides (Phrase.Statement narrow narrowBlock)
      (Phrase.Statement wide wideBlock) (Stmt.entries depth) level := by
  intro tokens statement spelled
  rcases begins_statement spelled with ⟨first, rest, rfl, opens⟩
  refine (decides_announced (Token.Kind.statementStart ++ [.closeCurly]) decides complete begins
    decidesBlock completeBlock spelled).of_first id ?_
  intro start here
  have notMarker : start.kind ≠ .eof := by
    rw [Cursor.kind, here]
    intro same
    rw [same] at opens
    cases opens
  rw [inBlock, run_kind_bind, if_neg notMarker]

end Forms

theorem decides_braced {statement : Reader Stmt} {narrow wide : List Token -> Stmt -> Prop}
    {depth level : Nat} (decides : statement.Decides narrow wide (Stmt.entries depth) level)
    (complete : statement.Complete narrow (· ≠ .elseWord)) (begins : Phrase.Begins wide Opens) :
    (braced (statements statement)).Decides (Phrase.Braced narrow) (Phrase.Braced wide)
      (Stmt.blockEntries depth) level := by
  rintro tokens _ ⟨opens, spelled, closes⟩
  have goesOn : forall kind, Opens kind -> kind ≠ .elseWord := by
    rintro kind opens rfl
    cases opens
  have neverClose : ¬ Opens .closeCurly := by rintro ⟨⟩
  rw [Stmt.blockEntries, Stmt.listEntries_eq_flatten]
  rcases verdict_repeated decides complete begins goesOn neverClose spelled with
    ⟨spelled, quiet⟩ | ⟨before, token, leftmost, run⟩
  · exact .fits (.mk opens spelled closes)
      ((quiet_none [_]).append (quiet.append (quiet_none [_])))
  · have sinks : (statements statement).Sinks before token := by
      intro start stop passes here
      rw [statements, run_tokens_bind]
      exact run passes here (Nat.le_refl _)
    exact .sinks ((leftmost.behind [none] [_]).ahead (quiet_none [_]))
      ((sinks.bind _).expect opens)

/-- A block that has a level open, given the verdict on the blocks in it. -/
theorem decides_block_succ (levels wider : Nat) {outer level : Nat}
    (reached : outer + (levels + 1) = level)
    (decidesBlock : forall {test value}, Phrase.Condition (Phrase.Expression levels 0)
      test value -> (block .standard levels).Decides (Phrase.Block levels) (Phrase.Block wider)
        (Stmt.blockEntries (outer + 1)) level) :
    (block .standard (levels + 1)).Decides (Phrase.Block (levels + 1)) (Phrase.Block (wider + 1))
      (Stmt.blockEntries outer) level := by
  have reachedInside : outer + 1 + levels = level := by omega
  have complete := Expression.complete_read levels .loosest
  have decides := decides_inBlock (Expression.decides_read levels wider .loosest reachedInside)
    complete (Expression.begins_expression wider 0) decidesBlock (complete_block levels)
  exact decides_braced decides (complete_inBlock complete
    (Expression.begins_expression levels 0) (complete_block levels)) begins_statement

/-- A block that has a level open.  Where its statements have none left, no condition in
them is within the bound, and no verdict on their blocks is needed. -/
theorem decides_block (levels wider : Nat) {outer level : Nat}
    (reached : outer + (levels + 1) = level) :
    (block .standard (levels + 1)).Decides (Phrase.Block (levels + 1)) (Phrase.Block wider)
      (Stmt.blockEntries outer) level := by
  induction levels generalizing wider outer with
  | zero =>
      intro tokens body spelled
      cases wider with
      | zero => exact False.elim spelled
      | succ wider =>
          refine decides_block_succ 0 wider reached ?_ spelled
          rintro test value ⟨_, impossible, _⟩
          exact False.elim impossible
  | succ levels inductionHypothesis =>
      intro tokens body spelled
      cases wider with
      | zero => exact False.elim spelled
      | succ wider =>
          refine decides_block_succ (levels + 1) wider reached ?_ spelled
          intro test value _
          exact inductionHypothesis wider (by omega)

theorem decides_function {block : Reader Block} {narrow wide : List Token -> Block -> Prop}
    {depth level : Nat}
    (decides : block.Decides narrow wide (Stmt.blockEntries (depth + 1)) level) :
    (function block).Decides (Phrase.Function narrow) (Phrase.Function wide) (Stmt.entries depth)
      level := by
  intro tokens statement spelled
  cases spelled with
  | @mk first name listed tokens parameters close body word named spelledList spelledBody =>
      have keeps := Phrase.keepsWords_parenthesised Phrase.keepsWords_parameter spelledList
      have completeList := complete_parenthesised complete_parameter begins_parameter
        trivial trivial (fun impossible => impossible rfl)
      rw [Stmt.entries]
      refine (decides spelledBody).ahead ((quiet_none [first, name]).append (quiet_silent keeps))
        (fun spelledBody => .mk word named spelledList spelledBody) ?_
      intro before token _ sinks
      exact (Sinks.expect named (Sinks.after completeList spelledList (sinks.bind _))).advance

theorem decides_atTop (levels wider : Nat) {level : Nat} (reached : 1 + (levels + 1) = level) :
    (atTop .standard (levels + 1)).Decides (Phrase.Top (levels + 1)) (Phrase.Top wider)
      (Stmt.entries 0) level := by
  have decidesBlock := decides_block levels wider reached
  intro tokens statement spelled
  cases spelled with
  | function spelled =>
      have verdict := decides_function decidesBlock spelled
      cases spelled with
      | mk word =>
          refine verdict.of_first .function ?_
          intro start here
          rw [atTop, run_kind_bind, Cursor.kind, here, if_pos word]
  | statement spelled =>
      rcases begins_statement spelled with ⟨first, rest, rfl, opens⟩
      refine (decides_announced (.functionWord :: Token.Kind.statementStart)
        (Expression.decides_read (levels + 1) wider .loosest reached)
        (Expression.complete_read (levels + 1) .loosest)
        (Expression.begins_expression wider 0) (fun _ => decidesBlock)
        (complete_block (levels + 1)) spelled).of_first .statement ?_
      intro start here
      have notFunction : start.kind ≠ .functionWord := by
        rw [Cursor.kind, here]
        intro same
        rw [same] at opens
        cases opens
      rw [atTop, run_kind_bind, if_neg notFunction]
      rfl

end Statement
end Reading
end ToyFrontend
