import ToyFrontend.Proofs.Nesting.Verdict

namespace ToyFrontend
namespace Reading

/-!
# Expressions beyond the bound

The verdict on an expression, form by form.  A level is taken where an expression
is read, before its first token is looked at, so an expression for which none is
left sinks at that token whatever it is.
-/

open SyntaxTree (Entries Expr BindingPower BinaryOperator UnaryOperator)
open SyntaxTree.Entries

namespace Expression

open Reader

section Forms

variable {inner : Reader Expr} {narrow wide : List Token -> Expr -> Prop} {outer level : Nat}

theorem decides_arguments {innerLevel : Nat}
    (decides : inner.Decides narrow wide (Expr.entries innerLevel) level)
    (complete : inner.Complete narrow (Ends 0)) (begins : Phrase.Begins wide Starts) :
    (parenthesised inner).Decides (Phrase.Parenthesised narrow) (Phrase.Parenthesised wide)
      (fun read => Entries.parenthesised (Entries.separated (read.1.map (Expr.entries innerLevel))))
      level :=
  decides_parenthesised decides complete begins ends_comma (by rintro ⟨⟩)

theorem decides_announced (operation : Reader Expr)
    (decides : inner.Decides narrow wide (Expr.entries (outer + 1)) level)
    (complete : inner.Complete narrow (Ends 0)) (begins : Phrase.Begins wide Starts)
    (shallow : outer ≠ level) :
    (announced .standard inner operation).Decides (Phrase.Primary narrow) (Phrase.Primary wide)
      (Expr.entries outer) level := by
  intro tokens expression spelled
  cases spelled with
  | @atom token _ spelled =>
      cases spelled <;> rw [Expr.entries] <;>
        exact .fits (.atom (by constructor <;> assumption)) (quiet_some shallow token)
  | @call callee tokens arguments close named spelled =>
      rw [Expr.entries, Expr.entryLists_eq_map]
      refine (decides_arguments decides complete begins spelled).ahead (quiet_some shallow callee)
        (fun spelled => .call named spelled) ?_
      intro before token leftmost sinks start stop passes here
      have ahead : start.nextKind = .openParen := by
        cases spelled with
        | mk opens =>
            rw [passes.nextKind_head, Cursor.kind, leftmost.current passes.head.2 here, opens]
      rw [announced, run_kind_bind, passes.kind_head, named]
      change (primary inner).run start = _
      rw [primary, run_current_bind, run_nextKind_bind,
        if_pos (by simp [ahead, passes.head.1, named])]
      exact (sinks.bind _).expect named passes here
  | @grouping opening close tokens expression opens spelled closes =>
      rw [Expr.entries]
      refine (decides spelled).within (quiet_some shallow opening) (quiet_none [close])
        (fun spelled => .grouping opens spelled closes) ?_
      intro before token _ sinks start stop passes here
      rw [announced, run_kind_bind, passes.kind_head, opens]
      exact (sinks.bind _).advance passes here

theorem decides_operand (decides : inner.Decides narrow wide (Expr.entries (outer + 1)) level)
    (complete : inner.Complete narrow (Ends 0)) (begins : Phrase.Begins wide Starts)
    (shallow : outer ≠ level) :
    (operand .standard inner).Decides (Phrase.Primary narrow) (Phrase.Primary wide)
      (Expr.entries outer) level := by
  intro tokens expression spelled
  rcases begins_primary spelled with ⟨first, rest, rfl, _, noOperator⟩
  refine (decides_announced refuse decides complete begins shallow spelled).of_first id ?_
  intro start here
  have none : (UnaryOperator.ofKind? start.kind).isSome = false := by
    rw [Cursor.kind, here, noOperator]
    rfl
  rw [operand, run_kind_bind, if_neg (by rw [none]; decide)]

theorem decides_leading (decides : inner.Decides narrow wide (Expr.entries (outer + 1)) level)
    (complete : inner.Complete narrow (Ends 0)) (begins : Phrase.Begins wide Starts)
    (shallow : outer ≠ level) :
    (leading .standard inner).Decides (Phrase.Unary narrow) (Phrase.Unary wide)
      (Expr.entries outer) level := by
  intro tokens expression spelled
  cases spelled with
  | primary spelled =>
      cases decides_announced _ decides complete begins shallow spelled with
      | fits spelled quiet => exact .fits (.primary spelled) quiet
      | sinks leftmost sinks => exact .sinks leftmost sinks
  | @operation token operator tokens value denotes spelled =>
      rw [Expr.entries]
      refine (decides_operand decides complete begins shallow spelled).ahead
        (quiet_some shallow token) (fun spelled => .operation denotes spelled) ?_
      intro before last _ sinks start stop passes here
      have isOperator := UnaryOperator.ofKind?_eq_some_iff.mpr (passes.kind_head.trans denotes).symm
      have announces : Grammar.standard.leading start.kind = some .unary := by
        rw [passes.kind_head, denotes]
        cases operator <;> rfl
      rw [leading, announced, run_kind_bind, announces]
      change (unary (operand .standard inner)).run start = _
      rw [unary, run_kind_bind, isOperator]
      exact (sinks.bind _).advance passes here

end Forms

/-- The left operand is read in full, and the right one sinks. -/
theorem sinks_right {levels : Nat} {power next : BindingPower} {operator : BinaryOperator}
    {before behind : List Token} {token last : Token} {left : Expr}
    (spelled : Phrase.Expression (levels + 1) power.rank before left)
    (tighter : power.rank < operator.precedence) (held : left.Holds operator.precedence)
    (denotes : token.kind = operator.kind)
    (binds : Grammar.standard.binding token.kind = some next)
    (rank : next.rank = operator.precedence)
    (sinks : (read .standard levels next).Sinks behind last) :
    (read .standard (levels + 1) power).Sinks (before ++ token :: behind) last := by
  intro start stop passes here
  rcases passes.split with ⟨middle, passesLeft, passesRight⟩
  have isOperator : BinaryOperator.ofKind? middle.kind = some operator :=
    BinaryOperator.ofKind?_eq_some_iff.mpr (passesRight.kind_head.trans denotes).symm
  have notCall : middle.kind ≠ .openParen := by
    rw [passesRight.kind_head, denotes]
    cases operator <;> decide
  have heldMiddle : forall other, BinaryOperator.ofKind? middle.kind = some other ->
      left.Holds other.precedence := by
    intro other isOther
    cases isOperator.symm.trans isOther
    exact held
  have completeLeading :=
    complete_leading (complete_read levels .loosest) (begins_expression levels 0)
  rcases run_climb_of_chain completeLeading (complete_read levels) spelled passesLeft notCall
    heldMiddle with ⟨rounds, adequate, leftRun⟩
  rcases exists_round adequate with ⟨round, fewer, rfl⟩
  rw [← passesRight.kind_head] at binds
  rw [read, leftRun, run_climb_of_operator binds, rank, if_neg (Nat.not_le.mpr tighter)]
  apply run_bind_of_error
  rw [binary, run_kind_bind, isOperator]
  exact (sinks.bind _).advance passesRight here

theorem decides_read (levels wider : Nat) {outer level : Nat} (power : BindingPower)
    (reached : outer + levels = level) :
    (read .standard levels power).Decides (Phrase.Expression levels power.rank)
      (Phrase.Expression wider power.rank) (Expr.entries outer) level := by
  induction levels generalizing wider outer power with
  | zero =>
      intro tokens expression spelled
      subst reached
      rcases begins_expression wider power.rank spelled with ⟨first, rest, rfl, _⟩
      rcases expression.exists_entries_cons outer with ⟨more, shape⟩
      rw [shape]
      refine .sinks (@Leftmost.mk _ [] more [] rest first (quiet_none [])) ?_
      intro start stop passes here
      cases passes.eq_of_nil
      subst here
      rfl
  | succ levels inductionHypothesis =>
      intro tokens expression spelled
      have shallow : outer ≠ level := by omega
      have reachedInside : outer + 1 + levels = level := by omega
      cases wider with
      | zero => exact False.elim spelled
      | succ wider =>
          induction spelled with
          | unary spelled =>
              cases decides_leading (inductionHypothesis wider .loosest reachedInside)
                (complete_read levels .loosest) (begins_expression wider 0) shallow
                spelled with
              | fits spelled quiet => exact .fits (.unary spelled) quiet
              | sinks leftmost sinks => exact .sinks leftmost (sinks.bind _)
          | @operation before behind token operator left right spelledLeft tighter held denotes
              spelledRight ofLeft =>
              rw [Expr.entries]
              cases ofLeft with
              | sinks leftmost sinks => exact .sinks (leftmost.behind _ _) sinks
              | fits spelledLeft quietLeft =>
                  have isOperator := BinaryOperator.ofKind?_eq_some_iff.mpr denotes.symm
                  rcases exists_binding isOperator with ⟨next, binds, rank⟩
                  have decidesRight := inductionHypothesis wider next reachedInside
                  rw [rank] at decidesRight
                  cases decidesRight spelledRight with
                  | fits spelledRight quietRight =>
                      exact .fits (.operation spelledLeft tighter held denotes spelledRight)
                        (quietLeft.append ((quiet_none [token]).append quietRight))
                  | sinks leftmost sinks =>
                      exact .sinks ((leftmost.ahead (quiet_none [token])).ahead quietLeft)
                        (sinks_right spelledLeft tighter held denotes binds rank sinks)

end Expression

end Reading
end ToyFrontend
