import ToyFrontend.Proofs.Reading.Onward

namespace ToyFrontend
namespace Reading

/-!
# Rounds do not run out

A loop of this library is given a list for its rounds, and it ends when the list
does.  It never comes to that.  A round takes at least one token, so a loop with
as many rounds as there are tokens ahead has ended before, and from then on their
number makes no difference.  This holds for any item that takes a token, whatever
the grammar that it is read with.
-/

open SyntaxTree (Expr BindingPower)

namespace Reader

variable {Item : Type} {item : Reader Item}

theorem run_commaSeparated_of_enough (consumes : item.Consumes) {rounds others : List Token}
    {start : Cursor} (closed : start.Closed) (enough : start.tokens.length <= rounds.length)
    (enoughOthers : start.tokens.length <= others.length) :
    (commaSeparated item rounds).run start = (commaSeparated item others).run start := by
  induction rounds generalizing start others with
  | nil => exact absurd enough (Nat.not_le.mpr start.tokens_length_pos)
  | cons round rounds inductionHypothesis =>
      cases others with
      | nil => exact absurd enoughOthers (Nat.not_le.mpr start.tokens_length_pos)
      | cons other others =>
          rw [commaSeparated, commaSeparated]
          apply run_bind_congr
          intro first middle run
          have shorter := consumes.progress closed run
          have behind := middle.reaches_advance
          have closedBehind := behind.closed ((consumes.onward.reaches run).closed closed)
          have fewer := behind.length_le
          rw [List.length_cons] at enough enoughOthers
          rw [run_kind_bind, run_kind_bind]
          split
          next =>
            rw [run_advance_bind, run_advance_bind]
            exact run_bind_of_eq
              (inductionHypothesis closedBehind (by omega) (by omega)) _
          next => rfl
          next => rfl

theorem run_untilKind_of_enough (consumes : item.Consumes) {stop : Token.Kind}
    {rounds others : List Token} {start : Cursor} (closed : start.Closed)
    (enough : start.tokens.length <= rounds.length)
    (enoughOthers : start.tokens.length <= others.length) :
    (untilKind stop item rounds).run start = (untilKind stop item others).run start := by
  induction rounds generalizing start others with
  | nil => exact absurd enough (Nat.not_le.mpr start.tokens_length_pos)
  | cons round rounds inductionHypothesis =>
      cases others with
      | nil => exact absurd enoughOthers (Nat.not_le.mpr start.tokens_length_pos)
      | cons other others =>
          rw [untilKind, untilKind, run_kind_bind, run_kind_bind]
          split
          next => rfl
          next =>
            apply run_bind_congr
            intro first middle run
            have shorter := consumes.progress closed run
            have closedMiddle := (consumes.onward.reaches run).closed closed
            rw [List.length_cons] at enough enoughOthers
            exact run_bind_of_eq
              (inductionHypothesis closedMiddle (by omega) (by omega)) _

end Reader

namespace Expression

open Reader

theorem run_climb_of_enough {grammar : Grammar} {right : BindingPower -> Reader Expr}
    (onward : forall power, Onward (right power)) {power : BindingPower}
    {rounds others : List Token} {left : Expr} {start : Cursor} (closed : start.Closed)
    (enough : start.tokens.length <= rounds.length)
    (enoughOthers : start.tokens.length <= others.length) :
    (climb grammar right power rounds left).run start =
      (climb grammar right power others left).run start := by
  induction rounds generalizing start others left with
  | nil => exact absurd enough (Nat.not_le.mpr start.tokens_length_pos)
  | cons round rounds inductionHypothesis =>
      cases others with
      | nil => exact absurd enoughOthers (Nat.not_le.mpr start.tokens_length_pos)
      | cons other others =>
          rw [climb, climb, run_kind_bind, run_kind_bind]
          split
          next => rfl
          next next _ =>
            split
            next => rfl
            next =>
              apply run_bind_congr
              intro wider middle run
              have consumes := consumes_binary (onward next) left
              have shorter := consumes.progress closed run
              have closedMiddle := (consumes.onward.reaches run).closed closed
              rw [List.length_cons] at enough enoughOthers
              exact inductionHypothesis closedMiddle (by omega) (by omega)

end Expression

end Reading
end ToyFrontend
