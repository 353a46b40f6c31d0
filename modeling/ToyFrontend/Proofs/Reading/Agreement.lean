import ToyFrontend.Proofs.Reading.Expression

namespace ToyFrontend
namespace Reading

/-!
# Readers that do the same

Two readers agree where they give the same result, or the same error, and leave
the cursor at the same token.  An error of the first reader may be excused, so
that a reader with a bound can be compared with one that has none: where the
first gives up because of its bound, nothing is asked of the second.

Agreement is kept by every way of putting readers together.  The statements
carry a limit for the number of tokens ahead.  A form that passes a token before
it reads an inner expression needs the inner readers to agree on shorter rests
only, which is what makes agreement provable for readers that are defined by
recursion over such a number.
-/

/-- Two outcomes are the same, or the first is an excused error.  After a success
the cursor is in order and has at most so many tokens ahead. -/
inductive Agree {Result : Type} (excused : SyntaxError -> Prop) (bound : Nat) :
    EStateM.Result SyntaxError Cursor Result -> EStateM.Result SyntaxError Cursor Result -> Prop
  | excuse {error : SyntaxError} {stop : Cursor}
      {other : EStateM.Result SyntaxError Cursor Result} (granted : excused error) :
      Agree excused bound (.error error stop) other
  | failure (error : SyntaxError) (stop : Cursor) :
      Agree excused bound (.error error stop) (.error error stop)
  | success (value : Result) {stop : Cursor} (closed : stop.Closed)
      (bounded : stop.tokens.length <= bound) :
      Agree excused bound (.ok value stop) (.ok value stop)

namespace Agree

variable {Result Next : Type} {excused : SyntaxError -> Prop} {bound : Nat}

theorem mono {wider : Nat} {first second : EStateM.Result SyntaxError Cursor Result}
    (agree : Agree excused bound first second) (within : bound <= wider) :
    Agree excused wider first second := by
  cases agree with
  | excuse granted => exact .excuse granted
  | failure error stop => exact .failure error stop
  | success value closed bounded => exact .success value closed (Nat.le_trans bounded within)

/-- Readers that agree may be continued with readers that agree wherever they stop. -/
theorem bind {first second : Reader Result} {continuation other : Result -> Reader Next}
    {cursor : Cursor} (agree : Agree excused bound (first.run cursor) (second.run cursor))
    (continued : forall value (middle : Cursor), middle.Closed ->
      middle.tokens.length <= bound ->
      Agree excused bound ((continuation value).run middle) ((other value).run middle)) :
    Agree excused bound ((first >>= continuation).run cursor) ((second >>= other).run cursor) := by
  rw [EStateM.run_bind, EStateM.run_bind]
  generalize first.run cursor = one at agree
  generalize second.run cursor = two at agree
  cases agree with
  | excuse granted => exact .excuse granted
  | failure error stop => exact .failure error stop
  | success value closed bounded => exact continued value _ closed bounded

/-- Where no error is excused, agreement is equality. -/
theorem eq {first second : EStateM.Result SyntaxError Cursor Result}
    (agree : Agree excused bound first second)
    (unexcused : forall error stop, first = .error error stop -> ¬ excused error) :
    first = second := by
  cases agree with
  | excuse granted => exact absurd granted (unexcused _ _ rfl)
  | failure => rfl
  | success => rfl

end Agree

namespace Reader

/-- On every cursor with at most so many tokens ahead the two readers agree. -/
def Agrees {Result : Type} (excused : SyntaxError -> Prop) (limit : Nat)
    (first second : Reader Result) : Prop :=
  forall ⦃cursor : Cursor⦄, cursor.Closed -> cursor.tokens.length <= limit ->
    Agree excused cursor.tokens.length (first.run cursor) (second.run cursor)

/-- A success leaves a cursor that is in order and has no more tokens ahead. -/
def Forward {Result : Type} (reader : Reader Result) : Prop :=
  forall ⦃start stop : Cursor⦄ ⦃result : Result⦄, start.Closed ->
    reader.run start = .ok result stop ->
    stop.Closed ∧ stop.tokens.length <= start.tokens.length

section Agreement

variable {Result Next : Type} {excused : SyntaxError -> Prop} {limit : Nat}

theorem Agrees.of_le {first second : Reader Result} {fewer : Nat}
    (agrees : Agrees excused limit first second) (within : fewer <= limit) :
    Agrees excused fewer first second :=
  fun _ closed bounded => agrees closed (Nat.le_trans bounded within)

theorem Agrees.forward {first second : Reader Result}
    (agrees : forall limit, Agrees excused limit first second) : first.Forward := by
  intro start stop result closed run
  have agree := agrees _ closed (Nat.le_refl _)
  rw [run] at agree
  generalize second.run start = outcome at agree
  cases agree with
  | success value closed bounded => exact ⟨closed, bounded⟩

theorem agrees_pure (value : Result) : Agrees excused limit (pure value) (pure value) :=
  fun _ closed _ => .success value closed (Nat.le_refl _)

theorem agrees_fail (cause : SyntaxError.Cause) (expected : List Token.Kind) :
    Agrees excused limit (fail cause expected : Reader Result) (fail cause expected) :=
  fun _ _ _ => .failure _ _

theorem agrees_refuse : Agrees excused limit (refuse : Reader Result) refuse :=
  fun _ _ _ => .failure _ _

/-- After readers that agree, the rest is no longer than before. -/
theorem Agrees.bind {first second : Reader Result} {continuation other : Result -> Reader Next}
    (agrees : Agrees excused limit first second)
    (continued : forall value, Agrees excused limit (continuation value) (other value)) :
    Agrees excused limit (first >>= continuation) (second >>= other) := by
  intro cursor closed within
  apply (agrees closed within).bind
  intro value middle closedMiddle shorter
  exact (continued value closedMiddle (Nat.le_trans shorter within)).mono shorter

/-- A token that is passed makes the rest shorter. -/
theorem agree_advance {continuation other : Token -> Reader Next} {cursor : Cursor}
    (closed : cursor.Closed) (proper : cursor.kind ≠ .eof)
    (within : cursor.tokens.length <= limit + 1)
    (continued : forall token, Agrees excused limit (continuation token) (other token)) :
    Agree excused cursor.tokens.length ((advance >>= continuation).run cursor)
      ((advance >>= other).run cursor) := by
  rw [run_advance_bind, run_advance_bind]
  have passes := closed.passes_advance proper
  have shorter := passes.length_lt (List.cons_ne_nil _ _)
  exact (continued _ (passes.closed closed) (by omega)).mono (Nat.le_of_lt shorter)

theorem agrees_expect {expected : Token.Kind} (proper : expected ≠ .eof)
    {continuation other : Token -> Reader Next}
    (continued : forall token, Agrees excused limit (continuation token) (other token)) :
    Agrees excused (limit + 1) (expect expected >>= continuation) (expect expected >>= other) := by
  intro cursor closed within
  by_cases same : cursor.kind = expected
  · have passed := run_expect_of_eq same
    rw [run_bind_of_ok passed, run_bind_of_ok passed]
    exact agree_advance closed (same ▸ proper) within continued
  · rw [EStateM.run_bind, EStateM.run_bind, run_expect_of_ne same]
    exact .failure _ _

theorem agrees_commaSeparated {item other : Reader Result}
    (agrees : Agrees excused limit item other) (rounds : List Token) :
    Agrees excused limit (commaSeparated item rounds) (commaSeparated other rounds) := by
  induction rounds with
  | nil => exact agrees_pure []
  | cons round rounds inductionHypothesis =>
      rw [commaSeparated, commaSeparated]
      apply agrees.bind
      intro value cursor closed within
      rw [run_kind_bind, run_kind_bind]
      split
      next comma =>
        apply agree_advance closed (by rw [comma]; decide) (Nat.le_succ_of_le within)
        intro token
        exact inductionHypothesis.bind fun others => agrees_pure (value :: others)
      next => exact agrees_pure [value] closed within
      next => exact agrees_fail _ _ closed within

theorem agrees_items {item other : Reader Result} (agrees : Agrees excused limit item other) :
    Agrees excused limit (items item) (items other) := by
  intro cursor closed within
  rw [items, items, run_kind_bind, run_kind_bind]
  split
  next => exact agrees_pure [] closed within
  next =>
    rw [run_tokens_bind, run_tokens_bind]
    exact agrees_commaSeparated agrees _ closed within

theorem agrees_parenthesised {item other : Reader Result}
    (agrees : Agrees excused limit item other) :
    Agrees excused (limit + 1) (parenthesised item) (parenthesised other) := by
  apply agrees_expect (by decide)
  intro opening
  apply (agrees_items agrees).bind
  intro read
  apply Agrees.of_le _ (Nat.le_succ limit)
  apply agrees_expect (by decide)
  intro close
  exact agrees_pure (read, close.span)

end Agreement

end Reader

namespace Expression

open SyntaxTree (Expr BindingPower BinaryOperator UnaryOperator)
open Reader

variable {excused : SyntaxError -> Prop} {limit : Nat} {inner other : Reader Expr}

theorem agrees_call (agrees : Agrees excused limit inner other) :
    Agrees excused (limit + 1) (call inner) (call other) := by
  apply Agrees.of_le _ (Nat.le_succ (limit + 1))
  apply agrees_expect (by decide)
  intro callee
  apply (agrees_parenthesised agrees).bind
  rintro ⟨arguments, close⟩
  exact agrees_pure _

theorem agrees_primary (agrees : Agrees excused limit inner other) :
    Agrees excused (limit + 1) (primary inner) (primary other) := by
  intro cursor closed within
  rw [primary, primary, run_current_bind, run_current_bind, run_nextKind_bind, run_nextKind_bind]
  split
  next => exact agrees_call agrees closed within
  next =>
    split
    next expression isAtom =>
      have proper := kind_ne_eof_of_leading (leading_of_atom (atom?_eq_some_iff.mp isAtom))
      exact agree_advance closed proper within fun _ => agrees_pure expression
    next => exact agrees_fail _ _ closed within

theorem agree_grouping (agrees : Agrees excused limit inner other) {cursor : Cursor}
    (closed : cursor.Closed) (proper : cursor.kind ≠ .eof)
    (within : cursor.tokens.length <= limit + 1) :
    Agree excused cursor.tokens.length ((grouping inner).run cursor)
      ((grouping other).run cursor) := by
  apply agree_advance closed proper within
  intro opening
  apply agrees.bind
  intro expression
  apply Agrees.of_le _ (Nat.le_succ limit)
  apply agrees_expect (by decide)
  intro close
  exact agrees_pure _

theorem agrees_announced {operation otherOperation : Reader Expr}
    (agrees : Agrees excused limit inner other)
    (agreesOperation : Agrees excused (limit + 1) operation otherOperation) :
    Agrees excused (limit + 1) (announced .standard inner operation)
      (announced .standard other otherOperation) := by
  intro cursor closed within
  rw [announced, announced, run_kind_bind, run_kind_bind]
  split
  next form announces =>
    cases form with
    | primary => exact agrees_primary agrees closed within
    | unary => exact agreesOperation closed within
    | grouping => exact agree_grouping agrees closed (kind_ne_eof_of_leading announces) within
    | call => exact agrees_call agrees closed within
  next => exact agrees_fail _ _ closed within

theorem agrees_operand (agrees : Agrees excused limit inner other) :
    Agrees excused (limit + 1) (operand .standard inner) (operand .standard other) := by
  intro cursor closed within
  rw [operand, operand, run_kind_bind, run_kind_bind]
  split
  next => exact agrees_fail _ _ closed within
  next => exact agrees_announced agrees agrees_refuse closed within

theorem agrees_unary (agrees : Agrees excused limit inner other) :
    Agrees excused limit (unary inner) (unary other) := by
  intro cursor closed within
  rw [unary, unary, run_kind_bind, run_kind_bind]
  split
  next => exact agrees_refuse closed within
  next operator isOperator =>
    apply agree_advance closed (kind_ne_eof_of_unaryOperator isOperator)
      (Nat.le_succ_of_le within)
    intro token
    exact agrees.bind fun expression => agrees_pure _

theorem agrees_leading (agrees : Agrees excused limit inner other) :
    Agrees excused (limit + 1) (leading .standard inner) (leading .standard other) :=
  agrees_announced agrees (agrees_unary (agrees_operand agrees))

theorem agrees_binary (agrees : Agrees excused limit inner other) (left : Expr) :
    Agrees excused limit (binary inner left) (binary other left) := by
  intro cursor closed within
  rw [binary, binary, run_kind_bind, run_kind_bind]
  split
  next => exact agrees_refuse closed within
  next operator isOperator =>
    apply agree_advance closed (kind_ne_eof_of_binaryOperator isOperator)
      (Nat.le_succ_of_le within)
    intro token
    exact agrees.bind fun expression => agrees_pure _

theorem agrees_climb {right otherRight : BindingPower -> Reader Expr}
    (agrees : forall power, Agrees excused limit (right power) (otherRight power))
    (power : BindingPower) (rounds : List Token) (left : Expr) :
    Agrees excused limit (climb .standard right power rounds left)
      (climb .standard otherRight power rounds left) := by
  induction rounds generalizing left with
  | nil => exact agrees_pure left
  | cons round rounds inductionHypothesis =>
      intro cursor closed within
      rw [climb, climb, run_kind_bind, run_kind_bind]
      split
      next => exact agrees_pure left closed within
      next own isOwn =>
        split
        next => exact agrees_pure left closed within
        next =>
          exact (agrees_binary (agrees own) left).bind inductionHypothesis closed within

end Expression

end Reading
end ToyFrontend
