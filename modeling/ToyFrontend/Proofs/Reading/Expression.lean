import ToyFrontend.Proofs.Reading.Contract
import ToyFrontend.Reading.Expression

namespace ToyFrontend
namespace Reading
namespace Expression

/-!
# Readers of expressions meet their phrases

Both contracts are proved form by form and then, by induction over the levels,
for whole expressions.  Precedence comes from the loop that goes on with
operators.  Its invariant is about the token ahead: whatever operator stands
there does not bind more tightly than the operator that was read last, because
that operator's right operand was read up to a token of this sort.  `Settled`
names the condition, and it is a guarantee of the loop as well as a premise of
its next round.

The grammar has a power for each kind of token, and phrases have a precedence for
each operator.  These are two tables, and `exists_binding` is where they are compared.
-/

open SyntaxTree (Expr BindingPower BinaryOperator UnaryOperator)

/-- No operator of this kind binds more tightly than `precedence`. -/
def Settled (precedence : Nat) (kind : Token.Kind) : Prop :=
  forall operator, BinaryOperator.ofKind? kind = some operator -> operator.precedence <= precedence

/-- A token behind which no expression for a context of this precedence can go on.  A
parenthesis would turn a name into a call. -/
structure Ends (precedence : Nat) (kind : Token.Kind) : Prop where
  settled : Settled precedence kind
  notCall : kind ≠ .openParen

/-- The kinds that begin an expression. -/
def Starts (kind : Token.Kind) : Prop :=
  (Grammar.standard.leading kind).isSome

theorem atom?_eq_some_iff {token : Token} {expression : Expr} :
    atom? token = some expression ↔ Phrase.Atom token expression := by
  constructor
  · intro read
    unfold atom? at read
    split at read
    next value kind denotes =>
      cases read
      exact .int kind denotes
    next value kind denotes =>
      cases read
      exact .string kind denotes
    next value kind denotes =>
      cases read
      exact .bool kind denotes
    next kind =>
      cases read
      exact .identifier kind
    next => cases read
  · intro spelled
    cases spelled with
    | int kind denotes => simp only [atom?, kind, denotes]
    | string kind denotes => simp only [atom?, kind, denotes]
    | bool kind denotes => simp only [atom?, kind, denotes]
    | identifier kind => simp only [atom?, kind]

theorem leading_of_atom {token : Token} {expression : Expr}
    (spelled : Phrase.Atom token expression) :
    Grammar.standard.leading token.kind = some .primary := by
  cases spelled with
  | int kind _ => rw [kind]; rfl
  | string kind _ => rw [kind]; rfl
  | bool kind _ => rw [kind]; rfl
  | identifier kind => rw [kind]; rfl

theorem leading_ne_call (kind : Token.Kind) :
    Grammar.standard.leading kind ≠ some .call := by
  cases kind <;> decide

theorem kind_of_leading_grouping {kind : Token.Kind}
    (announces : Grammar.standard.leading kind = some .grouping) : kind = .openParen := by
  cases kind <;> first | rfl | cases announces

theorem kind_ne_eof_of_leading {kind : Token.Kind} {form : LeadingForm}
    (announces : Grammar.standard.leading kind = some form) : kind ≠ .eof := by
  rintro rfl
  cases announces

theorem kind_ne_eof_of_unaryOperator {kind : Token.Kind} {operator : UnaryOperator}
    (isOperator : UnaryOperator.ofKind? kind = some operator) : kind ≠ .eof := by
  rintro rfl
  cases isOperator

theorem kind_ne_eof_of_binaryOperator {kind : Token.Kind} {operator : BinaryOperator}
    (isOperator : BinaryOperator.ofKind? kind = some operator) : kind ≠ .eof := by
  rintro rfl
  cases isOperator

/-- The power that the grammar gives to the token of an operator is as high as the operator's
precedence. -/
theorem exists_binding {kind : Token.Kind} {operator : BinaryOperator}
    (isOperator : BinaryOperator.ofKind? kind = some operator) :
    Exists fun power => Grammar.standard.binding kind = some power ∧
      power.rank = operator.precedence := by
  rw [← BinaryOperator.ofKind?_eq_some_iff.mp isOperator]
  cases operator <;> exact ⟨_, rfl, rfl⟩

/-- A kind that binds is that of an operator. -/
theorem exists_operator_of_binding {kind : Token.Kind} {power : BindingPower}
    (binds : Grammar.standard.binding kind = some power) :
    Exists fun operator => BinaryOperator.ofKind? kind = some operator := by
  cases kind <;> first | exact ⟨_, rfl⟩ | cases binds

theorem binding_eq_none {kind : Token.Kind} (noOperator : BinaryOperator.ofKind? kind = none) :
    Grammar.standard.binding kind = none := by
  cases kind <;> first | rfl | cases noOperator

/-! ## Soundness -/

section Soundness

variable {inner : Reader Expr} {phrase : List Token -> Expr -> Prop}

theorem sound_call (sound : inner.Sound phrase) :
    (call inner).Sound (Phrase.Primary phrase) := by
  intro start stop expression closed run
  rw [call] at run
  rcases Reader.run_bind_eq_ok_iff.mp run with ⟨callee, first, calleeRun, run⟩
  rcases Reader.run_bind_eq_ok_iff.mp run with ⟨⟨arguments, close⟩, second, argumentsRun, run⟩
  cases run
  rcases Reader.passes_of_expect closed (by decide) calleeRun with ⟨passesCallee, named⟩
  rcases Reader.sound_parenthesised sound (passesCallee.closed closed) argumentsRun with
    ⟨passed, passes, spelled⟩
  exact ⟨_, passesCallee.trans passes, .call named spelled⟩

theorem sound_primary (sound : inner.Sound phrase) :
    (primary inner).Sound (Phrase.Primary phrase) := by
  intro start stop expression closed run
  rw [primary, Reader.run_current_bind, Reader.run_nextKind_bind] at run
  split at run
  next => exact sound_call sound closed run
  next =>
    split at run
    next atom isAtom =>
      cases run
      have spelled := atom?_eq_some_iff.mp isAtom
      have notMarker := kind_ne_eof_of_leading (leading_of_atom spelled)
      exact ⟨_, closed.passes_advance notMarker, .atom spelled⟩
    next => cases run

theorem primary_of_grouping (sound : inner.Sound phrase) {start stop : Cursor}
    {expression : Expr} (closed : start.Closed) (opens : start.kind = .openParen)
    (run : (grouping inner).run start = .ok expression stop) :
    Exists fun passed => start.Passes passed stop ∧ Phrase.Primary phrase passed expression := by
  rw [grouping, Reader.run_advance_bind] at run
  have passesOpening := closed.passes_advance (by rw [opens]; decide)
  rcases Reader.followed_ok sound (by decide) (passesOpening.closed closed) run with
    ⟨passed, enclosed, close, passes, spelled, closes, rfl⟩
  exact ⟨_, passesOpening.trans passes, .grouping opens spelled closes⟩

theorem sound_unary {operand : Reader Expr} (sound : operand.Sound (Phrase.Primary phrase)) :
    (unary operand).Sound (Phrase.Unary phrase) := by
  intro start stop expression closed run
  rw [unary, Reader.run_kind_bind] at run
  split at run
  next => cases run
  next operator isOperator =>
    rw [Reader.run_advance_bind] at run
    rcases Reader.run_bind_eq_ok_iff.mp run with ⟨value, middle, operandRun, run⟩
    cases run
    have denotes := (UnaryOperator.ofKind?_eq_some_iff.mp isOperator).symm
    have passesOperator := closed.passes_advance (kind_ne_eof_of_unaryOperator isOperator)
    rcases sound (passesOperator.closed closed) operandRun with ⟨passed, passes, spelled⟩
    exact ⟨_, passesOperator.trans passes, .operation denotes spelled⟩

/-- The token decides on the form; an operation is whatever its reader allows. -/
theorem sound_announced {operation : Reader Expr} {wider : List Token -> Expr -> Prop}
    (sound : inner.Sound phrase) (soundOperation : operation.Sound wider)
    (widens : forall {tokens expression},
      Phrase.Primary phrase tokens expression -> wider tokens expression) :
    (announced .standard inner operation).Sound wider := by
  intro start stop expression closed run
  rw [announced, Reader.run_kind_bind] at run
  split at run
  next leading announces =>
    cases leading with
    | primary =>
        rcases sound_primary sound closed run with ⟨passed, passes, spelled⟩
        exact ⟨passed, passes, widens spelled⟩
    | unary => exact soundOperation closed run
    | grouping =>
        rcases primary_of_grouping sound closed (kind_of_leading_grouping announces) run with
          ⟨passed, passes, spelled⟩
        exact ⟨passed, passes, widens spelled⟩
    | call => exact absurd announces (leading_ne_call _)
  next => cases run

theorem sound_operand (sound : inner.Sound phrase) :
    (operand .standard inner).Sound (Phrase.Primary phrase) := by
  intro start stop expression closed run
  rw [operand, Reader.run_kind_bind] at run
  split at run
  next => cases run
  next => exact sound_announced sound (Reader.sound_refuse _) id closed run

theorem sound_leading (sound : inner.Sound phrase) :
    (leading .standard inner).Sound (Phrase.Unary phrase) :=
  sound_announced sound (sound_unary (sound_operand sound)) .primary

/-- An operator that is ahead is passed, and what follows is its right operand. -/
theorem run_binary {right : Reader Expr} {left : Expr} {cursor : Cursor}
    {operator : BinaryOperator} (isOperator : BinaryOperator.ofKind? cursor.kind = some operator) :
    (binary right left).run cursor =
      (right >>= fun value =>
        pure (.binary left operator value (left.span.through value.span))).run cursor.advance := by
  rw [binary, Reader.run_kind_bind, isOperator]
  rfl

/-- One round of the loop: an operator that is ahead and its right operand. -/
theorem binary_ok {right : Reader Expr} {phrase : List Token -> Expr -> Prop}
    (sound : right.Sound phrase) {start stop : Cursor} {operator : BinaryOperator}
    {left expression : Expr} (closed : start.Closed)
    (isOperator : BinaryOperator.ofKind? start.kind = some operator)
    (run : (binary right left).run start = .ok expression stop) :
    Exists fun value => Exists fun passed =>
      expression = .binary left operator value (left.span.through value.span) ∧
        right.run start.advance = .ok value stop ∧ start.advance.Closed ∧
          start.Passes (start.current :: passed) stop ∧ phrase passed value := by
  rw [run_binary isOperator] at run
  rcases Reader.run_bind_eq_ok_iff.mp run with ⟨value, middle, rightRun, run⟩
  cases run
  have passesOperator := closed.passes_advance (kind_ne_eof_of_binaryOperator isOperator)
  have closedRight := passesOperator.closed closed
  rcases sound closedRight rightRun with ⟨passed, passes, spelled⟩
  exact ⟨value, passed, rfl, rightRun, closedRight, passesOperator.trans passes, spelled⟩

end Soundness

section Climbing

variable {right : BindingPower -> Reader Expr} {phrase : Nat -> List Token -> Expr -> Prop}

/-- A round of the loop where an operator stands ahead. -/
theorem run_climb_of_operator {power next : BindingPower} {round : Token} {rounds : List Token}
    {left : Expr} {cursor : Cursor} (binds : Grammar.standard.binding cursor.kind = some next) :
    (climb .standard right power (round :: rounds) left).run cursor =
      (if next.rank <= power.rank then pure left
        else binary (right next) left >>= climb .standard right power rounds).run cursor := by
  rw [climb, Reader.run_kind_bind, binds]
  rfl

theorem run_climb_of_settled (right : BindingPower -> Reader Expr) {power : BindingPower}
    (rounds : List Token) (left : Expr) {cursor : Cursor}
    (settled : Settled power.rank cursor.kind) :
    (climb .standard right power rounds left).run cursor = .ok left cursor := by
  cases rounds with
  | nil => rfl
  | cons round rounds =>
      cases ahead : BinaryOperator.ofKind? cursor.kind with
      | none =>
          rw [climb, Reader.run_kind_bind, binding_eq_none ahead]
          rfl
      | some operator =>
          rcases exists_binding ahead with ⟨next, binds, rank⟩
          rw [run_climb_of_operator binds, rank, if_pos (settled operator ahead)]
          rfl

theorem settled_of_no_operator {precedence : Nat} {kind : Token.Kind}
    (noOperator : BinaryOperator.ofKind? kind = none) : Settled precedence kind := by
  intro operator isOperator
  rw [noOperator] at isOperator
  cases isOperator

theorem settled_of_looser {precedence : Nat} {kind : Token.Kind} {operator : BinaryOperator}
    (isOperator : BinaryOperator.ofKind? kind = some operator)
    (looser : operator.precedence <= precedence) : Settled precedence kind := by
  intro other isOther
  cases isOperator.symm.trans isOther
  exact looser

/-- The loop keeps a phrase at its left, and every operator ahead may take that
phrase for its left operand. -/
theorem chain_of_climb (sound : forall power, (right power).Sound (phrase power.rank))
    (settles : forall power, (right power).Settles (Settled power.rank)) {power : BindingPower}
    (rounds : List Token) {start stop : Cursor} {before : List Token} {left expression : Expr}
    (closed : start.Closed) (adequate : start.tokens.length ≤ rounds.length)
    (spelled : Phrase.Chain phrase power.rank before left)
    (held : forall operator, BinaryOperator.ofKind? start.kind = some operator ->
      left.Holds operator.precedence)
    (run : (climb .standard right power rounds left).run start = .ok expression stop) :
    Settled power.rank stop.kind ∧ Exists fun passed =>
      start.Passes passed stop ∧ Phrase.Chain phrase power.rank (before ++ passed) expression := by
  induction rounds generalizing start before left with
  | nil => exact absurd adequate (Nat.not_le.mpr start.tokens_length_pos)
  | cons round rounds inductionHypothesis =>
      -- Where the loop stops nothing is passed; `stopped` serves both reasons for it.
      have stopped (settled : Settled power.rank start.kind) :
          Settled power.rank stop.kind ∧ Exists fun passed => start.Passes passed stop ∧
            Phrase.Chain phrase power.rank (before ++ passed) expression := by
        rw [run_climb_of_settled _ _ _ settled] at run
        cases run
        exact ⟨settled, [], .refl _, by rwa [List.append_nil]⟩
      cases ahead : BinaryOperator.ofKind? start.kind with
      | none => exact stopped (settled_of_no_operator ahead)
      | some operator =>
          rcases exists_binding ahead with ⟨next, binds, rank⟩
          have soundRight := sound next
          have settlesRight := settles next
          rw [rank] at soundRight settlesRight
          by_cases looser : operator.precedence <= power.rank
          · exact stopped (settled_of_looser ahead looser)
          · rw [run_climb_of_operator binds, rank, if_neg looser] at run
            rcases Reader.run_bind_eq_ok_iff.mp run with ⟨operation, middle, binaryRun, run⟩
            rcases binary_ok soundRight closed ahead binaryRun with
              ⟨value, passed, rfl, rightRun, closedRight, passes, spelledRight⟩
            have denotes := (BinaryOperator.ofKind?_eq_some_iff.mp ahead).symm
            have longer : Phrase.Chain phrase power.rank (before ++ start.current :: passed)
                (.binary left operator value (left.span.through value.span)) :=
              .operation spelled (Nat.not_le.mp looser) (held operator ahead) denotes
                spelledRight
            have stillHeld : forall other, BinaryOperator.ofKind? middle.kind = some other ->
                (Expr.binary left operator value (left.span.through value.span)).Holds
                  other.precedence := by
              rintro other isOther own ⟨⟩
              exact settlesRight closedRight rightRun other isOther
            have shorter := passes.length_lt (List.cons_ne_nil _ _)
            rw [List.length_cons] at adequate
            rcases inductionHypothesis (passes.closed closed) (by omega) longer stillHeld run with
              ⟨settled, behind, passesBehind, spelledAll⟩
            refine ⟨settled, _, passes.trans passesBehind, ?_⟩
            rwa [List.append_assoc] at spelledAll

end Climbing

/-- Reading stops where no operator can go on, and what was passed is a phrase. -/
theorem read_sound_and_settles (levels : Nat) (power : BindingPower) :
    (read .standard levels power).Sound (Phrase.Expression levels power.rank) ∧
      (read .standard levels power).Settles (Settled power.rank) := by
  induction levels generalizing power with
  | zero =>
      constructor
      · intro start stop expression _closed run
        cases run
      · intro start stop expression _closed run
        cases run
  | succ levels inductionHypothesis =>
      have both : forall {start stop : Cursor} {expression : Expr}, start.Closed ->
          (read .standard (levels + 1) power).run start = .ok expression stop ->
          Settled power.rank stop.kind ∧ Exists fun passed => start.Passes passed stop ∧
            Phrase.Expression (levels + 1) power.rank passed expression := by
        intro start stop expression closed run
        rw [read] at run
        rcases Reader.run_bind_eq_ok_iff.mp run with ⟨left, middle, leadingRun, run⟩
        rw [Reader.run_tokens_bind] at run
        rcases sound_leading (inductionHypothesis .loosest).1 closed leadingRun with
          ⟨before, passes, spelled⟩
        have held : forall operator, BinaryOperator.ofKind? middle.kind = some operator ->
            left.Holds operator.precedence :=
          fun operator _ => Phrase.holds_of_unary spelled operator.precedence
        rcases chain_of_climb (fun power => (inductionHypothesis power).1)
            (fun power => (inductionHypothesis power).2) middle.tokens (passes.closed closed)
            (Nat.le_refl _) (.unary spelled) held run with
          ⟨settled, behind, passesBehind, spelledAll⟩
        exact ⟨settled, _, passes.trans passesBehind, spelledAll⟩
      exact ⟨fun _ _ _ closed run => (both closed run).2,
        fun _ _ _ closed run => (both closed run).1⟩

theorem sound_read (levels : Nat) (power : BindingPower) :
    (read .standard levels power).Sound (Phrase.Expression levels power.rank) :=
  (read_sound_and_settles levels power).1

/-! ## Completeness -/

theorem ends_semicolon {precedence : Nat} : Ends precedence .semicolon :=
  ⟨settled_of_no_operator rfl, by decide⟩

theorem ends_closeParen {precedence : Nat} : Ends precedence .closeParen :=
  ⟨settled_of_no_operator rfl, by decide⟩

theorem ends_comma {precedence : Nat} : Ends precedence .comma :=
  ⟨settled_of_no_operator rfl, by decide⟩

theorem begins_primary {inner : List Token -> Expr -> Prop} :
    Phrase.Begins (Phrase.Primary inner)
      (fun kind => Starts kind ∧ UnaryOperator.ofKind? kind = none) := by
  intro tokens expression spelled
  cases spelled with
  | atom spelled =>
      refine ⟨_, _, rfl, by rw [Starts, leading_of_atom spelled]; rfl, ?_⟩
      cases spelled with
      | int kind _ => rw [kind]; rfl
      | string kind _ => rw [kind]; rfl
      | bool kind _ => rw [kind]; rfl
      | identifier kind => rw [kind]; rfl
  | call named spelled => exact ⟨_, _, rfl, by rw [named]; exact ⟨rfl, rfl⟩⟩
  | grouping opens spelled closes => exact ⟨_, _, rfl, by rw [opens]; exact ⟨rfl, rfl⟩⟩

theorem begins_unary {inner : List Token -> Expr -> Prop} :
    Phrase.Begins (Phrase.Unary inner) Starts := by
  intro tokens expression spelled
  cases spelled with
  | primary spelled =>
      rcases begins_primary spelled with ⟨first, rest, shape, starts, _⟩
      exact ⟨first, rest, shape, starts⟩
  | @operation _ operator _ _ denotes spelled =>
      refine ⟨_, _, rfl, ?_⟩
      rw [denotes]
      cases operator <;> rfl

theorem begins_expression (levels precedence : Nat) :
    Phrase.Begins (Phrase.Expression levels precedence) Starts := by
  intro tokens expression spelled
  cases levels with
  | zero => exact False.elim spelled
  | succ levels =>
      induction spelled with
      | unary spelled => exact begins_unary spelled
      | operation _ _ _ _ _ inductionHypothesis =>
          rcases inductionHypothesis with ⟨first, rest, rfl, starts⟩
          exact ⟨first, _, rfl, starts⟩

section Completeness

variable {inner : Reader Expr} {phrase : List Token -> Expr -> Prop}

theorem complete_call (complete : inner.Complete phrase (Ends 0))
    (begins : Phrase.Begins phrase Starts) {start stop : Cursor} {callee : Token}
    {tokens : List Token} {arguments : List Expr} {close : Source.Span}
    (passes : start.Passes (callee :: tokens) stop) (named : callee.kind = .identifier)
    (spelled : Phrase.Parenthesised phrase tokens (arguments, close)) :
    (call inner).run start =
      .ok (.call callee.text arguments (callee.span.through close)) stop := by
  rcases passes.uncons with ⟨middle, passesCallee, passes⟩
  have argumentsRun := Reader.complete_parenthesised complete begins
    ⟨by rintro operator ⟨⟩, by decide⟩ ⟨by rintro operator ⟨⟩, by decide⟩ (by rintro ⟨⟩)
    passes spelled trivial
  rw [call, Reader.run_bind_of_ok (Reader.run_expect_of_passes passesCallee named),
    Reader.run_bind_of_ok argumentsRun]
  rfl

theorem complete_grouping (complete : inner.Complete phrase (Ends 0))
    {start stop : Cursor} {opening close : Token} {tokens : List Token} {expression : Expr}
    (passes : start.Passes (opening :: (tokens ++ [close])) stop)
    (spelled : phrase tokens expression) (closes : close.kind = .closeParen) :
    (grouping inner).run start =
      .ok (.grouping expression (opening.span.through close.span)) stop := by
  rcases passes.head with ⟨rfl, later⟩
  rw [grouping, Reader.run_advance_bind]
  exact Reader.run_followed complete later spelled closes ends_closeParen

/-- A name that is no call is known by the token behind it. -/
theorem complete_announced (operation : Reader Expr)
    (complete : inner.Complete phrase (Ends 0))
    (begins : Phrase.Begins phrase Starts) :
    (announced .standard inner operation).Complete (Phrase.Primary phrase)
      (· ≠ .openParen) := by
  intro start stop passed expression passes spelled notCall
  rw [announced, Reader.run_kind_bind]
  cases spelled with
  | atom spelled =>
      rw [passes.kind_head, leading_of_atom spelled]
      change (primary inner).run start = _
      have ahead : start.nextKind ≠ .openParen := by
        rw [passes.nextKind_head, passes.head.2.eq_of_nil]
        exact notCall
      rw [primary, Reader.run_current_bind, Reader.run_nextKind_bind,
        if_neg (by simp [ahead]), passes.head.1, atom?_eq_some_iff.mpr spelled]
      change EStateM.Result.ok _ start.advance = _
      rw [passes.head.2.eq_of_nil]
  | call named spelled =>
      have callRun := complete_call complete begins passes named spelled
      rw [passes.kind_head, named]
      change (primary inner).run start = _
      have ahead : start.nextKind = .openParen := by
        rw [passes.nextKind_head]
        cases spelled with
        | mk opens _ _ => rw [passes.head.2.kind_head, opens]
      rw [primary, Reader.run_current_bind, Reader.run_nextKind_bind,
        if_pos (by simp [ahead, passes.head.1, named])]
      exact callRun
  | grouping opens spelled closes =>
      rw [passes.kind_head, opens]
      exact complete_grouping complete passes spelled closes

theorem complete_operand (complete : inner.Complete phrase (Ends 0))
    (begins : Phrase.Begins phrase Starts) :
    (operand .standard inner).Complete (Phrase.Primary phrase) (· ≠ .openParen) := by
  intro start stop passed expression passes spelled notCall
  rw [operand, Reader.run_kind_bind]
  have noOperator : (UnaryOperator.ofKind? start.kind).isSome = false := by
    rcases begins_primary spelled with ⟨first, rest, rfl, _, none⟩
    rw [passes.kind_head, none]
    rfl
  rw [if_neg (by rw [noOperator]; decide)]
  exact complete_announced Reader.refuse complete begins passes spelled notCall

theorem complete_leading (complete : inner.Complete phrase (Ends 0))
    (begins : Phrase.Begins phrase Starts) :
    (leading .standard inner).Complete (Phrase.Unary phrase) (· ≠ .openParen) := by
  intro start stop passed expression passes spelled notCall
  cases spelled with
  | primary spelled => exact complete_announced _ complete begins passes spelled notCall
  | @operation token operator tokens value denotes spelled =>
      have operandRun := complete_operand complete begins passes.head.2 spelled notCall
      have isOperator := UnaryOperator.ofKind?_eq_some_iff.mpr (passes.kind_head.trans denotes).symm
      have announces : Grammar.standard.leading start.kind = some .unary := by
        rw [passes.kind_head, denotes]
        cases operator <;> rfl
      rw [leading, announced, Reader.run_kind_bind, announces]
      change (unary (operand .standard inner)).run start = _
      rw [unary, Reader.run_kind_bind, isOperator]
      change (Reader.advance >>= fun _ => operand .standard inner >>= _).run start = _
      rw [Reader.run_advance_bind, Reader.run_bind_of_ok operandRun, passes.head.1]
      rfl

theorem complete_binary {right : Reader Expr} {follow : Token.Kind -> Prop}
    (complete : right.Complete phrase follow) {start stop : Cursor} {token : Token}
    {tokens : List Token} {operator : BinaryOperator} {value : Expr} (left : Expr)
    (passes : start.Passes (token :: tokens) stop) (denotes : token.kind = operator.kind)
    (spelled : phrase tokens value) (follows : follow stop.kind) :
    (binary right left).run start =
      .ok (.binary left operator value (left.span.through value.span)) stop := by
  have isOperator := BinaryOperator.ofKind?_eq_some_iff.mpr (passes.kind_head.trans denotes).symm
  rw [binary, Reader.run_kind_bind, isOperator]
  change (Reader.advance >>= fun _ => right >>= _).run start = _
  rw [Reader.run_advance_bind, Reader.run_bind_of_ok (complete passes.head.2 spelled follows)]
  rfl

end Completeness

/-- Reading from the beginning of a chain comes to its end, in the middle of the
loop and with rounds enough for what follows. -/
theorem run_climb_of_chain {inner : Reader Expr} {right : BindingPower -> Reader Expr}
    {phrase : Nat -> List Token -> Expr -> Prop} {power : BindingPower}
    (completeLeading : (leading .standard inner).Complete (Phrase.Unary (phrase 0))
      (· ≠ .openParen))
    (completeRight : forall power, (right power).Complete (phrase power.rank) (Ends power.rank))
    {passed : List Token} {expression : Expr}
    (spelled : Phrase.Chain phrase power.rank passed expression) {start stop : Cursor}
    (passes : start.Passes passed stop) (notCall : stop.kind ≠ .openParen)
    (held : forall operator, BinaryOperator.ofKind? stop.kind = some operator ->
      expression.Holds operator.precedence) :
    Exists fun rounds : List Token => stop.tokens.length ≤ rounds.length ∧
      (leading .standard inner >>= fun left => Reader.tokens >>= fun rounds =>
        climb .standard right power rounds left).run start =
      (climb .standard right power rounds expression).run stop := by
  induction spelled generalizing stop with
  | unary spelled =>
      refine ⟨stop.tokens, Nat.le_refl _, ?_⟩
      rw [Reader.run_bind_of_ok (completeLeading passes spelled notCall), Reader.run_tokens_bind]
  | @operation before behind token operator left value spelledLeft tighter heldLeft denotes
      spelledRight inductionHypothesis =>
      rcases passes.split with ⟨middle, passesLeft, passesRight⟩
      have isOperator : BinaryOperator.ofKind? middle.kind = some operator :=
        BinaryOperator.ofKind?_eq_some_iff.mpr (passesRight.kind_head.trans denotes).symm
      have notCallMiddle : middle.kind ≠ .openParen := by
        rw [passesRight.kind_head, denotes]
        cases operator <;> decide
      have heldMiddle : forall other, BinaryOperator.ofKind? middle.kind = some other ->
          left.Holds other.precedence := by
        intro other isOther
        cases isOperator.symm.trans isOther
        exact heldLeft
      rcases inductionHypothesis passesLeft notCallMiddle heldMiddle with
        ⟨rounds, adequate, leftRun⟩
      have ends : Ends operator.precedence stop.kind :=
        ⟨fun other isOther => held other isOther operator.precedence rfl, notCall⟩
      rcases exists_binding isOperator with ⟨next, binds, rank⟩
      have completeNext := completeRight next
      rw [rank] at completeNext
      have shorter := passesRight.length_lt (List.cons_ne_nil _ _)
      cases rounds with
      | nil => exact absurd adequate (Nat.not_le.mpr middle.tokens_length_pos)
      | cons round rounds =>
          rw [List.length_cons] at adequate
          refine ⟨rounds, by omega, leftRun.trans ?_⟩
          have binaryRun := complete_binary completeNext left passesRight denotes spelledRight ends
          rw [run_climb_of_operator binds, rank, if_neg (Nat.not_le.mpr tighter),
            Reader.run_bind_of_ok binaryRun]

/-- Every phrase is read in full where a token stands behind it that ends it. -/
theorem complete_read (levels : Nat) (power : BindingPower) :
    (read .standard levels power).Complete (Phrase.Expression levels power.rank)
      (Ends power.rank) := by
  induction levels generalizing power with
  | zero =>
      intro start stop passed expression _passes spelled
      exact False.elim spelled
  | succ levels inductionHypothesis =>
      intro start stop passed expression passes spelled ends
      have held : forall operator, BinaryOperator.ofKind? stop.kind = some operator ->
          expression.Holds operator.precedence := by
        intro operator isOperator own isOwn
        have looser := ends.settled operator isOperator
        have tighter := Phrase.exceeds_of_chain spelled own isOwn
        exact Nat.le_of_lt (Nat.lt_of_le_of_lt looser tighter)
      rcases run_climb_of_chain
          (complete_leading (inductionHypothesis .loosest) (begins_expression levels 0))
          inductionHypothesis spelled passes ends.notCall held with ⟨rounds, _, run⟩
      rw [read, run, run_climb_of_settled _ _ _ ends.settled]

end Expression
end Reading
end ToyFrontend
