import ToyFrontend.Proofs.Reading.Agreement

namespace ToyFrontend
namespace Reading

open SyntaxTree (Expr BindingPower BinaryOperator)
open Reader

/-!
# The layers of the grammar

The grammar of the language gives every group of operators a layer of its own:
an equality is made of comparisons, a comparison of sums, a sum of products and a
product of operands with at most one operator before them.  This module reads
expressions in that way, one reader for each layer, without any powers, and
compares the result with the one loop that climbs over powers.

A layer knows no bound on nesting.  Every inner expression stands behind a
parenthesis, so a reader that may go as many times into itself as there are
tokens ahead never notices the number, and `Layered.run_whole` is the equation
that a definition without it would have.
-/

namespace Layered

/-- Join further operands to the left one as long as an operator of the layer stands
between them.  There are at most as many operators as there are `rounds`. -/
def fold (operators : List BinaryOperator) (operand : Reader Expr) :
    List Token -> Expr -> Reader Expr
  | [], left => return left
  | _ :: rounds, left => do
      match BinaryOperator.ofKind? (← Reader.kind) with
      | none => return left
      | some operator =>
          if operator ∈ operators then
            let _ ← Reader.advance
            let right ← operand
            fold operators operand rounds
              (.binary left operator right (left.span.through right.span))
          else
            return left

/-- Operands with the operators of one layer between them. -/
def layer (operators : List BinaryOperator) (operand : Reader Expr) : Reader Expr := do
  let left ← operand
  fold operators operand (← Reader.tokens) left

section Layers

variable (inner : Reader Expr)

/-- A primary expression with at most one operator before it. -/
def unary : Reader Expr :=
  Expression.leading .standard inner

def multiplicative : Reader Expr :=
  layer [.multiply, .divide] (unary inner)

def additive : Reader Expr :=
  layer [.add, .subtract] (multiplicative inner)

def comparison : Reader Expr :=
  layer [.less, .lessEqual, .greater, .greaterEqual] (additive inner)

def equality : Reader Expr :=
  layer [.equal, .notEqual] (comparison inner)

end Layers

/-- An expression in a context of some power, which the layer of the next
tighter operators reads. -/
def within (inner : Reader Expr) : BindingPower -> Reader Expr
  | .loosest => equality inner
  | .equality => comparison inner
  | .relational => additive inner
  | .additive => multiplicative inner
  | .multiplicative => unary inner

/-- A whole expression with inner expressions down to a depth. -/
def nested : Nat -> Reader Expr
  | 0 => Reader.fail .nestingTooDeep []
  | depth + 1 => equality (nested depth)

/-- A whole expression.  None is deeper than there are tokens ahead. -/
def whole : Reader Expr := do
  nested (← Reader.tokens).length

/-! ## One layer -/

theorem joins_or_outside (operators : List BinaryOperator) (kind : Token.Kind) :
    (Exists fun operator => BinaryOperator.ofKind? kind = some operator ∧ operator ∈ operators) ∨
      forall operator, BinaryOperator.ofKind? kind = some operator -> ¬ operator ∈ operators := by
  by_cases joins : Exists fun operator =>
      BinaryOperator.ofKind? kind = some operator ∧ operator ∈ operators
  · exact .inl joins
  · exact .inr fun operator ahead listed => joins ⟨operator, ahead, listed⟩

section Layer

variable {operators : List BinaryOperator} {operand : Reader Expr}

/-- An operator of the layer ahead is taken as an operation takes it. -/
theorem run_fold_of_mem {round : Token} {rounds : List Token} {left : Expr} {cursor : Cursor}
    {operator : BinaryOperator} (ahead : BinaryOperator.ofKind? cursor.kind = some operator)
    (listed : operator ∈ operators) :
    (fold operators operand (round :: rounds) left).run cursor =
      (Expression.binary operand left >>= fold operators operand rounds).run cursor := by
  rw [fold, Expression.binary, bind_assoc, run_kind_bind, run_kind_bind, ahead]
  change (if operator ∈ operators then _ else _ : Reader Expr).run cursor = _
  rw [if_pos listed]
  change _ = ((advance >>= fun _ => operand >>= fun right => pure _) >>= _ : Reader Expr).run cursor
  rw [bind_assoc, run_advance_bind, run_advance_bind, bind_assoc]
  rfl

theorem run_fold_of_not_mem (rounds : List Token) (left : Expr) {cursor : Cursor}
    (outside : forall operator, BinaryOperator.ofKind? cursor.kind = some operator ->
      ¬ operator ∈ operators) :
    (fold operators operand rounds left).run cursor = .ok left cursor := by
  cases rounds with
  | nil => rfl
  | cons round rounds =>
      rw [fold, run_kind_bind]
      split
      next => rfl
      next operator ahead =>
        rw [if_neg (outside operator ahead)]
        rfl

/-- A round of the loop passes an operator and whatever the operand passes. -/
theorem binary_forward (forward : operand.Forward) {start stop : Cursor}
    {operator : BinaryOperator} {left expression : Expr} (closed : start.Closed)
    (ahead : BinaryOperator.ofKind? start.kind = some operator)
    (run : (Expression.binary operand left).run start = .ok expression stop) :
    start.advance.Closed ∧ (Exists fun value => operand.run start.advance = .ok value stop) ∧
      stop.Closed ∧ stop.tokens.length < start.tokens.length := by
  rw [Expression.run_binary ahead] at run
  rcases run_bind_eq_ok_iff.mp run with ⟨value, middle, operandRun, run⟩
  cases run
  have passes := closed.passes_advance (Expression.kind_ne_eof_of_binaryOperator ahead)
  have closedOperand := passes.closed closed
  have shorter := passes.length_lt (List.cons_ne_nil _ _)
  have behind := forward closedOperand operandRun
  exact ⟨closedOperand, ⟨value, operandRun⟩, behind.1, Nat.lt_of_le_of_lt behind.2 shorter⟩

/-- Rounds that do not run out make no difference. -/
theorem run_fold_of_adequate (forward : operand.Forward) {first second : List Token}
    {cursor : Cursor} (closed : cursor.Closed) (adequate : cursor.tokens.length <= first.length)
    (adequateToo : cursor.tokens.length <= second.length) (left : Expr) :
    (fold operators operand first left).run cursor =
      (fold operators operand second left).run cursor := by
  induction first generalizing second cursor left with
  | nil => exact absurd adequate (Nat.not_le.mpr cursor.tokens_length_pos)
  | cons round rounds inductionHypothesis =>
      cases second with
      | nil => exact absurd adequateToo (Nat.not_le.mpr cursor.tokens_length_pos)
      | cons other others =>
          rcases joins_or_outside operators cursor.kind with ⟨operator, ahead, listed⟩ | outside
          · rw [run_fold_of_mem ahead listed, run_fold_of_mem ahead listed]
            apply run_bind_congr
            intro joined stop run
            rcases binary_forward forward closed ahead run with ⟨-, -, closedStop, shorter⟩
            rw [List.length_cons] at adequate adequateToo
            exact inductionHypothesis closedStop (by omega) (by omega) joined
          · rw [run_fold_of_not_mem _ _ outside, run_fold_of_not_mem _ _ outside]

theorem agrees_fold {excused : SyntaxError -> Prop} {limit : Nat} {other : Reader Expr}
    (agrees : Agrees excused limit operand other) (rounds : List Token) (left : Expr) :
    Agrees excused limit (fold operators operand rounds left)
      (fold operators other rounds left) := by
  induction rounds generalizing left with
  | nil => exact agrees_pure left
  | cons round rounds inductionHypothesis =>
      intro cursor closed within
      rcases joins_or_outside operators cursor.kind with ⟨operator, ahead, listed⟩ | outside
      · rw [run_fold_of_mem ahead listed, run_fold_of_mem ahead listed]
        exact (Expression.agrees_binary agrees left).bind inductionHypothesis closed within
      · rw [run_fold_of_not_mem _ _ outside, run_fold_of_not_mem _ _ outside]
        exact agrees_pure left closed within

theorem agrees_layer {excused : SyntaxError -> Prop} {limit : Nat} {other : Reader Expr}
    (agrees : Agrees excused limit operand other) :
    Agrees excused limit (layer operators operand) (layer operators other) := by
  apply agrees.bind
  intro left cursor closed within
  rw [run_tokens_bind, run_tokens_bind]
  exact agrees_fold agrees _ _ closed within

end Layer

/-! ## No bound on nesting -/

theorem agrees_within {excused : SyntaxError -> Prop} {limit : Nat} {inner other : Reader Expr}
    (agrees : Agrees excused limit inner other) (power : BindingPower) :
    Agrees excused (limit + 1) (within inner power) (within other power) := by
  have unary := Expression.agrees_leading agrees
  cases power with
  | loosest => exact agrees_layer (agrees_layer (agrees_layer (agrees_layer unary)))
  | equality => exact agrees_layer (agrees_layer (agrees_layer unary))
  | relational => exact agrees_layer (agrees_layer unary)
  | additive => exact agrees_layer unary
  | multiplicative => exact unary

/-- A depth that covers the tokens ahead may be any such depth. -/
theorem agrees_nested {depth deeper : Nat} (within : depth <= deeper) :
    Agrees (fun _ => False) depth (nested depth) (nested deeper) := by
  induction depth generalizing deeper with
  | zero =>
      intro cursor closed none
      exact absurd none (Nat.not_le.mpr cursor.tokens_length_pos)
  | succ depth inductionHypothesis =>
      cases deeper with
      | zero => cases within
      | succ deeper =>
          exact agrees_within (inductionHypothesis (Nat.le_of_succ_le_succ within)) .loosest

theorem run_nested_eq_whole {depth : Nat} {cursor : Cursor} (closed : cursor.Closed)
    (within : cursor.tokens.length <= depth) :
    (nested depth).run cursor = whole.run cursor := by
  rw [whole, run_tokens_bind]
  exact ((agrees_nested within closed (Nat.le_refl _)).eq fun _ _ _ => id).symm

theorem agrees_nested_whole (depth : Nat) :
    Agrees (fun _ => False) depth (nested depth) whole := by
  intro cursor closed within
  rw [← run_nested_eq_whole closed within]
  exact agrees_nested (Nat.le_refl depth) closed within

/-- Reading goes from the outermost layer to whole expressions again, at any depth. -/
theorem run_whole {cursor : Cursor} (closed : cursor.Closed) :
    whole.run cursor = (equality whole).run cursor := by
  have agrees := agrees_within (agrees_nested_whole cursor.tokens.length) .loosest
  rw [← run_nested_eq_whole closed (Nat.le_succ _)]
  exact (agrees closed (Nat.le_succ _)).eq fun _ _ _ => id

theorem agrees_whole (limit : Nat) : Agrees (fun _ => False) limit whole whole := by
  intro cursor closed within
  have agree := agrees_nested_whole limit closed within
  rwa [run_nested_eq_whole closed within] at agree

/-! ## One loop for all layers -/

theorem rank_injective {first second : BindingPower} (same : first.rank = second.rank) :
    first = second := by
  cases first <;> cases second <;> first | rfl | cases same

/-- The two powers are neighbours, and these are the operators of the tighter one. -/
structure Adjacent (looser tighter : BindingPower) (operators : List BinaryOperator) : Prop where
  rank_eq : tighter.rank = looser.rank + 1
  mem_iff : forall operator, operator ∈ operators ↔ operator.precedence = tighter.rank

namespace Adjacent

variable {looser tighter : BindingPower} {operators : List BinaryOperator}

theorem mem_of_not_le (adjacent : Adjacent looser tighter operators) {operator : BinaryOperator}
    (bounded : operator.precedence <= tighter.rank) (tight : ¬ operator.precedence <= looser.rank) :
    operator ∈ operators := by
  apply (adjacent.mem_iff operator).mpr
  have rank := adjacent.rank_eq
  omega

theorem not_mem (adjacent : Adjacent looser tighter operators) {operator : BinaryOperator}
    (loose : operator.precedence <= looser.rank) : ¬ operator ∈ operators := by
  intro listed
  have same := adjacent.mem_iff operator |>.mp listed
  have rank := adjacent.rank_eq
  omega

theorem le_trans (adjacent : Adjacent looser tighter operators) {precedence : Nat}
    (bounded : precedence <= looser.rank) : precedence <= tighter.rank := by
  have rank := adjacent.rank_eq
  omega

end Adjacent

section Climbing

variable {looser tighter : BindingPower} {operators : List BinaryOperator}
  {right : BindingPower -> Reader Expr}

/-- Joining goes on until no operator of the layer is ahead; every operand has passed
the tighter ones. -/
theorem settled_of_fold (adjacent : Adjacent looser tighter operators) {operand : Reader Expr}
    (forward : operand.Forward) (settles : operand.Settles (Expression.Settled tighter.rank))
    (rounds : List Token) {start stop : Cursor} {left expression : Expr} (closed : start.Closed)
    (adequate : start.tokens.length <= rounds.length)
    (settled : Expression.Settled tighter.rank start.kind)
    (run : (fold operators operand rounds left).run start = .ok expression stop) :
    Expression.Settled looser.rank stop.kind := by
  induction rounds generalizing start left with
  | nil => exact absurd adequate (Nat.not_le.mpr start.tokens_length_pos)
  | cons round rounds inductionHypothesis =>
      rcases joins_or_outside operators start.kind with ⟨operator, ahead, listed⟩ | outside
      · rw [run_fold_of_mem ahead listed] at run
        rcases run_bind_eq_ok_iff.mp run with ⟨joined, middle, binaryRun, run⟩
        rcases binary_forward forward closed ahead binaryRun with
          ⟨closedOperand, ⟨value, operandRun⟩, closedMiddle, shorter⟩
        rw [List.length_cons] at adequate
        exact inductionHypothesis closedMiddle (by omega) (settles closedOperand operandRun) run
      · rw [run_fold_of_not_mem _ _ outside] at run
        cases run
        intro operator ahead
        by_cases loose : operator.precedence <= looser.rank
        · exact loose
        · exact absurd (adjacent.mem_of_not_le (settled operator ahead) loose)
            (outside operator ahead)

/-- After a layer there is none of its operators ahead, and none of a tighter one. -/
theorem settles_layer (adjacent : Adjacent looser tighter operators) {operand : Reader Expr}
    (forward : operand.Forward) (settles : operand.Settles (Expression.Settled tighter.rank)) :
    (layer operators operand).Settles (Expression.Settled looser.rank) := by
  intro start stop expression closed run
  rcases run_bind_eq_ok_iff.mp run with ⟨left, middle, operandRun, run⟩
  rw [run_tokens_bind] at run
  exact settled_of_fold adjacent forward settles middle.tokens (forward closed operandRun).1
    (Nat.le_refl _) (settles closed operandRun) run

/-- The loop for a context of some power is the loop for a tighter context, with the
operators in between joined behind it. -/
theorem run_climb_split (adjacent : Adjacent looser tighter operators)
    (forward : forall power, (right power).Forward)
    (settles : (right tighter).Settles (Expression.Settled tighter.rank)) (rounds : List Token)
    {cursor : Cursor} (closed : cursor.Closed) (adequate : cursor.tokens.length <= rounds.length)
    (left : Expr) :
    (Expression.climb .standard right looser rounds left).run cursor =
      (Expression.climb .standard right tighter rounds left >>= fun joined =>
        tokens >>= fun ahead => fold operators (right tighter) ahead joined).run cursor := by
  induction rounds generalizing cursor left with
  | nil => exact absurd adequate (Nat.not_le.mpr cursor.tokens_length_pos)
  | cons round rounds inductionHypothesis =>
      rw [List.length_cons] at adequate
      -- Where the tighter loop stops at once, joining starts with the left operand.
      have stopped (settled : Expression.Settled tighter.rank cursor.kind) :
          (Expression.climb .standard right tighter (round :: rounds) left >>= fun joined =>
            tokens >>= fun ahead => fold operators (right tighter) ahead joined).run cursor =
          (fold operators (right tighter) cursor.tokens left).run cursor := by
        rw [run_bind_of_ok (Expression.run_climb_of_settled _ _ _ settled), run_tokens_bind]
      by_cases loose : Expression.Settled looser.rank cursor.kind
      · have outside : forall operator, BinaryOperator.ofKind? cursor.kind = some operator ->
            ¬ operator ∈ operators :=
          fun operator ahead => adjacent.not_mem (loose operator ahead)
        rw [stopped fun operator ahead => adjacent.le_trans (loose operator ahead),
          Expression.run_climb_of_settled _ _ _ loose, run_fold_of_not_mem _ _ outside]
      · cases ahead : BinaryOperator.ofKind? cursor.kind with
        | none => exact absurd (Expression.settled_of_no_operator ahead) loose
        | some operator =>
            rcases Expression.exists_binding ahead with ⟨next, binds, precedes⟩
            have tight : ¬ operator.precedence <= looser.rank :=
              fun bounded => loose (Expression.settled_of_looser ahead bounded)
            rw [Expression.run_climb_of_operator binds, precedes, if_neg tight]
            by_cases bounded : operator.precedence <= tighter.rank
            · -- An operator of the layer itself: the tighter loop stops before it.
              have listed := adjacent.mem_of_not_le bounded tight
              have same := rank_injective (precedes.trans ((adjacent.mem_iff operator).mp listed))
              rw [stopped (Expression.settled_of_looser ahead bounded), Cursor.tokens,
                run_fold_of_mem ahead listed, same]
              apply run_bind_congr
              intro joined stop run
              rcases binary_forward (forward tighter) closed ahead run with
                ⟨closedOperand, ⟨value, operandRun⟩, closedStop, shorter⟩
              have settled := settles closedOperand operandRun
              rw [inductionHypothesis closedStop (by omega),
                run_bind_of_ok (Expression.run_climb_of_settled _ _ _ settled), run_tokens_bind]
              apply run_fold_of_adequate (forward tighter) closedStop (Nat.le_refl _)
              exact Nat.le_of_lt_succ shorter
            · -- A tighter operator is taken by both loops.
              rw [run_bind_of_eq (Expression.run_climb_of_operator binds), precedes,
                if_neg bounded, bind_assoc]
              apply run_bind_congr
              intro joined stop run
              rcases binary_forward (forward _) closed ahead run with
                ⟨-, -, closedStop, shorter⟩
              exact inductionHypothesis closedStop (by omega) joined

end Climbing

theorem adjacent_equality : Adjacent .loosest .equality [.equal, .notEqual] :=
  ⟨rfl, fun operator => by cases operator <;> decide⟩

theorem adjacent_comparison :
    Adjacent .equality .relational [.less, .lessEqual, .greater, .greaterEqual] :=
  ⟨rfl, fun operator => by cases operator <;> decide⟩

theorem adjacent_additive : Adjacent .relational .additive [.add, .subtract] :=
  ⟨rfl, fun operator => by cases operator <;> decide⟩

theorem adjacent_multiplicative : Adjacent .additive .multiplicative [.multiply, .divide] :=
  ⟨rfl, fun operator => by cases operator <;> decide⟩

/-- No operator binds more tightly than those of the last layer. -/
theorem settled_multiplicative (kind : Token.Kind) :
    Expression.Settled BindingPower.multiplicative.rank kind := by
  intro operator _
  cases operator <;> decide

theorem forward_within (power : BindingPower) : (within whole power).Forward :=
  Agrees.forward fun limit =>
    (agrees_within (agrees_whole limit) power).of_le (Nat.le_succ limit)

theorem settles_within (power : BindingPower) :
    (within whole power).Settles (Expression.Settled power.rank) := by
  have multiplicative : (within whole .multiplicative).Settles
      (Expression.Settled BindingPower.multiplicative.rank) :=
    fun _ _ _ _ _ => settled_multiplicative _
  have additive : (within whole .additive).Settles
      (Expression.Settled BindingPower.additive.rank) :=
    settles_layer adjacent_multiplicative (forward_within .multiplicative) multiplicative
  have relational : (within whole .relational).Settles
      (Expression.Settled BindingPower.relational.rank) :=
    settles_layer adjacent_additive (forward_within .additive) additive
  have equality : (within whole .equality).Settles
      (Expression.Settled BindingPower.equality.rank) :=
    settles_layer adjacent_comparison (forward_within .relational) relational
  cases power with
  | loosest => exact settles_layer adjacent_equality (forward_within .equality) equality
  | equality => exact equality
  | relational => exact relational
  | additive => exact additive
  | multiplicative => exact multiplicative

/-- The beginning of an expression and the one loop behind it, with the layers for
all other parts. -/
def climbing (power : BindingPower) : Reader Expr := do
  let left ← Expression.leading .standard whole
  Expression.climb .standard (within whole) power (← Reader.tokens) left

/-- A loop that is as good as the layers for one power is so for the next looser one. -/
theorem run_climbing_of_adjacent {looser tighter : BindingPower}
    {operators : List BinaryOperator} (adjacent : Adjacent looser tighter operators)
    (isLayer : within whole looser = layer operators (within whole tighter)) {cursor : Cursor}
    (closed : cursor.Closed)
    (same : (climbing tighter).run cursor = (within whole tighter).run cursor) :
    (climbing looser).run cursor = (within whole looser).run cursor := by
  calc (climbing looser).run cursor
      = (climbing tighter >>= fun joined => tokens >>= fun ahead =>
          fold operators (within whole tighter) ahead joined).run cursor := by
        rw [climbing, climbing, bind_assoc]
        apply run_bind_congr
        intro left middle leadingRun
        have closedMiddle := (forward_within .multiplicative closed leadingRun).1
        rw [bind_assoc, run_tokens_bind, run_tokens_bind]
        exact run_climb_split adjacent forward_within (settles_within tighter) middle.tokens
          closedMiddle (Nat.le_refl _) left
    _ = (layer operators (within whole tighter)).run cursor := run_bind_of_eq same _
    _ = (within whole looser).run cursor := by rw [isLayer]

/-- The one loop reads what the layers read. -/
theorem run_climbing (power : BindingPower) {cursor : Cursor} (closed : cursor.Closed) :
    (climbing power).run cursor = (within whole power).run cursor := by
  have multiplicative : (climbing .multiplicative).run cursor =
      (within whole .multiplicative).run cursor := by
    have alone : within whole .multiplicative = Expression.leading .standard whole >>= pure :=
      (bind_pure _).symm
    rw [alone, climbing]
    apply run_bind_congr
    intro left middle _
    rw [run_tokens_bind, Expression.run_climb_of_settled _ _ _ (settled_multiplicative _)]
    rfl
  have additive := run_climbing_of_adjacent adjacent_multiplicative rfl closed multiplicative
  have relational := run_climbing_of_adjacent adjacent_additive rfl closed additive
  have equality := run_climbing_of_adjacent adjacent_comparison rfl closed relational
  cases power with
  | loosest => exact run_climbing_of_adjacent adjacent_equality rfl closed equality
  | equality => exact equality
  | relational => exact relational
  | additive => exact additive
  | multiplicative => exact multiplicative

/-- Only the bound on nesting can keep the readers apart. -/
theorem agrees_read (levels : Nat) (power : BindingPower) (limit : Nat) :
    Agrees (fun error => error.cause = .nestingTooDeep) limit
      (Expression.read .standard levels power) (within whole power) := by
  induction levels generalizing power limit with
  | zero =>
      intro cursor closed _
      exact .excuse rfl
  | succ levels inductionHypothesis =>
      have inner : Agrees (fun error => error.cause = .nestingTooDeep) limit
          (Expression.read .standard levels .loosest) whole := by
        intro cursor closed bounded
        rw [run_whole closed]
        exact inductionHypothesis .loosest limit closed bounded
      have agrees : Agrees (fun error => error.cause = .nestingTooDeep) limit
          (Expression.read .standard (levels + 1) power) (climbing power) := by
        rw [Expression.read, climbing]
        apply ((Expression.agrees_leading inner).of_le (Nat.le_succ limit)).bind
        intro left cursor closed bounded
        rw [run_tokens_bind, run_tokens_bind]
        exact Expression.agrees_climb (fun power => inductionHypothesis power limit) _ _ _ closed
          bounded
      intro cursor closed bounded
      rw [← run_climbing power closed]
      exact agrees closed bounded

end Layered

/-- Whatever tokens are ahead, and however many levels are open: unless the bound on
nesting ends the reading of an expression, the layers give the same tree with the
same spans, or the same error, and leave the cursor at the same token.  The layers
themselves have no bound, since they enter themselves again at any depth. -/
theorem run_whole_eq_layered {levels : Nat} {cursor : Cursor} (closed : cursor.Closed)
    (shallow : forall error stop,
      (Expression.whole .standard levels).run cursor = .error error stop ->
        error.cause ≠ .nestingTooDeep) :
    (Expression.whole .standard levels).run cursor = Layered.whole.run cursor ∧
      Layered.whole.run cursor = (Layered.equality Layered.whole).run cursor := by
  have unfolded := Layered.run_whole closed
  refine ⟨?_, unfolded⟩
  rw [unfolded]
  exact (Layered.agrees_read levels .loosest _ closed (Nat.le_refl _)).eq shallow

/-- The tokens of `1 + 2 * (-3) == 4 <`, where the last operand is missing. -/
def unfinishedComparison : Cursor :=
  .ofTokens <| List.map (fun (kind, value) =>
      { kind := kind, text := "", value := value, span := .point .start })
    [(.intLiteral, some (.int 1)), (.plus, none), (.intLiteral, some (.int 2)), (.star, none),
      (.openParen, none), (.dash, none), (.intLiteral, some (.int 3)), (.closeParen, none),
      (.equals, none), (.intLiteral, some (.int 4)), (.less, none)]

theorem run_whole_eq_unfinishedComparison :
    (Exists fun error => Exists fun stop =>
      (Expression.whole .standard 4).run unfinishedComparison = .error error stop ∧
        error.cause = .expectedExpression) ∧
      (Expression.whole .standard 4).run unfinishedComparison =
        Layered.whole.run unfinishedComparison ∧
      Layered.whole.run unfinishedComparison =
        (Layered.equality Layered.whole).run unfinishedComparison := by
  have fails : Exists fun error => Exists fun stop =>
      (Expression.whole .standard 4).run unfinishedComparison = .error error stop ∧
        error.cause = .expectedExpression :=
    ⟨_, _, rfl, rfl⟩
  refine ⟨fails, run_whole_eq_layered (Cursor.closed_ofTokens _) ?_⟩
  rcases fails with ⟨error, stop, run, cause⟩
  intro other place same
  cases run.symm.trans same
  rw [cause]
  decide

end Reading
end ToyFrontend
