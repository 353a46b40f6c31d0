import ToyFrontend.Proofs.Blame.Contract
import ToyFrontend.Proofs.Shape

namespace ToyFrontend

namespace Phrase

/-!
# Errors in expressions

Whether an expression could go on does not depend on how deep it would become,
but readers and their phrases have a bound on the depth.  The errors of this
module are therefore explained by phrases without one: `Written` asks that the
tokens have the words of an expression and that the grammar's conditions hold
inside it, at any depth.
-/

open SyntaxTree

/-- The tokens write an expression for a context of some precedence, however deep it is. -/
structure Written (precedence : Nat) (tokens : List Token) (expression : Expr) : Prop where
  words : tokens.map Token.word = expression.words
  regular : RegularParts expression
  exceeds : expression.Exceeds precedence

theorem written_of_expression {levels precedence : Nat} {tokens : List Token}
    {expression : Expr} (spelled : Expression levels precedence tokens expression) :
    Written precedence tokens expression where
  words := keepsWords_expression levels precedence spelled
  regular := ensures_expression levels precedence spelled
  exceeds := exceeds_of_expression spelled

/-- A chain of written operands is written. -/
theorem written_of_chain {precedence : Nat} {tokens : List Token} {expression : Expr}
    (spelled : Chain Written precedence tokens expression) :
    Written precedence tokens expression := by
  induction spelled with
  | unary spelled =>
      refine ⟨keepsWords_unary (fun _ _ inner => inner.words) spelled,
        ensures_unary (fun _ _ inner => inner.regular) spelled, ?_⟩
      exact exceeds_of_unary spelled precedence
  | operation spelledLeft tighter held denotes spelledRight left =>
      refine ⟨?_, ?_, ?_⟩
      · rw [List.map_append, List.map_cons, left.words, word_of_binaryOperator denotes,
          spelledRight.words, Expr.words]
      · exact regularParts_binary_iff.mpr ⟨⟨held, spelledRight.exceeds⟩, left.regular,
          spelledRight.regular⟩
      · intro own isOwn
        cases isOwn
        exact tighter

/-! ## Beginnings of expressions -/

theorem exists_atom {token : Token} {kind : Token.Kind}
    (isLiteral : kind ∈ [.intLiteral, .stringLiteral, .boolLiteral, .identifier])
    (isKind : token.kind = kind) (coherent : token.Coherent) :
    Exists fun expression => Atom token expression := by
  subst kind
  by_cases named : token.kind = .identifier
  · exact ⟨_, .identifier named⟩
  · have hasValue : token.kind.isLiteral = true := by
      simp only [List.mem_cons, List.not_mem_nil, or_false] at isLiteral
      rcases isLiteral with isInt | isString | isBool | isName
      · rw [isInt]; rfl
      · rw [isString]; rfl
      · rw [isBool]; rfl
      · exact absurd isName named
    rcases coherent hasValue with ⟨value, denotes, sameKind⟩
    cases value with
    | int value => exact ⟨_, .int sameKind denotes⟩
    | string value => exact ⟨_, .string sameKind denotes⟩
    | bool value => exact ⟨_, .bool sameKind denotes⟩

section Beginnings

variable {inner : List Token -> Expr -> Prop}

/-- A token that begins a primary expression is the whole of one or opens a grouping. -/
theorem admits_primary (possible : Extends inner []) {kind : Token.Kind}
    (listed : kind ∈ Token.Kind.primaryStart) : Admits (Primary inner) [] kind := by
  intro next isKind coherent
  have split : kind ∈ [.intLiteral, .stringLiteral, .boolLiteral, .identifier] ++
      [Token.Kind.openParen] := listed
  rcases List.mem_append.mp split with isAtom | isParen
  · rcases exists_atom isAtom isKind coherent with ⟨expression, spelled⟩
    exact .of_spelled [] (.atom spelled) rfl
  · cases List.mem_singleton.mp isParen
    rcases possible with ⟨tokens, value, spelled⟩
    exact .of_spelled (tokens ++ [.sample .closeParen]) (.grouping isKind spelled rfl) rfl

theorem extends_primary (possible : Extends inner []) : Extends (Primary inner) [] :=
  (admits_primary possible (show .intLiteral ∈ Token.Kind.primaryStart by decide)).extends

theorem fits_primary_operand {token : Token} {operator : UnaryOperator}
    (denotes : token.kind = operator.kind) : FitsBehind (Primary inner) (Unary inner) [token] :=
  fun _ _ spelled => .of_spelled [] (.operation denotes spelled) (by simp)

theorem fits_primary : FitsBehind (Primary inner) (Unary inner) [] :=
  fun _ _ spelled => .of_spelled [] (.primary spelled) (by simp)

theorem admits_unary (possible : Extends inner []) {kind : Token.Kind}
    (listed : kind ∈ Token.Kind.expressionStart) : Admits (Unary inner) [] kind := by
  rcases List.mem_append.mp listed with isPrimary | isOperator
  · exact (admits_primary possible isPrimary).within fits_primary
  · have denotes : Exists fun operator : UnaryOperator => kind = operator.kind := by
      simp only [List.mem_cons, List.not_mem_nil, or_false] at isOperator
      rcases isOperator with rfl | rfl
      · exact ⟨.negate, rfl⟩
      · exact ⟨.not, rfl⟩
    rcases denotes with ⟨operator, rfl⟩
    intro next isKind _coherent
    exact (extends_primary possible).within (fits_primary_operand isKind)

end Beginnings

end Phrase

namespace Reading
namespace Expression

open Phrase
open Reader
open SyntaxTree (Expr BindingPower BinaryOperator UnaryOperator)

section Forms

variable {inner : Reader Expr} {phrase : List Token -> Expr -> Prop}

theorem explains_call (accounts : AccountsFor inner phrase) :
    Explains (Primary phrase) [] (call inner) := by
  apply explains_expect (by decide) (admits_primary accounts.possible (by decide))
  intro callee named
  refine Explains.map ((explains_parenthesised accounts).within ?_) _
  rintro tokens ⟨arguments, close⟩ spelled
  exact .of_spelled [] (.call named spelled) (by simp)

theorem explains_primary (accounts : AccountsFor inner phrase) :
    Explains (Primary phrase) [] (primary inner) := by
  intro start closed error stop run
  rw [primary, run_current_bind, run_nextKind_bind] at run
  split at run
  next => exact explains_call accounts closed run
  next =>
    split at run
    next => cases run
    next =>
      have admits kind := @admits_primary phrase accounts.possible kind
      exact explains_fail (List.cons_ne_nil _ _) admits closed run

theorem explainsAt_grouping (accounts : AccountsFor inner phrase) {start : Cursor}
    (closed : start.Closed) (opens : start.kind = .openParen) :
    ExplainsAt start (Primary phrase) [] (grouping inner) := by
  apply explainsAt_advance closed (by rw [opens]; decide)
  apply explains_followed accounts.sound accounts.explains (by decide)
  intro tokens value spelled close closes _coherent
  exact .of_spelled [] (.grouping opens spelled closes) (by simp)

/-- The forms that begin without an operator. -/
theorem explainsAt_announced (accounts : AccountsFor inner phrase)
    {whole : List Token -> Expr -> Prop} {before : List Token} {operation : Reader Expr}
    {start : Cursor} (closed : start.Closed)
    (fits : FitsBehind (Primary phrase) whole before)
    (explainsOperation : Grammar.standard.leading start.kind = some .unary ->
      ExplainsAt start whole before operation)
    (explained : Explained whole before start.current
      (SyntaxError.blame .expectedExpression Token.Kind.expressionStart start.current)) :
    ExplainsAt start whole before (announced .standard inner operation) := by
  intro error stop run
  rw [announced, run_kind_bind] at run
  split at run
  next form announces =>
    cases form with
    | primary => exact (explains_primary accounts).within fits closed run
    | unary => exact explainsOperation announces run
    | grouping =>
        have opens := kind_of_leading_grouping announces
        rcases explainsAt_grouping accounts closed opens run with
          ⟨passed, passes, explained⟩
        exact ⟨passed, passes, explained.within fits⟩
    | call => exact absurd announces (leading_ne_call _)
  next => exact explainsAt_fail explained run

theorem isSome_of_leading_unary {kind : Token.Kind}
    (announces : Grammar.standard.leading kind = some .unary) :
    (UnaryOperator.ofKind? kind).isSome := by
  cases kind with
  | dash => rfl
  | not => rfl
  | _ => cases announces

/-- Behind an operator only a primary expression can begin.  An operator there is told
so; whatever else stands there is met with the list for any expression. -/
theorem explains_operand (accounts : AccountsFor inner phrase) {token : Token}
    {operator : UnaryOperator} (denotes : token.kind = operator.kind) :
    Explains (Unary phrase) [token] (operand .standard inner) := by
  have fits : FitsBehind (Primary phrase) (Unary phrase) [token] := fits_primary_operand denotes
  have admits {kind : Token.Kind} (listed : kind ∈ Token.Kind.primaryStart) :
      Admits (Unary phrase) [token] kind :=
    (admits_primary accounts.possible listed).within fits
  have isOperator : (UnaryOperator.ofKind? token.kind).isSome := by
    rw [UnaryOperator.ofKind?_eq_some_iff.mpr denotes.symm]
    rfl
  intro start closed error stop run
  rw [operand, run_kind_bind] at run
  split at run
  next => exact explains_fail (List.cons_ne_nil _ _) (fun _ => admits) closed run
  next notOperator =>
    refine explainsAt_announced accounts closed fits ?_ ⟨rfl, ?_, ?_, ?_⟩ run
    · intro announces
      exact absurd (isSome_of_leading_unary announces) notOperator
    · exact fun _ => (extends_primary accounts.possible).within fits
    · exact fun _ => List.cons_ne_nil _ _
    · intro kind listed
      rcases List.mem_append.mp listed with isPrimary | isSecond
      · exact .inl (admits isPrimary)
      -- The list is that of any expression, and its two operators have no place here.
      · refine .inr ⟨rfl, ?_, [], token, rfl, isOperator, ?_⟩
        · simp only [List.mem_cons, List.not_mem_nil, or_false] at isSecond
          rcases isSecond with rfl | rfl <;> rfl
        · exact fun _ isPrimary =>
            (admits_primary accounts.possible isPrimary).within fits_primary

theorem explains_leading (accounts : AccountsFor inner phrase) :
    Explains (Unary phrase) [] (leading .standard inner) := by
  intro start closed
  apply explainsAt_announced accounts closed fits_primary
  · intro announces error stop run
    rw [unary, run_kind_bind] at run
    split at run
    next none =>
      have isOperator := isSome_of_leading_unary announces
      rw [none] at isOperator
      cases isOperator
    next operator isOperator =>
      have denotes := (UnaryOperator.ofKind?_eq_some_iff.mp isOperator).symm
      refine explainsAt_advance closed (kind_ne_eof_of_unaryOperator isOperator) ?_ run
      exact (explains_operand accounts denotes).map _
  · exact explained_of_admits (List.cons_ne_nil _ _) fun _ => admits_unary accounts.possible

end Forms

/-- An operator ahead is passed, and only its right operand may be at fault. -/
theorem explainsAt_binary {right : Reader Expr} {whole : List Token -> Expr -> Prop}
    {before : List Token} {start : Cursor} {left : Expr} {operator : BinaryOperator}
    (closed : start.Closed) (ahead : BinaryOperator.ofKind? start.kind = some operator)
    (explains : Explains whole (before ++ [start.current]) right) :
    ExplainsAt start whole before (binary right left) := by
  intro error stop run
  rw [binary, run_kind_bind, ahead] at run
  exact explainsAt_advance closed (kind_ne_eof_of_binaryOperator ahead) (explains.map _) run

/-- The operands and operators that were read so far are the beginning of the chain. -/
theorem explainsAt_climb {right : BindingPower -> Reader Expr}
    {phrase : Nat -> List Token -> Expr -> Prop}
    (sound : forall power, (right power).Sound (phrase power.rank))
    (settles : forall power, (right power).Settles (Settled power.rank))
    (explains : forall power, Explains (phrase power.rank) [] (right power)) {power : BindingPower}
    (rounds : List Token) {start : Cursor} {before : List Token} {left : Expr}
    (closed : start.Closed) (spelled : Chain phrase power.rank before left)
    (held : forall operator, BinaryOperator.ofKind? start.kind = some operator ->
      left.Holds operator.precedence) :
    ExplainsAt start (Chain phrase power.rank) before
      (climb .standard right power rounds left) := by
  induction rounds generalizing start before left with
  | nil =>
      intro error stop run
      cases run
  | cons round rounds inductionHypothesis =>
      intro error stop run
      -- Where the loop stops there is no error; `stopped` serves both reasons for it.
      have stopped (settled : Settled power.rank start.kind) : False := by
        rw [run_climb_of_settled _ _ _ settled] at run
        cases run
      cases ahead : BinaryOperator.ofKind? start.kind with
      | none => exact False.elim (stopped (settled_of_no_operator ahead))
      | some operator =>
          rcases exists_binding ahead with ⟨next, binds, rank⟩
          have soundRight := sound next
          have settlesRight := settles next
          have explainsRight := explains next
          rw [rank] at soundRight settlesRight explainsRight
          by_cases looser : operator.precedence <= power.rank
          · exact False.elim (stopped (settled_of_looser ahead looser))
          · have denotes := (BinaryOperator.ofKind?_eq_some_iff.mp ahead).symm
            have goesOn {tokens : List Token} {value : Expr}
                (spelledRight : phrase operator.precedence tokens value) :
                Chain phrase power.rank (before ++ start.current :: tokens)
                  (.binary left operator value (left.span.through value.span)) :=
              .operation spelled (Nat.not_le.mp looser) (held operator ahead) denotes spelledRight
            rw [run_climb_of_operator binds, rank, if_neg looser] at run
            rcases run_bind_eq_error_iff.mp run with first | ⟨joined, middle, first, second⟩
            · refine explainsAt_binary closed ahead (explainsRight.within ?_) first
              intro tokens value spelledRight
              exact .of_spelled [] (goesOn spelledRight) (by simp)
            · rcases binary_ok soundRight closed ahead first with
                ⟨value, passed, rfl, rightRun, closedRight, passes, spelledRight⟩
              have stillHeld : forall other, BinaryOperator.ofKind? middle.kind = some other ->
                  (Expr.binary left operator value (left.span.through value.span)).Holds
                    other.precedence := by
                rintro other isOther own ⟨⟩
                exact settlesRight closedRight rightRun other isOther
              exact (inductionHypothesis (passes.closed closed) (goesOn spelledRight)
                stillHeld).after passes second

theorem sound_written (levels : Nat) (power : BindingPower) :
    (read .standard levels power).Sound (Written power.rank) := by
  intro start stop expression closed run
  rcases sound_read levels power closed run with ⟨passed, passes, spelled⟩
  exact ⟨passed, passes, written_of_expression spelled⟩

/-- A literal is an expression for every context. -/
theorem extends_written (precedence : Nat) : Extends (Written precedence) [] :=
  ⟨[.sample .intLiteral], _, written_of_chain (.unary (.primary (.atom (.int rfl rfl))))⟩

/-- Every error in an expression is explained, whatever the number of levels. -/
theorem accounts_read (levels : Nat) (power : BindingPower) :
    AccountsFor (read .standard levels power) (Written power.rank) := by
  induction levels generalizing power with
  | zero =>
      have explains : Explains (Written power.rank) [] (read .standard 0 power) :=
        fun _ _ => explainsAt_fail explained_of_nesting
      exact ⟨sound_written 0 power, explains, extends_written power.rank⟩
  | succ levels inductionHypothesis =>
      refine ⟨sound_written (levels + 1) power, ?_, extends_written power.rank⟩
      have accounts := inductionHypothesis .loosest
      have fits : FitsBehind (Unary (Written 0)) (Written power.rank) [] :=
        fun _ _ spelled => .of_spelled [] (written_of_chain (.unary spelled)) (by simp)
      apply explains_bind (sound_leading accounts.sound) ((explains_leading accounts).within fits)
      intro tokens left spelled start closed error stop run
      rw [run_tokens_bind] at run
      have held : forall operator, BinaryOperator.ofKind? start.kind = some operator ->
          left.Holds operator.precedence :=
        fun operator _ => holds_of_unary spelled operator.precedence
      have settles power := (read_sound_and_settles levels power).2
      rcases explainsAt_climb (sound_written levels) settles
        (fun power => (inductionHypothesis power).explains) start.tokens closed (.unary spelled)
        held run with ⟨passed, passes, explained⟩
      have isWritten : FitsBehind (Chain Written power.rank) (Written power.rank) [] :=
        fun _ _ chain => .of_spelled [] (written_of_chain chain) (by simp)
      exact ⟨passed, passes, explained.within isWritten⟩

end Expression
end Reading
end ToyFrontend
