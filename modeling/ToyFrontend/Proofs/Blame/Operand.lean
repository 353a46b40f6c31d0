import ToyFrontend.Proofs.Shape

namespace ToyFrontend

namespace Word

/-!
# Where operands begin and end

That a list of tokens begins a program is shown by completing it.  That it begins
none needs a property of all programs, and this module has one that is easy to
follow along a list of words: an operator that awaits its operand is not followed
by another one.  Whether an operator stands before an operand or between two is
told by the word before it, so three stages are enough.
-/

/-- What the words so far leave open. -/
inductive Stage where
  /-- No operand has just ended, and no operator awaits one. -/
  | ready
  /-- An operator awaits its operand. -/
  | pending
  /-- An operand has just ended. -/
  | complete
deriving DecidableEq, Repr

namespace Stage

/-- The stage behind one more word, unless a word of this kind cannot stand there. -/
def next : Stage -> Token.Kind -> Option Stage
  | .pending, .dash | .pending, .not => none
  | .ready, .dash | .ready, .not => some .pending
  | .complete, .intLiteral | .complete, .stringLiteral | .complete, .boolLiteral
  | .complete, .identifier => none
  | _, .intLiteral | _, .stringLiteral | _, .boolLiteral | _, .identifier => some .complete
  | _, .closeParen => some .complete
  | _, _ => some .ready

/-- The stage behind several words. -/
def run (stage : Stage) (words : List Word) : Option Stage :=
  words.foldlM (fun stage word => stage.next word.kind) stage

/-- The words lead from one stage to another. -/
def Leads (stage : Stage) (words : List Word) (last : Stage) : Prop :=
  stage.run words = some last

instance (stage last : Stage) (words : List Word) : Decidable (stage.Leads words last) :=
  inferInstanceAs (Decidable (stage.run words = some last))

namespace Leads

variable {stage middle last : Stage}

theorem nil (stage : Stage) : stage.Leads [] stage :=
  rfl

theorem cons_iff {word : Word} {words : List Word} :
    stage.Leads (word :: words) last ↔
      Exists fun middle => stage.next word.kind = some middle ∧ middle.Leads words last := by
  rw [Leads, run, List.foldlM_cons]
  exact Option.bind_eq_some_iff

theorem cons {word : Word} {words : List Word} (first : stage.next word.kind = some middle)
    (rest : middle.Leads words last) : stage.Leads (word :: words) last :=
  cons_iff.mpr ⟨middle, first, rest⟩

theorem append_iff {words others : List Word} :
    stage.Leads (words ++ others) last ↔
      Exists fun middle => stage.Leads words middle ∧ middle.Leads others last := by
  rw [Leads, run, List.foldlM_append]
  exact Option.bind_eq_some_iff

theorem append {words others : List Word} (first : stage.Leads words middle)
    (rest : middle.Leads others last) : stage.Leads (words ++ others) last :=
  append_iff.mpr ⟨middle, first, rest⟩

theorem concat {word : Word} {words : List Word} (first : stage.Leads words middle)
    (step : middle.next word.kind = some last) : stage.Leads (words ++ [word]) last :=
  first.append (.cons step (nil last))

/-- What leads somewhere does so from its first word on. -/
theorem of_isPrefix {part words : List Word} (leads : stage.Leads words last)
    (begins : part <+: words) : Exists fun reached => stage.Leads part reached := by
  rcases begins with ⟨rest, rfl⟩
  rcases append_iff.mp leads with ⟨reached, first, -⟩
  exact ⟨reached, first⟩

theorem parenthesised {words : List Word} (leads : ready.Leads words last) :
    stage.Leads (Word.parenthesised words) .complete := by
  have opens : stage.next .openParen = some .ready := by cases stage <;> rfl
  have closes : last.next .closeParen = some .complete := by cases last <;> rfl
  exact .cons opens (leads.concat closes)

theorem separated {lists : List (List Word)}
    (each : forall words, words ∈ lists -> ready.Leads words complete) :
    Exists fun last => ready.Leads (Word.separated lists) last := by
  induction lists with
  | nil => exact ⟨.ready, rfl⟩
  | cons first rest inductionHypothesis =>
      rcases List.forall_mem_cons.mp each with ⟨leadsFirst, leadsRest⟩
      cases rest with
      | nil => exact ⟨.complete, by rwa [Word.separated, List.intercalate_singleton]⟩
      | cons second others =>
          rcases inductionHypothesis leadsRest with ⟨last, later⟩
          rw [Word.separated_cons (List.cons_ne_nil _ _)]
          exact ⟨last, leadsFirst.append (.cons rfl later)⟩

/-- Where a literal could stand, an operator awaits its operand, and no other operator
can stand behind it. -/
theorem not_doubled {words : List Word} {operand operator second : Word}
    (isLiteral : operand.kind = .intLiteral) (leads : stage.Leads (words ++ [operand]) middle)
    (isOperator : operator.kind ∈ [.dash, .not]) (isSecond : second.kind ∈ [.dash, .not]) :
    ¬ stage.Leads (words ++ [operator, second]) last := by
  intro doubled
  rcases append_iff.mp leads with ⟨reached, toOperand, fromOperand⟩
  rcases append_iff.mp doubled with ⟨again, toOperator, fromOperator⟩
  cases Option.some.inj (toOperand.symm.trans toOperator)
  rcases cons_iff.mp fromOperand with ⟨_, stepOperand, -⟩
  rcases cons_iff.mp fromOperator with ⟨_, stepOperator, fromSecond⟩
  rcases cons_iff.mp fromSecond with ⟨_, stepSecond, -⟩
  -- Neither stage in which an operand may begin allows two operators in a row.
  have refused : forall first, first ∈ [.dash, .not] -> forall second, second ∈ [.dash, .not] ->
      (reached.next first).bind (·.next second) = none := by
    cases reached with
    | ready => decide
    | pending => decide
    | complete =>
        rw [isLiteral] at stepOperand
        cases stepOperand
  have nothing := refused operator.kind isOperator second.kind isSecond
  rw [stepOperator, Option.bind_some, stepSecond] at nothing
  cases nothing

end Leads
end Stage
end Word

namespace SyntaxTree

open Word
open Word.Stage
open Phrase (RegularParts regularParts_binary_iff regularParts_unary_iff regularParts_call_iff
  regularParts_grouping_iff)

/-- A literal or a name is an operand by itself. -/
theorem leads_atom {stage : Stage} {word : Word} (awaited : stage ≠ .complete)
    (isAtom : word.kind ∈ [.intLiteral, .stringLiteral, .boolLiteral, .identifier]) :
    stage.Leads [word] .complete := by
  have step : forall kind, kind ∈ [.intLiteral, .stringLiteral, .boolLiteral, .identifier] ->
      stage.next kind = some .complete := by
    cases stage with
    | ready => decide
    | pending => decide
    | complete => exact absurd rfl awaited
  exact .cons (step word.kind isAtom) (.nil _)

/-- An expression is one operand.  Behind an operator it is not an operation itself. -/
theorem Expr.leads_words (expression : Expr) (regular : RegularParts expression) {stage : Stage}
    (awaited : stage ≠ .complete) (simple : stage = .pending -> expression.isOperation = false) :
    stage.Leads expression.words .complete := by
  induction expression using Expr.induction generalizing stage with
  | intLiteral value span =>
      rw [Expr.words]
      exact leads_atom awaited (by simp [literal, literalKind])
  | stringLiteral value span =>
      rw [Expr.words]
      exact leads_atom awaited (by simp [literal, literalKind])
  | boolLiteral value span =>
      rw [Expr.words]
      exact leads_atom awaited (by simp [literal, literalKind])
  | identifier name span =>
      rw [Expr.words]
      exact leads_atom awaited (by simp [named])
  | binary left operator right span ofLeft ofRight =>
      rcases regularParts_binary_iff.mp regular with ⟨-, regularLeft, regularRight⟩
      have joins : Stage.next .complete operator.kind = some .ready := by
        cases operator <;> rfl
      cases stage with
      | ready =>
          rw [Expr.words]
          exact (ofLeft regularLeft (by decide) (by rintro ⟨⟩)).append
            (.cons joins (ofRight regularRight (by decide) (by rintro ⟨⟩)))
      | pending => cases simple rfl
      | complete => exact absurd rfl awaited
  | unary operator operand span ofOperand =>
      rcases regularParts_unary_iff.mp regular with ⟨single, regularOperand⟩
      have awaits : Stage.next .ready operator.kind = some .pending := by
        cases operator <;> rfl
      cases stage with
      | ready =>
          rw [Expr.words]
          exact .cons awaits (ofOperand regularOperand (by decide) fun _ => single)
      | pending => cases simple rfl
      | complete => exact absurd rfl awaited
  | call callee arguments span ofArguments =>
      have each : forall words, words ∈ arguments.map Expr.words ->
          Stage.Leads .ready words .complete := by
        intro words listed
        rcases List.mem_map.mp listed with ⟨argument, member, rfl⟩
        exact ofArguments argument member (regularParts_call_iff.mp regular argument member)
          (by decide) (by rintro ⟨⟩)
      rcases Leads.separated each with ⟨last, leads⟩
      rw [Expr.words, Expr.wordLists_eq_map]
      exact (leads_atom awaited (by simp [named])).append leads.parenthesised
  | grouping inner span ofInner =>
      rw [Expr.words]
      have regularInner := regularParts_grouping_iff.mp regular
      exact (ofInner regularInner (by decide) (by rintro ⟨⟩)).parenthesised

theorem Expr.leads_ready {expression : Expr} (regular : RegularParts expression) :
    ready.Leads expression.words complete :=
  expression.leads_words regular (by decide) (by rintro ⟨⟩)

namespace Stmt

theorem leads_listWords {statements : List Stmt}
    (each : forall statement, statement ∈ statements -> ready.Leads statement.words ready) :
    ready.Leads (listWords statements) ready := by
  induction statements with
  | nil =>
      rw [listWords]
      exact .nil ready
  | cons first rest inductionHypothesis =>
      rcases List.forall_mem_cons.mp each with ⟨leadsFirst, leadsRest⟩
      rw [listWords]
      exact leadsFirst.append (inductionHypothesis leadsRest)

/-- Whatever comes before a block, its brace makes a new beginning. -/
theorem leads_blockWords {body : Block} {stage : Stage}
    (each : forall statement, statement ∈ body.statements -> statement.Regular ->
      (forall inner, inner ∈ statement.nested -> inner.Regular) ->
      ready.Leads statement.words ready)
    (regular : forall inner, inner ∈ ofBlock body -> inner.Regular) :
    stage.Leads (blockWords body) ready := by
  rcases body with ⟨statements, span⟩
  have opens : stage.next .openCurly = some .ready := by cases stage <;> rfl
  rw [ofBlock] at regular
  rw [blockWords]
  refine .cons opens ((leads_listWords ?_).concat rfl)
  intro statement listed
  exact each statement listed (regular statement (mem_ofList.mpr ⟨statement, listed, .inl rfl⟩))
    fun inner inside => regular inner (mem_ofList.mpr ⟨statement, listed, .inr inside⟩)

/-- A condition between parentheses, behind a word that begins a statement. -/
theorem leads_condition {condition : Expr} (regular : RegularParts condition) :
    ready.Leads (parenthesised condition.words) complete :=
  (Expr.leads_ready regular).parenthesised

theorem leads_initialWords {initial : Option Expr}
    (regular : forall part, part ∈ Expr.listParts initial.toList -> part.Regular) :
    complete.Leads (initialWords initial ++ [plain .semicolon]) ready := by
  cases initial with
  | none => decide
  | some value =>
      simp only [Option.toList, Expr.listParts, List.append_nil] at regular
      exact .cons rfl ((Expr.leads_ready regular).concat rfl)

theorem leads_optionalWords {value : Option Expr}
    (regular : forall part, part ∈ Expr.listParts value.toList -> part.Regular) :
    ready.Leads (optionalWords value ++ [plain .semicolon]) ready := by
  cases value with
  | none => decide
  | some value =>
      simp only [Option.toList, Expr.listParts, List.append_nil] at regular
      exact (Expr.leads_ready regular).concat rfl

theorem leads_words (statement : Stmt) (regular : statement.Regular)
    (inner : forall nested, nested ∈ statement.nested -> nested.Regular) :
    ready.Leads statement.words ready := by
  induction statement using Stmt.induction with
  | function name parameters body span ofBody =>
      rw [nested] at inner
      have each : forall words, words ∈ parameters.map Parameter.words ->
          Stage.Leads .ready words .complete := by
        intro words listed
        rcases List.mem_map.mp listed with ⟨⟨type, name, span⟩, -, rfl⟩
        cases type <;> rfl
      rcases Leads.separated each with ⟨last, leads⟩
      rw [words]
      exact .cons rfl (.cons rfl (leads.parenthesised.append (leads_blockWords ofBody inner)))
  | declaration type name initial span =>
      have declares : Stage.next .ready (Phrase.declarator type) = some .ready := by
        rcases type with _ | type
        · rfl
        · cases type <;> rfl
      rw [words]
      exact .cons declares (.cons rfl (leads_initialWords regular.expressions))
  | assignment target value span =>
      rw [words]
      exact .cons rfl (.cons rfl ((Expr.leads_ready regular.expressions).concat rfl))
  | conditional condition consequent alternative span ofConsequent ofAlternative =>
      rw [nested.eq_def] at inner
      rcases List.forall_mem_append.mp inner with ⟨innerConsequent, innerAlternative⟩
      rw [words.eq_def]
      refine .cons rfl ((leads_condition regular.expressions).append
        ((leads_blockWords ofConsequent innerConsequent).append ?_))
      cases alternative with
      | none => exact .nil ready
      | some otherwise =>
          exact .cons rfl (leads_blockWords (ofAlternative otherwise rfl) innerAlternative)
  | loop condition body span ofBody =>
      rw [nested] at inner
      rw [words]
      exact .cons rfl ((leads_condition regular.expressions).append
        (leads_blockWords ofBody inner))
  | result value span =>
      rw [words]
      exact .cons rfl (leads_optionalWords regular.expressions)
  | expression value span =>
      rw [words]
      exact (Expr.leads_ready regular.expressions).concat rfl
  | print value span =>
      rw [words]
      exact .cons rfl ((leads_condition regular.expressions).concat rfl)

end Stmt

/-- No operator of a well-formed program awaits its operand in vain. -/
theorem Program.leads_words {program : Program} (wellFormed : program.WellFormed) :
    ready.Leads program.words ready := by
  apply Stmt.leads_listWords
  intro statement listed
  apply statement.leads_words
  · exact wellFormed.regular statement (Stmt.mem_ofList.mpr ⟨statement, listed, .inl rfl⟩)
  · exact fun nested inside =>
      wellFormed.regular nested (Stmt.mem_ofList.mpr ⟨statement, listed, .inr inside⟩)

end SyntaxTree
end ToyFrontend
