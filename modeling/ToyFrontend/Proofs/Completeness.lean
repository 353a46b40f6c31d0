import ToyFrontend.Proofs.Shape
import ToyFrontend.Proofs.Words

namespace ToyFrontend

/-!
# Every well-formed program is accepted

A well-formed tree whose levels stay within the bound is what its words are read
as, whatever places the tokens have.  The tree that is read differs from the
given one in its spans only, which come from the tokens.

The proof goes along the tree.  For the words of each node it finds a derivation,
and the readers are complete for derivations.  No reader occurs in it before the
last step.
-/

namespace SyntaxTree
namespace Expr

/-- Spans have no part in precedence. -/
theorem Holds.of_withoutSpans {first second : Expr} {precedence : Nat}
    (held : first.Holds precedence) (same : second.withoutSpans = first.withoutSpans) :
    second.Holds precedence := by
  intro own isOwn
  apply held own
  rw [← precedence?_withoutSpans, ← same, precedence?_withoutSpans]
  exact isOwn

/-- Every operator binds more tightly than the context of a whole expression. -/
theorem exceeds_zero (expression : Expr) : expression.Exceeds 0 := by
  intro own isOwn
  cases expression with
  | binary left operator right span =>
      cases isOwn
      cases operator <;> decide
  | _ => cases isOwn

theorem exceeds_of_not_operation {expression : Expr} (simple : expression.isOperation = false)
    (precedence : Nat) : expression.Exceeds precedence := by
  intro own isOwn
  cases expression with
  | binary => cases simple
  | _ => cases isOwn

end Expr
end SyntaxTree

/-! ## Tokens with given words -/

namespace Token

theorem kind_of_word_plain {token : Token} {kind : Kind} (same : token.word = .plain kind) :
    token.kind = kind :=
  congrArg Word.kind same

theorem of_word_named {token : Token} {name : String} (same : token.word = .named name) :
    token.kind = .identifier ∧ token.text = name := by
  have kind : token.kind = .identifier := congrArg Word.kind same
  rw [word_eq_named kind] at same
  exact ⟨kind, Option.some.inj (congrArg Word.name same)⟩

theorem of_word_literal {token : Token} {value : Literal} (same : token.word = .literal value) :
    token.kind = Word.literalKind value ∧ token.value = some value := by
  have kind : token.kind = Word.literalKind value := congrArg Word.kind same
  have literal : (Word.literalKind value).isLiteral = true := by cases value <;> rfl
  have denotes : token.word.value = some value := congrArg Word.value same
  rw [word, kind, literal] at denotes
  exact ⟨kind, denotes⟩

variable {tokens : List Token} {words : List Word}

theorem exists_of_plain_cons {kind : Kind}
    (spelled : tokens.map word = .plain kind :: words) :
    Exists fun first => Exists fun rest =>
      tokens = first :: rest ∧ first.kind = kind ∧ rest.map word = words := by
  rcases List.map_eq_cons_iff.mp spelled with ⟨first, rest, split, ofFirst, ofRest⟩
  exact ⟨first, rest, split, kind_of_word_plain ofFirst, ofRest⟩

theorem exists_of_named_cons {name : String}
    (spelled : tokens.map word = .named name :: words) :
    Exists fun first => Exists fun rest =>
      tokens = first :: rest ∧ first.kind = .identifier ∧ first.text = name ∧
        rest.map word = words := by
  rcases List.map_eq_cons_iff.mp spelled with ⟨first, rest, split, ofFirst, ofRest⟩
  have identifier := of_word_named ofFirst
  exact ⟨first, rest, split, identifier.1, identifier.2, ofRest⟩

theorem exists_of_literal {value : Literal} (spelled : tokens.map word = [.literal value]) :
    Exists fun token => tokens = [token] ∧ token.kind = Word.literalKind value ∧
      token.value = some value := by
  rcases List.map_eq_singleton_iff.mp spelled with ⟨token, rfl, ofToken⟩
  exact ⟨token, rfl, of_word_literal ofToken⟩

theorem exists_of_append_plain {kind : Kind}
    (spelled : tokens.map word = words ++ [.plain kind]) :
    Exists fun before => Exists fun last =>
      tokens = before ++ [last] ∧ before.map word = words ∧ last.kind = kind := by
  rcases List.map_eq_append_iff.mp spelled with ⟨before, behind, split, ofBefore, ofBehind⟩
  rcases exists_of_plain_cons ofBehind with ⟨last, rest, rfl, isKind, none⟩
  cases List.map_eq_nil_iff.mp none
  exact ⟨before, last, split, ofBefore, isKind⟩

theorem exists_of_parenthesised (spelled : tokens.map word = Word.parenthesised words) :
    Exists fun opening => Exists fun inside => Exists fun close =>
      tokens = opening :: (inside ++ [close]) ∧ opening.kind = .openParen ∧
        inside.map word = words ∧ close.kind = .closeParen := by
  rcases exists_of_plain_cons spelled with ⟨opening, rest, rfl, opens, ofRest⟩
  rcases exists_of_append_plain ofRest with ⟨inside, close, rfl, ofInside, closes⟩
  exact ⟨opening, inside, close, rfl, opens, ofInside, closes⟩

end Token

namespace Phrase

open SyntaxTree

/-- Tokens with the words of a value spell it, up to what is erased. -/
def Covers {Item : Type} (item : List Token -> Item -> Prop) (words : Item -> List Word)
    (erase : Item -> Item) (value : Item) : Prop :=
  forall ⦃tokens : List Token⦄, tokens.map Token.word = words value ->
    Exists fun read => item tokens read ∧ erase read = erase value

/-! ## Lists -/

section Lists

variable {Item : Type} {item : List Token -> Item -> Prop} {words : Item -> List Word}
  {erase : Item -> Item}

theorem covers_separated {first : Item} {rest : List Item}
    (covers : forall value, value ∈ first :: rest -> Covers item words erase value) :
    Covers (Separated item) (fun values => Word.separated (values.map words)) (List.map erase)
      (first :: rest) := by
  induction rest generalizing first with
  | nil =>
      intro tokens spelled
      rcases covers first List.mem_cons_self (spelled.trans List.intercalate_singleton) with
        ⟨read, spelledRead, same⟩
      exact ⟨[read], .last spelledRead, by rw [List.map_singleton, same]; rfl⟩
  | cons second rest inductionHypothesis =>
      intro tokens spelled
      have nonempty : (second :: rest).map words ≠ [] := List.cons_ne_nil _ _
      rcases List.map_eq_append_iff.mp (spelled.trans (Word.separated_cons nonempty)) with
        ⟨before, behind, rfl, ofBefore, ofBehind⟩
      rcases Token.exists_of_plain_cons ofBehind with ⟨comma, others, rfl, isComma, ofOthers⟩
      rcases covers first List.mem_cons_self ofBefore with ⟨read, spelledRead, same⟩
      rcases inductionHypothesis (fun value member => covers value (List.mem_cons_of_mem _ member))
        ofOthers with ⟨reads, spelledReads, sameReads⟩
      refine ⟨read :: reads, .more spelledRead isComma spelledReads, ?_⟩
      rw [List.map_cons, same, sameReads]
      rfl

theorem covers_listed {values : List Item}
    (covers : forall value, value ∈ values -> Covers item words erase value) :
    Covers (Listed item) (fun values => Word.separated (values.map words)) (List.map erase)
      values := by
  intro tokens spelled
  cases values with
  | nil =>
      cases List.map_eq_nil_iff.mp (spelled.trans List.intercalate_nil)
      exact ⟨[], .none, rfl⟩
  | cons first rest =>
      rcases covers_separated covers spelled with ⟨reads, spelledReads, same⟩
      exact ⟨reads, .some spelledReads, same⟩

theorem exists_parenthesised_of_covers {values : List Item} {tokens : List Token}
    (covers : forall value, value ∈ values -> Covers item words erase value)
    (spelled : tokens.map Token.word =
      Word.parenthesised (Word.separated (values.map words))) :
    Exists fun reads => Exists fun close =>
      Parenthesised item tokens (reads, close) ∧ reads.map erase = values.map erase := by
  rcases Token.exists_of_parenthesised spelled with
    ⟨opening, inside, close, rfl, opens, ofInside, closes⟩
  rcases covers_listed covers ofInside with ⟨reads, spelledReads, same⟩
  exact ⟨reads, close.span, .mk opens spelledReads closes, same⟩

end Lists

/-! ## Expressions -/

/-- Within a context, what is no operation is a primary expression. -/
theorem primary_of_chain {inner : Nat -> List Token -> Expr -> Prop} {precedence : Nat}
    {tokens : List Token} {expression : Expr} (spelled : Chain inner precedence tokens expression)
    (simple : expression.isOperation = false) : Primary (inner 0) tokens expression := by
  cases spelled with
  | operation => cases simple
  | unary spelled =>
      cases spelled with
      | primary spelled => exact spelled
      | operation => cases simple

section Expressions

variable {levels precedence : Nat} {span : Source.Span}

theorem covers_binary {left right : Expr} {operator : BinaryOperator}
    (coversLeft : Covers (Expression (levels + 1) precedence) Expr.words Expr.withoutSpans left)
    (tighter : precedence < operator.precedence) (held : left.Holds operator.precedence)
    (coversRight : Covers (Expression levels operator.precedence) Expr.words Expr.withoutSpans
      right) :
    Covers (Expression (levels + 1) precedence) Expr.words Expr.withoutSpans
      (.binary left operator right span) := by
  intro tokens spelled
  rw [Expr.words] at spelled
  rcases List.map_eq_append_iff.mp spelled with ⟨before, rest, rfl, ofBefore, ofRest⟩
  rcases Token.exists_of_plain_cons ofRest with ⟨token, behind, rfl, denotes, ofBehind⟩
  rcases coversLeft ofBefore with ⟨readLeft, spelledLeft, sameLeft⟩
  rcases coversRight ofBehind with ⟨readRight, spelledRight, sameRight⟩
  refine ⟨_, .operation spelledLeft tighter (held.of_withoutSpans sameLeft) denotes
    spelledRight, ?_⟩
  rw [Expr.withoutSpans, Expr.withoutSpans, sameLeft, sameRight]

theorem covers_unary {operand : Expr} {operator : UnaryOperator}
    (covers : Covers (Expression (levels + 1) precedence) Expr.words Expr.withoutSpans operand)
    (simple : operand.isOperation = false) :
    Covers (Expression (levels + 1) precedence) Expr.words Expr.withoutSpans
      (.unary operator operand span) := by
  intro tokens spelled
  rw [Expr.words] at spelled
  rcases Token.exists_of_plain_cons spelled with ⟨token, rest, rfl, denotes, ofRest⟩
  rcases covers ofRest with ⟨read, spelledRead, same⟩
  have simpleRead : read.isOperation = false := by
    rw [← Expr.isOperation_withoutSpans, same, Expr.isOperation_withoutSpans, simple]
  refine ⟨_, .unary (.operation denotes (primary_of_chain spelledRead simpleRead)), ?_⟩
  rw [Expr.withoutSpans, Expr.withoutSpans, same]

theorem covers_of_primary {expression : Expr}
    (covers : Covers (Primary (Expression levels 0)) Expr.words Expr.withoutSpans
      expression) :
    Covers (Expression (levels + 1) precedence) Expr.words Expr.withoutSpans expression := by
  intro tokens spelled
  rcases covers spelled with ⟨read, spelledRead, same⟩
  exact ⟨read, .unary (.primary spelledRead), same⟩

theorem covers_call {inner : List Token -> Expr -> Prop} {callee : String} {arguments : List Expr}
    (covers : forall argument, argument ∈ arguments ->
      Covers inner Expr.words Expr.withoutSpans argument) :
    Covers (Primary inner) Expr.words Expr.withoutSpans (.call callee arguments span) := by
  intro tokens spelled
  rw [Expr.words, Expr.wordLists_eq_map] at spelled
  rcases Token.exists_of_named_cons spelled with ⟨token, rest, rfl, kind, text, ofRest⟩
  rcases exists_parenthesised_of_covers covers ofRest with ⟨reads, close, spelledReads, same⟩
  refine ⟨_, .call kind spelledReads, ?_⟩
  rw [Expr.withoutSpans, Expr.withoutSpans, Expr.listWithoutSpans_eq_map,
    Expr.listWithoutSpans_eq_map, same, text]

theorem covers_grouping {inner : List Token -> Expr -> Prop} {enclosed : Expr}
    (covers : Covers inner Expr.words Expr.withoutSpans enclosed) :
    Covers (Primary inner) Expr.words Expr.withoutSpans (.grouping enclosed span) := by
  intro tokens spelled
  rw [Expr.words] at spelled
  rcases Token.exists_of_parenthesised spelled with
    ⟨opening, inside, close, rfl, opens, ofInside, closes⟩
  rcases covers ofInside with ⟨read, spelledRead, same⟩
  refine ⟨_, .grouping opens spelledRead closes, ?_⟩
  rw [Expr.withoutSpans, Expr.withoutSpans, same]

end Expressions

/-- The parts of an expression at a level keep within the levels that are open. -/
def Fits (levels level : Nat) (expression : Expr) : Prop :=
  forall inner, inner ∈ expression.levels level -> inner < level + levels

theorem Fits.exists_succ {levels level : Nat} {expression : Expr}
    (fits : Fits levels level expression) : Exists fun fewer => levels = fewer + 1 := by
  apply Nat.exists_eq_add_one.mpr
  have below := fits level (expression.level_mem_levels level)
  omega

section Fits

variable {levels level : Nat} {span : Source.Span}

theorem Fits.left {left right : Expr} {operator : BinaryOperator}
    (fits : Fits levels level (.binary left operator right span)) : Fits levels level left :=
  fun inner member => fits inner (by simp [Expr.levels, member])

theorem Fits.right {left right : Expr} {operator : BinaryOperator}
    (fits : Fits (levels + 1) level (.binary left operator right span)) :
    Fits levels (level + 1) right := by
  intro inner member
  have below := fits inner (by simp [Expr.levels, member])
  omega

theorem Fits.operand {operand : Expr} {operator : UnaryOperator}
    (fits : Fits levels level (.unary operator operand span)) : Fits levels level operand :=
  fun inner member => fits inner (by simp [Expr.levels, member])

theorem Fits.argument {callee : String} {argument : Expr} {arguments : List Expr}
    (fits : Fits (levels + 1) level (.call callee arguments span))
    (listed : argument ∈ arguments) : Fits levels (level + 1) argument := by
  intro inner member
  have inside := Expr.mem_listLevels.mpr ⟨argument, listed, member⟩
  have below := fits inner (by simp [Expr.levels, inside])
  omega

theorem Fits.enclosed {enclosed : Expr}
    (fits : Fits (levels + 1) level (.grouping enclosed span)) :
    Fits levels (level + 1) enclosed := by
  intro inner member
  have below := fits inner (by simp [Expr.levels, member])
  omega

end Fits

theorem covers_expression (expression : Expr) (regular : RegularParts expression)
    {levels level precedence : Nat} (fits : Fits levels level expression)
    (exceeds : expression.Exceeds precedence) :
    Covers (Expression levels precedence) Expr.words Expr.withoutSpans expression := by
  induction expression using Expr.induction generalizing levels level precedence with
  | intLiteral value span =>
      rcases fits.exists_succ with ⟨levels, rfl⟩
      apply covers_of_primary
      intro tokens spelled
      rcases Token.exists_of_literal spelled with ⟨token, rfl, kind, denotes⟩
      exact ⟨_, .atom (.int kind denotes), by simp only [Expr.withoutSpans]⟩
  | stringLiteral value span =>
      rcases fits.exists_succ with ⟨levels, rfl⟩
      apply covers_of_primary
      intro tokens spelled
      rcases Token.exists_of_literal spelled with ⟨token, rfl, kind, denotes⟩
      exact ⟨_, .atom (.string kind denotes), by simp only [Expr.withoutSpans]⟩
  | boolLiteral value span =>
      rcases fits.exists_succ with ⟨levels, rfl⟩
      apply covers_of_primary
      intro tokens spelled
      rcases Token.exists_of_literal spelled with ⟨token, rfl, kind, denotes⟩
      exact ⟨_, .atom (.bool kind denotes), by simp only [Expr.withoutSpans]⟩
  | identifier name span =>
      rcases fits.exists_succ with ⟨levels, rfl⟩
      apply covers_of_primary
      intro tokens spelled
      rcases Token.exists_of_named_cons spelled with ⟨token, rest, rfl, kind, text, ofRest⟩
      cases List.map_eq_nil_iff.mp ofRest
      exact ⟨_, .atom (.identifier kind), by simp only [Expr.withoutSpans, text]⟩
  | binary left operator right span ofLeft ofRight =>
      rcases fits.exists_succ with ⟨levels, rfl⟩
      rcases regularParts_binary_iff.mp regular with
        ⟨⟨held, exceedsRight⟩, regularLeft, regularRight⟩
      have tighter : precedence < operator.precedence := exceeds _ rfl
      have exceedsLeft : left.Exceeds precedence := fun own isOwn =>
        Nat.lt_of_lt_of_le tighter (held own isOwn)
      exact covers_binary (ofLeft regularLeft fits.left exceedsLeft) tighter held
        (ofRight regularRight fits.right exceedsRight)
  | unary operator operand span ofOperand =>
      rcases fits.exists_succ with ⟨levels, rfl⟩
      rcases regularParts_unary_iff.mp regular with ⟨simple, regularOperand⟩
      exact covers_unary (ofOperand regularOperand fits.operand
        (Expr.exceeds_of_not_operation simple precedence)) simple
  | call callee arguments span ofArguments =>
      rcases fits.exists_succ with ⟨levels, rfl⟩
      apply covers_of_primary
      apply covers_call
      intro argument listed
      exact ofArguments argument listed (regularParts_call_iff.mp regular argument listed)
        (fits.argument listed) argument.exceeds_zero
  | grouping enclosed span ofEnclosed =>
      rcases fits.exists_succ with ⟨levels, rfl⟩
      apply covers_of_primary
      exact covers_grouping (ofEnclosed (regularParts_grouping_iff.mp regular) fits.enclosed
        enclosed.exceeds_zero)

/-! ## Statements -/

section Statements

variable {expression : List Token -> Expr -> Prop} {block : List Token -> SyntaxTree.Block -> Prop}
  {span : Source.Span}

theorem covers_initial {type : Option TypeName} {initial : Option Expr}
    (initialized : (type.isSome || initial.isSome) = true)
    (covers : forall value, value ∈ initial ->
      Covers expression Expr.words Expr.withoutSpans value) :
    Covers (Initial expression type) Stmt.initialWords (Option.map Expr.withoutSpans) initial := by
  intro tokens spelled
  cases initial with
  | none =>
      cases List.map_eq_nil_iff.mp spelled
      rw [Option.isSome_none, Bool.or_false] at initialized
      exact ⟨none, .none initialized, rfl⟩
  | some value =>
      rcases Token.exists_of_plain_cons spelled with ⟨token, rest, rfl, assigns, ofRest⟩
      rcases covers value rfl ofRest with ⟨read, spelledRead, same⟩
      exact ⟨some read, .some assigns spelledRead, congrArg some same⟩

theorem covers_optional {value : Option Expr}
    (covers : forall given, given ∈ value -> Covers expression Expr.words Expr.withoutSpans given) :
    Covers (Optional expression) Stmt.optionalWords (Option.map Expr.withoutSpans) value := by
  intro tokens spelled
  cases value with
  | none =>
      cases List.map_eq_nil_iff.mp spelled
      exact ⟨none, .none, rfl⟩
  | some value =>
      rcases covers value rfl spelled with ⟨read, spelledRead, same⟩
      exact ⟨some read, .some spelledRead, congrArg some same⟩

theorem covers_condition {value : Expr}
    (covers : Covers expression Expr.words Expr.withoutSpans value) :
    Covers (Condition expression) (fun value => Word.parenthesised value.words) Expr.withoutSpans
      value := by
  intro tokens spelled
  rcases Token.exists_of_parenthesised spelled with
    ⟨opening, inside, close, rfl, opens, ofInside, closes⟩
  rcases covers ofInside with ⟨read, spelledRead, same⟩
  exact ⟨read, .mk opens spelledRead closes, same⟩

theorem covers_declaration {type : Option TypeName} {name : String} {initial : Option Expr}
    (covers : Covers (Initial expression type) Stmt.initialWords (Option.map Expr.withoutSpans)
      initial) :
    Covers (Statement expression block) Stmt.words Stmt.withoutSpans
      (.declaration type name initial span) := by
  intro tokens spelled
  rw [Stmt.words] at spelled
  rcases Token.exists_of_plain_cons spelled with ⟨first, rest, rfl, declares, ofRest⟩
  rcases Token.exists_of_named_cons ofRest with ⟨second, rest, rfl, named, text, ofRest⟩
  rcases Token.exists_of_append_plain ofRest with ⟨rest, last, rfl, ofRest, ends⟩
  rcases covers ofRest with ⟨read, spelledRead, same⟩
  refine ⟨_, .declaration declares named spelledRead ends, ?_⟩
  rw [Stmt.withoutSpans, Stmt.withoutSpans, same, text]

theorem covers_assignment {target : String} {value : Expr}
    (covers : Covers expression Expr.words Expr.withoutSpans value) :
    Covers (Statement expression block) Stmt.words Stmt.withoutSpans
      (.assignment target value span) := by
  intro tokens spelled
  rw [Stmt.words] at spelled
  rcases Token.exists_of_named_cons spelled with ⟨first, rest, rfl, named, text, ofRest⟩
  rcases Token.exists_of_plain_cons ofRest with ⟨second, rest, rfl, assigns, ofRest⟩
  rcases Token.exists_of_append_plain ofRest with ⟨rest, last, rfl, ofRest, ends⟩
  rcases covers ofRest with ⟨read, spelledRead, same⟩
  refine ⟨_, .assignment named assigns spelledRead ends, ?_⟩
  rw [Stmt.withoutSpans, Stmt.withoutSpans, same, text]

theorem covers_callStatement {callee : String} {arguments : List Expr} {inner : Source.Span}
    (covers : forall argument, argument ∈ arguments ->
      Covers expression Expr.words Expr.withoutSpans argument) :
    Covers (Statement expression block) Stmt.words Stmt.withoutSpans
      (.expression (.call callee arguments inner) span) := by
  intro tokens spelled
  rw [Stmt.words, Expr.words, Expr.wordLists_eq_map] at spelled
  rcases Token.exists_of_named_cons spelled with ⟨first, rest, rfl, named, text, ofRest⟩
  rcases Token.exists_of_append_plain ofRest with ⟨rest, last, rfl, ofRest, ends⟩
  rcases exists_parenthesised_of_covers covers ofRest with ⟨reads, close, spelledReads, same⟩
  refine ⟨_, .call named spelledReads ends, ?_⟩
  rw [Stmt.withoutSpans, Stmt.withoutSpans, Expr.withoutSpans, Expr.withoutSpans,
    Expr.listWithoutSpans_eq_map, Expr.listWithoutSpans_eq_map, same, text]

theorem covers_conditional {condition : Expr} {consequent : SyntaxTree.Block}
    {alternative : Option SyntaxTree.Block}
    (covers : Covers expression Expr.words Expr.withoutSpans condition)
    (coversConsequent : Covers block Stmt.blockWords Stmt.blockWithoutSpans consequent)
    (coversAlternative : forall otherwise, alternative = some otherwise ->
      Covers block Stmt.blockWords Stmt.blockWithoutSpans otherwise) :
    Covers (Statement expression block) Stmt.words Stmt.withoutSpans
      (.conditional condition consequent alternative span) := by
  intro tokens spelled
  rw [Stmt.words.eq_def] at spelled
  rcases Token.exists_of_plain_cons spelled with ⟨first, rest, rfl, begins, ofRest⟩
  rcases List.map_eq_append_iff.mp ofRest with ⟨test, rest, rfl, ofTest, ofRest⟩
  rcases List.map_eq_append_iff.mp ofRest with ⟨body, rest, rfl, ofBody, ofRest⟩
  rcases covers_condition covers ofTest with ⟨readTest, spelledTest, sameTest⟩
  rcases coversConsequent ofBody with ⟨readBody, spelledBody, sameBody⟩
  cases alternative with
  | none =>
      cases List.map_eq_nil_iff.mp ofRest
      rw [List.append_nil]
      refine ⟨_, .conditional begins spelledTest spelledBody, ?_⟩
      rw [Stmt.withoutSpans, Stmt.withoutSpans, sameTest, sameBody]
  | some otherwise =>
      rcases Token.exists_of_plain_cons ofRest with ⟨word, rest, rfl, turns, ofRest⟩
      rcases coversAlternative otherwise rfl ofRest with ⟨readOther, spelledOther, sameOther⟩
      refine ⟨_, .alternative begins spelledTest spelledBody turns spelledOther, ?_⟩
      rw [Stmt.withoutSpans, Stmt.withoutSpans, sameTest, sameBody, sameOther]

theorem covers_loop {condition : Expr} {body : SyntaxTree.Block}
    (covers : Covers expression Expr.words Expr.withoutSpans condition)
    (coversBody : Covers block Stmt.blockWords Stmt.blockWithoutSpans body) :
    Covers (Statement expression block) Stmt.words Stmt.withoutSpans
      (.loop condition body span) := by
  intro tokens spelled
  rw [Stmt.words] at spelled
  rcases Token.exists_of_plain_cons spelled with ⟨first, rest, rfl, begins, ofRest⟩
  rcases List.map_eq_append_iff.mp ofRest with ⟨test, rest, rfl, ofTest, ofRest⟩
  rcases covers_condition covers ofTest with ⟨readTest, spelledTest, sameTest⟩
  rcases coversBody ofRest with ⟨readBody, spelledBody, sameBody⟩
  refine ⟨_, .loop begins spelledTest spelledBody, ?_⟩
  rw [Stmt.withoutSpans, Stmt.withoutSpans, sameTest, sameBody]

theorem covers_result {value : Option Expr}
    (covers : Covers (Optional expression) Stmt.optionalWords (Option.map Expr.withoutSpans)
      value) :
    Covers (Statement expression block) Stmt.words Stmt.withoutSpans (.result value span) := by
  intro tokens spelled
  rw [Stmt.words] at spelled
  rcases Token.exists_of_plain_cons spelled with ⟨first, rest, rfl, begins, ofRest⟩
  rcases Token.exists_of_append_plain ofRest with ⟨rest, last, rfl, ofRest, ends⟩
  rcases covers ofRest with ⟨read, spelledRead, same⟩
  refine ⟨_, .result begins spelledRead ends, ?_⟩
  rw [Stmt.withoutSpans, Stmt.withoutSpans, same]

theorem covers_print {value : Expr}
    (covers : Covers expression Expr.words Expr.withoutSpans value) :
    Covers (Statement expression block) Stmt.words Stmt.withoutSpans (.print value span) := by
  intro tokens spelled
  rw [Stmt.words] at spelled
  rcases Token.exists_of_plain_cons spelled with ⟨first, rest, rfl, begins, ofRest⟩
  rcases Token.exists_of_append_plain ofRest with ⟨rest, last, rfl, ofRest, ends⟩
  rcases covers_condition covers ofRest with ⟨read, spelledRead, same⟩
  refine ⟨_, .print begins spelledRead ends, ?_⟩
  rw [Stmt.withoutSpans, Stmt.withoutSpans, same]

end Statements

/-! ## Blocks and programs -/

theorem covers_repeated {statement : List Token -> Stmt -> Prop} {statements : List Stmt}
    (covers : forall given, given ∈ statements ->
      Covers statement Stmt.words Stmt.withoutSpans given) :
    Covers (Repeated statement) Stmt.listWords Stmt.listWithoutSpans statements := by
  induction statements with
  | nil =>
      intro tokens spelled
      rw [Stmt.listWords] at spelled
      cases List.map_eq_nil_iff.mp spelled
      exact ⟨[], .none, rfl⟩
  | cons first rest inductionHypothesis =>
      intro tokens spelled
      rw [Stmt.listWords] at spelled
      rcases List.map_eq_append_iff.mp spelled with ⟨before, behind, rfl, ofBefore, ofBehind⟩
      rcases covers first List.mem_cons_self ofBefore with ⟨read, spelledRead, same⟩
      rcases inductionHypothesis (fun given member => covers given (List.mem_cons_of_mem _ member))
        ofBehind with ⟨reads, spelledReads, sameReads⟩
      refine ⟨read :: reads, .more spelledRead spelledReads, ?_⟩
      rw [Stmt.listWithoutSpans, Stmt.listWithoutSpans, same, sameReads]

theorem covers_braced {statement : List Token -> Stmt -> Prop} {body : SyntaxTree.Block}
    (covers : forall given, given ∈ body.statements ->
      Covers statement Stmt.words Stmt.withoutSpans given) :
    Covers (Braced statement) Stmt.blockWords Stmt.blockWithoutSpans body := by
  intro tokens spelled
  rcases body with ⟨statements, span⟩
  rw [Stmt.blockWords] at spelled
  rcases Token.exists_of_plain_cons spelled with ⟨opening, rest, rfl, opens, ofRest⟩
  rcases Token.exists_of_append_plain ofRest with ⟨inside, close, rfl, ofInside, closes⟩
  rcases covers_repeated covers ofInside with ⟨reads, spelledReads, same⟩
  refine ⟨_, .mk opens spelledReads closes, ?_⟩
  rw [Stmt.blockWithoutSpans, Stmt.blockWithoutSpans, same]
  rfl

theorem covers_parameter (parameter : SyntaxTree.Parameter) :
    Covers Parameter SyntaxTree.Parameter.words
      (fun parameter => { parameter with span := .point .start }) parameter := by
  intro tokens spelled
  rcases Token.exists_of_plain_cons spelled with ⟨first, rest, rfl, typed, ofRest⟩
  rcases Token.exists_of_named_cons ofRest with ⟨second, rest, rfl, named, text, ofRest⟩
  cases List.map_eq_nil_iff.mp ofRest
  exact ⟨_, .mk typed named, by rw [text]⟩

theorem covers_function {block : List Token -> SyntaxTree.Block -> Prop} {name : String}
    {parameters : List SyntaxTree.Parameter} {body : SyntaxTree.Block} {span : Source.Span}
    (covers : Covers block Stmt.blockWords Stmt.blockWithoutSpans body) :
    Covers (Function block) Stmt.words Stmt.withoutSpans
      (.function name parameters body span) := by
  intro tokens spelled
  rw [Stmt.words] at spelled
  rcases Token.exists_of_plain_cons spelled with ⟨first, rest, rfl, begins, ofRest⟩
  rcases Token.exists_of_named_cons ofRest with ⟨second, rest, rfl, named, text, ofRest⟩
  rcases List.map_eq_append_iff.mp ofRest with ⟨listed, rest, rfl, ofListed, ofRest⟩
  rcases exists_parenthesised_of_covers (fun parameter _ => covers_parameter parameter) ofListed
    with ⟨reads, close, spelledReads, sameReads⟩
  rcases covers ofRest with ⟨readBody, spelledBody, sameBody⟩
  refine ⟨_, .mk begins named spelledReads spelledBody, ?_⟩
  rw [Stmt.withoutSpans, Stmt.withoutSpans, sameReads, sameBody, text]

/-- The levels inside a statement at a depth keep within those that are open. -/
def FitsStatement (levels depth : Nat) (statement : Stmt) : Prop :=
  forall inner, inner ∈ statement.levels depth -> inner < depth + 1 + levels

/-- A block at a level keeps within the levels that are open. -/
def FitsBlock (levels level : Nat) (body : SyntaxTree.Block) : Prop :=
  forall inner, inner ∈ Stmt.blockLevels level body -> inner < level + levels

theorem covers_block {body : SyntaxTree.Block} {levels level : Nat} (plain : PlainBlock body)
    (fits : FitsBlock levels level body)
    (covers : forall statement, statement ∈ body.statements -> forall {levels depth : Nat},
      PlainThroughout statement -> FitsStatement levels depth statement ->
      Covers (Statement (Expression levels 0) (Block levels)) Stmt.words Stmt.withoutSpans
        statement) :
    Covers (Block levels) Stmt.blockWords Stmt.blockWithoutSpans body := by
  rcases body with ⟨statements, span⟩
  rw [FitsBlock, Stmt.blockLevels] at fits
  cases levels with
  | zero => exact absurd (fits level List.mem_cons_self) (Nat.lt_irrefl level)
  | succ levels =>
      apply covers_braced
      intro statement listed
      apply covers statement listed (plainBlock_iff.mp plain statement listed)
      intro inner member
      have inside := Stmt.mem_listLevels.mpr ⟨statement, listed, member⟩
      have below := fits inner (List.mem_cons_of_mem _ inside)
      omega

/-- The value that a statement may hold beside others. -/
theorem covers_given {levels level : Nat} {value : Option Expr}
    (regular : forall part, part ∈ Expr.listParts value.toList -> part.Regular)
    (fits : forall inner, inner ∈ Expr.listLevels level value.toList -> inner < level + levels) :
    forall given, given ∈ value ->
      Covers (Expression levels 0) Expr.words Expr.withoutSpans given := by
  rintro given rfl
  simp only [Option.toList, Expr.listParts, Expr.listLevels, List.append_nil] at regular fits
  exact covers_expression given regular fits given.exceeds_zero

theorem covers_statement (statement : Stmt) {levels depth : Nat}
    (plain : PlainThroughout statement) (fits : FitsStatement levels depth statement) :
    Covers (Statement (Expression levels 0) (Block levels)) Stmt.words Stmt.withoutSpans
      statement := by
  induction statement using Stmt.induction generalizing levels depth with
  | function name parameters body span => cases plain.1.2
  | declaration type name initial span =>
      rw [FitsStatement, Stmt.levels] at fits
      exact covers_declaration
        (covers_initial plain.1.1.initialized (covers_given plain.1.1.expressions fits))
  | assignment target value span =>
      rw [FitsStatement, Stmt.levels] at fits
      exact covers_assignment
        (covers_expression value plain.1.1.expressions fits value.exceeds_zero)
  | conditional condition consequent alternative span ofConsequent ofAlternative =>
      rw [FitsStatement, Stmt.levels.eq_def] at fits
      have nested := plain.2
      rw [Stmt.nested.eq_def] at nested
      apply covers_conditional
      · exact covers_expression condition plain.1.1.expressions
          (fun inner member => fits inner (List.mem_append_left _ member))
          condition.exceeds_zero
      · apply covers_block
        · exact fun inner member => nested inner (List.mem_append_left _ member)
        · exact fun inner member =>
            fits inner (List.mem_append_right _ (List.mem_append_left _ member))
        · exact ofConsequent
      · rintro otherwise rfl
        apply covers_block
        · exact fun inner member => nested inner (List.mem_append_right _ member)
        · exact fun inner member =>
            fits inner (List.mem_append_right _ (List.mem_append_right _ member))
        · exact ofAlternative otherwise rfl
  | loop condition body span ofBody =>
      rw [FitsStatement, Stmt.levels] at fits
      have nested := plain.2
      rw [Stmt.nested] at nested
      apply covers_loop
      · exact covers_expression condition plain.1.1.expressions
          (fun inner member => fits inner (List.mem_append_left _ member))
          condition.exceeds_zero
      · exact covers_block nested
          (fun inner member => fits inner (List.mem_append_right _ member)) ofBody
  | result value span =>
      rw [FitsStatement, Stmt.levels] at fits
      exact covers_result (covers_optional (covers_given plain.1.1.expressions fits))
  | expression value span =>
      rw [FitsStatement, Stmt.levels] at fits
      cases value with
      | call callee arguments inner =>
          have regular := regularParts_call_iff.mp plain.1.1.expressions
          apply covers_callStatement
          intro argument listed
          exact covers_expression argument (regular argument listed)
            (fun inner member => fits inner (Expr.mem_listLevels.mpr ⟨argument, listed, member⟩))
            argument.exceeds_zero
      | _ => cases plain.1.1.effective
  | print value span =>
      rw [FitsStatement, Stmt.levels] at fits
      exact covers_print (covers_expression value plain.1.1.expressions fits value.exceeds_zero)

/-- A statement at the top may be the declaration of a function. -/
theorem covers_top {statement : Stmt} {levels depth : Nat} (regular : statement.Regular)
    (plain : forall inner, inner ∈ statement.nested -> Plain inner)
    (fits : FitsStatement levels depth statement) :
    Covers (Top levels) Stmt.words Stmt.withoutSpans statement := by
  intro tokens spelled
  cases isFunction : statement.isFunction with
  | false =>
      rcases covers_statement statement ⟨⟨regular, isFunction⟩, plain⟩ fits spelled with
        ⟨read, spelledRead, same⟩
      exact ⟨read, .statement spelledRead, same⟩
  | true =>
      cases statement with
      | function name parameters body span =>
          rw [FitsStatement, Stmt.levels] at fits
          rw [Stmt.nested] at plain
          have covers := covers_block plain fits (fun statement _ => covers_statement statement)
          rcases covers_function covers spelled with ⟨read, spelledRead, same⟩
          exact ⟨read, .function spelledRead, same⟩
      | _ => cases isFunction

end Phrase

/-- Whatever token list has the words of a well-formed program before its first end
marker is accepted, if no level inside the program lies beyond the bound.  The
program that is read is the given one up to spans. -/
theorem parseTokens_of_wellFormed {program : SyntaxTree.Program} {tokens : List Token}
    (wellFormed : program.WellFormed)
    (bounded : forall level, level ∈ program.levels -> level <= SyntaxTree.nestingLimit)
    (spelled : (Token.beforeEnd tokens).map Token.word = program.words) :
    Exists fun read => parseTokens tokens = .ok read ∧
      read.withoutSpans = program.withoutSpans := by
  have covers : forall statement, statement ∈ program.body ->
      Phrase.Covers (Phrase.Top SyntaxTree.nestingLimit) SyntaxTree.Stmt.words
        SyntaxTree.Stmt.withoutSpans statement := by
    intro statement listed
    have inside {inner : SyntaxTree.Stmt} (place : inner = statement ∨ inner ∈ statement.nested) :
        inner.Regular :=
      wellFormed.regular inner (SyntaxTree.Stmt.mem_ofList.mpr ⟨statement, listed, place⟩)
    apply Phrase.covers_top (inside (.inl rfl))
    · intro inner nested
      exact ⟨inside (.inr nested), wellFormed.flat statement listed inner nested⟩
    · intro level member
      have within := bounded level (SyntaxTree.Stmt.mem_listLevels.mpr ⟨statement, listed, member⟩)
      omega
  rcases Phrase.covers_repeated covers spelled with ⟨reads, spelledReads, same⟩
  rcases (Reading.Cursor.closed_ofTokens tokens).passes_beforeEnd with ⟨stop, passes, ends⟩
  rw [Reading.Cursor.beforeEnd_ofTokens] at passes
  refine ⟨{ body := reads, span := { start := .start, finish := stop.position } },
    Reading.parseTokens_eq_ok_iff.mpr ⟨spelledReads, stop, passes, ends, rfl⟩, ?_⟩
  rw [SyntaxTree.Program.withoutSpans, SyntaxTree.Program.withoutSpans, same]

/-- The span of a tree that was not read from a text. -/
def nowhere : Source.Span := .point .start

/-- A function that decides between two results, called at the top. -/
def choosingProgram : SyntaxTree.Program where
  body :=
    [.function "choose" [{ type := .int, name := "x", span := nowhere }]
      (.mk
        [.conditional
          (.binary (.identifier "x" nowhere) .less
            (.binary (.intLiteral 1 nowhere) .add
              (.binary (.intLiteral 2 nowhere) .multiply (.intLiteral 3 nowhere) nowhere) nowhere)
            nowhere)
          (.mk [.result (some (.unary .negate (.identifier "x" nowhere) nowhere)) nowhere] nowhere)
          (some (.mk [.declaration none "y" (some (.grouping (.identifier "x" nowhere) nowhere))
            nowhere, .print (.identifier "y" nowhere) nowhere] nowhere))
          nowhere]
        nowhere)
      nowhere,
    .expression (.call "choose" [.intLiteral 4 nowhere] nowhere) nowhere]
  span := nowhere

theorem parseTokens_of_choosingProgram :
    choosingProgram.WellFormed ∧
      Exists fun read => parseTokens (choosingProgram.words.map Word.token) = .ok read ∧
        read.withoutSpans = choosingProgram.withoutSpans :=
  have wellFormed : choosingProgram.WellFormed := by decide
  ⟨wellFormed, parseTokens_of_wellFormed wellFormed (by decide) (by decide)⟩

end ToyFrontend
