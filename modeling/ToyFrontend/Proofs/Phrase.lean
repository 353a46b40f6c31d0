import ToyFrontend.SyntaxTree.Nesting
import ToyFrontend.SyntaxTree.Stmt

namespace ToyFrontend

namespace SyntaxTree

/-- How tightly an operator holds its operands: equalities are the loosest, and products
hold most tightly. -/
def BinaryOperator.precedence : BinaryOperator -> Nat
  | .equal | .notEqual => 1
  | .less | .lessEqual | .greater | .greaterEqual => 2
  | .add | .subtract => 3
  | .multiply | .divide => 4

namespace Expr

/-- How tightly the operator at the root of an expression holds its operands. -/
def precedence? : Expr -> Option Nat
  | .binary _ operator _ _ => some operator.precedence
  | _ => none

/-- The expression may stand to the left of an operator of this precedence. -/
def Holds (expression : Expr) (precedence : Nat) : Prop :=
  forall own, expression.precedence? = some own -> precedence <= own

/-- The expression may stand to the right of an operator of this precedence. -/
def Exceeds (expression : Expr) (precedence : Nat) : Prop :=
  forall own, expression.precedence? = some own -> precedence < own

instance (expression : Expr) (precedence : Nat) : Decidable (expression.Holds precedence) :=
  inferInstanceAs (Decidable (forall own, own ∈ expression.precedence? -> precedence <= own))

instance (expression : Expr) (precedence : Nat) : Decidable (expression.Exceeds precedence) :=
  inferInstanceAs (Decidable (forall own, own ∈ expression.precedence? -> precedence < own))

end Expr
end SyntaxTree

namespace Phrase

/-!
# The phrases of the language

A phrase relates a list of tokens to the tree that it spells.  Nothing here
speaks of a cursor, of an order of reading or of an error: the relations are the
productions of the grammar, and what a reader accepts is compared with them.

Each production is given the relations for its parts, so none of them is
recursive through another.  Recursion enters once for expressions and once for
blocks, over the number of levels that are still open to nesting.  Precedence is
a condition on the trees: an operation is a phrase for a context of some precedence
only if its operator binds more tightly than the context, and its left operand
may not be held together by a looser operator than its own.  The context of a whole
expression is 0, which is looser than every operator.

Spans are part of the relation.  A tree with other spans is another tree, and no
token list spells both.
-/

open SyntaxTree

/-! ## Lists -/

section Lists

variable {Item : Type} (item : List Token -> Item -> Prop)

/-- At least one item, with a comma between each two. -/
inductive Separated : List Token -> List Item -> Prop
  | last {tokens : List Token} {value : Item} (spelled : item tokens value) :
      Separated tokens [value]
  | more {tokens rest : List Token} {separator : Token} {value : Item} {values : List Item}
      (spelled : item tokens value) (comma : separator.kind = .comma)
      (others : Separated rest values) :
      Separated (tokens ++ separator :: rest) (value :: values)

/-- Items between commas, or none of them. -/
inductive Listed : List Token -> List Item -> Prop
  | none : Listed [] []
  | some {tokens : List Token} {values : List Item} (spelled : Separated item tokens values) :
      Listed tokens values

/-- Items between parentheses, with the span of the closing one. -/
inductive Parenthesised : List Token -> List Item × Source.Span -> Prop
  | mk {opening close : Token} {tokens : List Token} {values : List Item}
      (opens : opening.kind = .openParen) (spelled : Listed item tokens values)
      (closes : close.kind = .closeParen) :
      Parenthesised (opening :: (tokens ++ [close])) (values, close.span)

/-- Any number of items, one behind the other. -/
inductive Repeated : List Token -> List Item -> Prop
  | none : Repeated [] []
  | more {tokens rest : List Token} {value : Item} {values : List Item}
      (spelled : item tokens value) (others : Repeated rest values) :
      Repeated (tokens ++ rest) (value :: values)

/-- What is spelled begins with a token, and its kind is one of these. -/
def Begins (starts : Token.Kind -> Prop) : Prop :=
  forall ⦃tokens : List Token⦄ ⦃value : Item⦄, item tokens value ->
    Exists fun first => Exists fun rest => tokens = first :: rest ∧ starts first.kind

variable {item}

theorem Begins.separated {starts : Token.Kind -> Prop} (begins : Begins item starts) :
    Begins (Separated item) starts := by
  intro tokens values spelled
  cases spelled with
  | last spelled => exact begins spelled
  | more spelled comma others =>
      rcases begins spelled with ⟨first, rest, rfl, startsFirst⟩
      exact ⟨first, _, rfl, startsFirst⟩

end Lists

/-! ## Expressions -/

/-- A token that is an expression by itself. -/
inductive Atom : Token -> Expr -> Prop
  | int {token : Token} {value : Int} (kind : token.kind = .intLiteral)
      (denotes : token.value = some (.int value)) : Atom token (.intLiteral value token.span)
  | string {token : Token} {value : String} (kind : token.kind = .stringLiteral)
      (denotes : token.value = some (.string value)) :
      Atom token (.stringLiteral value token.span)
  | bool {token : Token} {value : Bool} (kind : token.kind = .boolLiteral)
      (denotes : token.value = some (.bool value)) : Atom token (.boolLiteral value token.span)
  | identifier {token : Token} (kind : token.kind = .identifier) :
      Atom token (.identifier token.text token.span)

/-- An expression that no operator holds together. -/
inductive Primary (inner : List Token -> Expr -> Prop) : List Token -> Expr -> Prop
  | atom {token : Token} {expression : Expr} (spelled : Atom token expression) :
      Primary inner [token] expression
  | call {callee : Token} {tokens : List Token} {arguments : List Expr} {close : Source.Span}
      (named : callee.kind = .identifier)
      (spelled : Parenthesised inner tokens (arguments, close)) :
      Primary inner (callee :: tokens)
        (.call callee.text arguments (callee.span.through close))
  | grouping {opening close : Token} {tokens : List Token} {expression : Expr}
      (opens : opening.kind = .openParen) (spelled : inner tokens expression)
      (closes : close.kind = .closeParen) :
      Primary inner (opening :: (tokens ++ [close]))
        (.grouping expression (opening.span.through close.span))

/-- A primary expression with at most one operator before it. -/
inductive Unary (inner : List Token -> Expr -> Prop) : List Token -> Expr -> Prop
  | primary {tokens : List Token} {expression : Expr}
      (spelled : Primary inner tokens expression) : Unary inner tokens expression
  | operation {token : Token} {operator : UnaryOperator} {tokens : List Token} {operand : Expr}
      (denotes : token.kind = operator.kind) (spelled : Primary inner tokens operand) :
      Unary inner (token :: tokens) (.unary operator operand (token.span.through operand.span))

theorem precedence?_of_unary {inner : List Token -> Expr -> Prop} {tokens : List Token}
    {expression : Expr} (spelled : Unary inner tokens expression) :
    expression.precedence? = none := by
  cases spelled with
  | operation => rfl
  | primary spelled =>
      cases spelled with
      | atom spelled => cases spelled <;> rfl
      | call => rfl
      | grouping => rfl

/-- No operator is too loose to hold an operand together. -/
theorem holds_of_unary {inner : List Token -> Expr -> Prop} {tokens : List Token}
    {expression : Expr} (spelled : Unary inner tokens expression) (precedence : Nat) :
    expression.Holds precedence := by
  intro own isOwn
  rw [precedence?_of_unary spelled] at isOwn
  cases isOwn

theorem exceeds_of_unary {inner : List Token -> Expr -> Prop} {tokens : List Token}
    {expression : Expr} (spelled : Unary inner tokens expression) (precedence : Nat) :
    expression.Exceeds precedence := by
  intro own isOwn
  rw [precedence?_of_unary spelled] at isOwn
  cases isOwn

/-- Operands with operators between them that bind more tightly than `precedence`.  An
operator takes all that stands to its left, which no looser operator may hold
together; its right operand is a phrase for the operator's own precedence. -/
inductive Chain (inner : Nat -> List Token -> Expr -> Prop) (precedence : Nat) :
    List Token -> Expr -> Prop
  | unary {tokens : List Token} {expression : Expr} (spelled : Unary (inner 0) tokens expression) :
      Chain inner precedence tokens expression
  | operation {before behind : List Token} {token : Token} {operator : BinaryOperator}
      {left right : Expr} (spelledLeft : Chain inner precedence before left)
      (tighter : precedence < operator.precedence) (held : left.Holds operator.precedence)
      (denotes : token.kind = operator.kind)
      (spelledRight : inner operator.precedence behind right) :
      Chain inner precedence (before ++ token :: behind)
        (.binary left operator right (left.span.through right.span))

/-- What holds a phrase for a context together binds more tightly than the context. -/
theorem exceeds_of_chain {inner : Nat -> List Token -> Expr -> Prop} {precedence : Nat}
    {tokens : List Token} {expression : Expr} (spelled : Chain inner precedence tokens expression) :
    expression.Exceeds precedence := by
  cases spelled with
  | unary spelled => exact exceeds_of_unary spelled precedence
  | operation _ tighter _ _ _ =>
      rintro own ⟨⟩
      exact tighter

/-- An expression in a context of some precedence, with so many levels open. -/
def Expression : Nat -> Nat -> List Token -> Expr -> Prop
  | 0 => fun _ _ _ => False
  | levels + 1 => Chain (Expression levels)

/-! ## Statements -/

/-- The token that begins the declaration of a variable. -/
def declarator : Option TypeName -> Token.Kind
  | none => .varWord
  | some type => type.kind

/-- A type and a name. -/
inductive Parameter : List Token -> SyntaxTree.Parameter -> Prop
  | mk {first name : Token} {type : TypeName} (typed : first.kind = type.kind)
      (named : name.kind = .identifier) :
      Parameter [first, name]
        { type := type, name := name.text, span := first.span.through name.span }

section Statements

variable (expression : List Token -> Expr -> Prop) (block : List Token -> Block -> Prop)

/-- The initial value of a variable, which only a declared type makes dispensable. -/
inductive Initial (type : Option TypeName) : List Token -> Option Expr -> Prop
  | none (typed : type.isSome) : Initial type [] none
  | some {token : Token} {tokens : List Token} {value : Expr} (assigns : token.kind = .assignment)
      (spelled : expression tokens value) : Initial type (token :: tokens) (some value)

/-- A value that may be left out. -/
inductive Optional : List Token -> Option Expr -> Prop
  | none : Optional [] none
  | some {tokens : List Token} {value : Expr} (spelled : expression tokens value) :
      Optional tokens (some value)

/-- An expression between parentheses that belong to a statement. -/
inductive Condition : List Token -> Expr -> Prop
  | mk {opening close : Token} {tokens : List Token} {value : Expr}
      (opens : opening.kind = .openParen) (spelled : expression tokens value)
      (closes : close.kind = .closeParen) : Condition (opening :: (tokens ++ [close])) value

/-- A statement other than the declaration of a function. -/
inductive Statement : List Token -> Stmt -> Prop
  | declaration {type : Option TypeName} {first name last : Token} {tokens : List Token}
      {initial : Option Expr} (declares : first.kind = declarator type)
      (named : name.kind = .identifier) (spelled : Initial expression type tokens initial)
      (ends : last.kind = .semicolon) :
      Statement (first :: name :: (tokens ++ [last]))
        (.declaration type name.text initial (first.span.through last.span))
  | assignment {target token last : Token} {tokens : List Token} {value : Expr}
      (named : target.kind = .identifier) (assigns : token.kind = .assignment)
      (spelled : expression tokens value) (ends : last.kind = .semicolon) :
      Statement (target :: token :: (tokens ++ [last]))
        (.assignment target.text value (target.span.through last.span))
  | call {callee last : Token} {tokens : List Token} {arguments : List Expr}
      {close : Source.Span} (named : callee.kind = .identifier)
      (spelled : Parenthesised expression tokens (arguments, close))
      (ends : last.kind = .semicolon) :
      Statement (callee :: (tokens ++ [last]))
        (.expression (.call callee.text arguments (callee.span.through close))
          (callee.span.through last.span))
  | conditional {first : Token} {test body : List Token} {condition : Expr} {consequent : Block}
      (begins : first.kind = .ifWord) (spelledTest : Condition expression test condition)
      (spelledBody : block body consequent) :
      Statement (first :: (test ++ body))
        (.conditional condition consequent none (first.span.through consequent.span))
  | alternative {first otherwise : Token} {test body other : List Token} {condition : Expr}
      {consequent alternative : Block} (begins : first.kind = .ifWord)
      (spelledTest : Condition expression test condition)
      (spelledBody : block body consequent) (turns : otherwise.kind = .elseWord)
      (spelledOther : block other alternative) :
      Statement (first :: (test ++ (body ++ otherwise :: other)))
        (.conditional condition consequent (some alternative)
          (first.span.through alternative.span))
  | loop {first : Token} {test tokens : List Token} {condition : Expr} {body : Block}
      (begins : first.kind = .whileWord) (spelledTest : Condition expression test condition)
      (spelledBody : block tokens body) :
      Statement (first :: (test ++ tokens))
        (.loop condition body (first.span.through body.span))
  | result {first last : Token} {tokens : List Token} {value : Option Expr}
      (begins : first.kind = .returnWord) (spelled : Optional expression tokens value)
      (ends : last.kind = .semicolon) :
      Statement (first :: (tokens ++ [last])) (.result value (first.span.through last.span))
  | print {first last : Token} {tokens : List Token} {value : Expr}
      (begins : first.kind = .printWord) (spelled : Condition expression tokens value)
      (ends : last.kind = .semicolon) :
      Statement (first :: (tokens ++ [last])) (.print value (first.span.through last.span))

/-- The declaration of a function. -/
inductive Function : List Token -> Stmt -> Prop
  | mk {first name : Token} {listed tokens : List Token}
      {parameters : List SyntaxTree.Parameter} {close : Source.Span} {body : Block}
      (begins : first.kind = .functionWord) (named : name.kind = .identifier)
      (spelledParameters : Parenthesised Parameter listed (parameters, close))
      (spelledBody : block tokens body) :
      Function (first :: name :: (listed ++ tokens))
        (.function name.text parameters body (first.span.through body.span))

end Statements

/-- Statements between curly braces. -/
inductive Braced (statement : List Token -> Stmt -> Prop) : List Token -> SyntaxTree.Block -> Prop
  | mk {opening close : Token} {tokens : List Token} {statements : List Stmt}
      (opens : opening.kind = .openCurly) (spelled : Repeated statement tokens statements)
      (closes : close.kind = .closeCurly) :
      Braced statement (opening :: (tokens ++ [close]))
        (.mk statements (opening.span.through close.span))

/-- A block, with so many levels open. -/
def Block : Nat -> List Token -> SyntaxTree.Block -> Prop
  | 0 => fun _ _ => False
  | levels + 1 => Braced (Statement (Expression levels 0) (Block levels))

/-- A statement at the top of a program, with so many levels open. -/
inductive Top (levels : Nat) : List Token -> Stmt -> Prop
  | function {tokens : List Token} {statement : Stmt}
      (spelled : Function (Block levels) tokens statement) : Top levels tokens statement
  | statement {tokens : List Token} {statement : Stmt}
      (spelled : Statement (Expression levels 0) (Block levels) tokens statement) :
      Top levels tokens statement

end Phrase
end ToyFrontend
