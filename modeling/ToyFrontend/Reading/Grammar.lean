import ToyFrontend.SyntaxTree.Operator

namespace ToyFrontend
namespace Reading

/-!
The grammar as a table from token kinds to the forms they begin.  Reading looks
only at the table, so a grammar may be changed without touching the readers; the
grammar of the language is one value of this type.
-/

/-- The forms of expressions that begin with a token of their own. -/
inductive LeadingForm where
  | primary
  | unary
  | grouping
  | call
deriving DecidableEq, Repr

/-- The forms of statements. -/
inductive StatementForm where
  | declaration
  | assignmentOrCall
  | conditional
  | loop
  | function
  | result
  | print
deriving DecidableEq, Repr

/-- Which form a token begins, and how tightly it binds between two operands. -/
structure Grammar where
  statement : Token.Kind -> Option StatementForm
  leading : Token.Kind -> Option LeadingForm
  binding : Token.Kind -> Option SyntaxTree.BindingPower

namespace Grammar

/-- The grammar in which no token begins anything. -/
def empty : Grammar where
  statement _ := none
  leading _ := none
  binding _ := none

/-- The statement that a token begins. -/
def standardStatement : Token.Kind -> Option StatementForm
  | .intWord | .stringWord | .boolWord | .varWord => some .declaration
  | .ifWord => some .conditional
  | .whileWord => some .loop
  | .returnWord => some .result
  | .printWord => some .print
  | .identifier => some .assignmentOrCall
  | _ => none

/-- The expression that a token begins. -/
def standardLeading : Token.Kind -> Option LeadingForm
  | .intLiteral | .stringLiteral | .boolLiteral | .identifier => some .primary
  | .openParen => some .grouping
  | .dash | .not => some .unary
  | _ => none

/-- How tightly a token binds between two operands. -/
def standardBinding : Token.Kind -> Option SyntaxTree.BindingPower
  | .equals | .notEquals => some .equality
  | .less | .lessEquals | .greater | .greaterEquals => some .relational
  | .plus | .dash => some .additive
  | .star | .slash => some .multiplicative
  | _ => none

/-- The grammar of the language. -/
def standard : Grammar where
  statement := standardStatement
  leading := standardLeading
  binding := standardBinding

/-- The entries of one grammar, and those of another where the first has none. -/
def overlay (upper lower : Grammar) : Grammar where
  statement kind := (upper.statement kind).or (lower.statement kind)
  leading kind := (upper.leading kind).or (lower.leading kind)
  binding kind := (upper.binding kind).or (lower.binding kind)

/-- Change the entry of one kind in a table. -/
def assign {Entry : Type} (table : Token.Kind -> Option Entry) (kind : Token.Kind)
    (entry : Entry) : Token.Kind -> Option Entry :=
  fun other => if other = kind then some entry else table other

/-- Let a kind begin a statement. -/
def withStatement (grammar : Grammar) (kind : Token.Kind) (form : StatementForm) : Grammar :=
  { grammar with statement := assign grammar.statement kind form }

/-- Let a kind begin an expression. -/
def withLeading (grammar : Grammar) (kind : Token.Kind) (form : LeadingForm) : Grammar :=
  { grammar with leading := assign grammar.leading kind form }

/-- Let a kind bind between two operands. -/
def withBinding (grammar : Grammar) (kind : Token.Kind) (power : SyntaxTree.BindingPower) :
    Grammar :=
  { grammar with binding := assign grammar.binding kind power }

end Grammar

end Reading
end ToyFrontend
