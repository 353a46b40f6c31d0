import ToyFrontend.Token.Kind

namespace ToyFrontend
namespace SyntaxTree

/-!
Type names, operators and binding powers.  An operator is named for what it
computes; the same token kind may denote different operators, as the dash does
between two operands and before one.
-/

/-- The built-in types. -/
inductive TypeName where
  | int
  | string
  | bool
deriving DecidableEq, Repr

namespace TypeName

/-- The type that a keyword names. -/
def ofKind? : Token.Kind -> Option TypeName
  | .intWord => some .int
  | .stringWord => some .string
  | .boolWord => some .bool
  | _ => none

/-- The keyword that names a type. -/
def kind : TypeName -> Token.Kind
  | .int => .intWord
  | .string => .stringWord
  | .bool => .boolWord

/-- How a type is written. -/
def text : TypeName -> String
  | .int => "int"
  | .string => "string"
  | .bool => "bool"

/-- A keyword names a type exactly when it is that type's keyword. -/
theorem ofKind?_eq_some_iff {kind : Token.Kind} {type : TypeName} :
    ofKind? kind = some type ↔ type.kind = kind := by
  cases kind <;> cases type <;> simp [ofKind?, TypeName.kind]

end TypeName

/-- How tightly an operator holds its operands, loosest first.  The loosest power
belongs to no operator: it is the context of a whole expression. -/
inductive BindingPower where
  | loosest
  | equality
  | relational
  | additive
  | multiplicative
deriving DecidableEq, Repr

namespace BindingPower

/-- The place of a power in the order. -/
def rank : BindingPower -> Nat
  | .loosest => 0
  | .equality => 1
  | .relational => 2
  | .additive => 3
  | .multiplicative => 4

/-- Powers are compared by their place in the order. -/
instance : LE BindingPower where
  le first second := first.rank <= second.rank

instance : LT BindingPower where
  lt first second := first.rank < second.rank

instance (first second : BindingPower) : Decidable (first <= second) :=
  inferInstanceAs (Decidable (first.rank <= second.rank))

instance (first second : BindingPower) : Decidable (first < second) :=
  inferInstanceAs (Decidable (first.rank < second.rank))

end BindingPower

/-- Operators between two operands. -/
inductive BinaryOperator where
  | add
  | subtract
  | multiply
  | divide
  | equal
  | notEqual
  | less
  | lessEqual
  | greater
  | greaterEqual
deriving DecidableEq, Repr

namespace BinaryOperator

/-- The operator that a token denotes between two operands. -/
def ofKind? : Token.Kind -> Option BinaryOperator
  | .plus => some .add
  | .dash => some .subtract
  | .star => some .multiply
  | .slash => some .divide
  | .equals => some .equal
  | .notEquals => some .notEqual
  | .less => some .less
  | .lessEquals => some .lessEqual
  | .greater => some .greater
  | .greaterEquals => some .greaterEqual
  | _ => none

/-- The token that denotes an operator. -/
def kind : BinaryOperator -> Token.Kind
  | .add => .plus
  | .subtract => .dash
  | .multiply => .star
  | .divide => .slash
  | .equal => .equals
  | .notEqual => .notEquals
  | .less => .less
  | .lessEqual => .lessEquals
  | .greater => .greater
  | .greaterEqual => .greaterEquals

/-- How an operator is written. -/
def symbol : BinaryOperator -> String
  | .add => "+"
  | .subtract => "-"
  | .multiply => "*"
  | .divide => "/"
  | .equal => "=="
  | .notEqual => "!="
  | .less => "<"
  | .lessEqual => "<="
  | .greater => ">"
  | .greaterEqual => ">="

/-- A token denotes an operator exactly when it is that operator's token. -/
theorem ofKind?_eq_some_iff {kind : Token.Kind} {operator : BinaryOperator} :
    ofKind? kind = some operator ↔ operator.kind = kind := by
  cases kind <;> cases operator <;> simp [ofKind?, BinaryOperator.kind]

end BinaryOperator

/-- Operators before one operand. -/
inductive UnaryOperator where
  | negate
  | not
deriving DecidableEq, Repr

namespace UnaryOperator

/-- The operator that a token denotes before an operand. -/
def ofKind? : Token.Kind -> Option UnaryOperator
  | .dash => some .negate
  | .not => some .not
  | _ => none

/-- The token that denotes an operator. -/
def kind : UnaryOperator -> Token.Kind
  | .negate => .dash
  | .not => .not

/-- How an operator is written. -/
def symbol : UnaryOperator -> String
  | .negate => "-"
  | .not => "!"

/-- A token denotes an operator exactly when it is that operator's token. -/
theorem ofKind?_eq_some_iff {kind : Token.Kind} {operator : UnaryOperator} :
    ofKind? kind = some operator ↔ operator.kind = kind := by
  cases kind <;> cases operator <;> simp [ofKind?, UnaryOperator.kind]

end UnaryOperator

end SyntaxTree
end ToyFrontend
