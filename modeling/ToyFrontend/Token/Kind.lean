namespace ToyFrontend
namespace Token

/-!
The kinds of tokens.  A kind with a fixed spelling is that spelling: operators,
punctuation and keywords carry no further information.  The other kinds are the
three literals, the identifier and the marker for the end of the input.
-/

/-- The kind of a token. -/
inductive Kind where
  | eof
  | intLiteral
  | stringLiteral
  | boolLiteral
  | identifier
  | openCurly
  | closeCurly
  | openParen
  | closeParen
  | assignment
  | equals
  | not
  | notEquals
  | less
  | lessEquals
  | greater
  | greaterEquals
  | semicolon
  | comma
  | plus
  | dash
  | slash
  | star
  | functionWord
  | ifWord
  | elseWord
  | whileWord
  | varWord
  | intWord
  | stringWord
  | boolWord
  | returnWord
  | printWord
deriving DecidableEq, Repr

namespace Kind

/-- Every kind once, in the order in which listings present them. -/
def all : List Kind :=
  [.eof, .intLiteral, .stringLiteral, .boolLiteral, .identifier,
    .openCurly, .closeCurly, .openParen, .closeParen,
    .assignment, .equals, .not, .notEquals,
    .less, .lessEquals, .greater, .greaterEquals,
    .semicolon, .comma, .plus, .dash, .slash, .star,
    .functionWord, .ifWord, .elseWord, .whileWord, .varWord,
    .intWord, .stringWord, .boolWord, .returnWord, .printWord]

/-- No kind is missing from the list. -/
theorem mem_all (kind : Kind) : kind ∈ all := by
  cases kind <;> decide

/-- The name under which messages and tables show a kind. -/
def name : Kind -> String
  | .eof => "EOF"
  | .intLiteral => "IntLiteral"
  | .stringLiteral => "StringLiteral"
  | .boolLiteral => "BoolLiteral"
  | .identifier => "Identifier"
  | .openCurly => "OpenCurly"
  | .closeCurly => "CloseCurly"
  | .openParen => "OpenParen"
  | .closeParen => "CloseParen"
  | .assignment => "Assignment"
  | .equals => "Equals"
  | .not => "Not"
  | .notEquals => "NotEquals"
  | .less => "Less"
  | .lessEquals => "LessEquals"
  | .greater => "Greater"
  | .greaterEquals => "GreaterEquals"
  | .semicolon => "Semicolon"
  | .comma => "Comma"
  | .plus => "Plus"
  | .dash => "Dash"
  | .slash => "Slash"
  | .star => "Star"
  | .functionWord => "Function"
  | .ifWord => "If"
  | .elseWord => "Else"
  | .whileWord => "While"
  | .varWord => "Var"
  | .intWord => "Int"
  | .stringWord => "String"
  | .boolWord => "Bool"
  | .returnWord => "Return"
  | .printWord => "Print"

/-- The kind with a given name. -/
def ofName? (text : String) : Option Kind :=
  all.find? fun kind => kind.name == text

/-- The fixed spelling of operators, punctuation and keywords. -/
def spelling? : Kind -> Option String
  | .eof | .intLiteral | .stringLiteral | .boolLiteral | .identifier => none
  | .openCurly => some "\x7b"
  | .closeCurly => some "\x7d"
  | .openParen => some "("
  | .closeParen => some ")"
  | .assignment => some "="
  | .equals => some "=="
  | .not => some "!"
  | .notEquals => some "!="
  | .less => some "<"
  | .lessEquals => some "<="
  | .greater => some ">"
  | .greaterEquals => some ">="
  | .semicolon => some ";"
  | .comma => some ","
  | .plus => some "+"
  | .dash => some "-"
  | .slash => some "/"
  | .star => some "*"
  | .functionWord => some "function"
  | .ifWord => some "if"
  | .elseWord => some "else"
  | .whileWord => some "while"
  | .varWord => some "var"
  | .intWord => some "int"
  | .stringWord => some "string"
  | .boolWord => some "bool"
  | .returnWord => some "return"
  | .printWord => some "print"

/-- Is the kind a keyword? -/
def isKeyword : Kind -> Bool
  | .functionWord | .ifWord | .elseWord | .whileWord | .varWord
  | .intWord | .stringWord | .boolWord | .returnWord | .printWord => true
  | _ => false

/-- The kind of a reserved word: a keyword, or one of the two truth values. -/
def ofReserved? : String -> Option Kind
  | "function" => some .functionWord
  | "if" => some .ifWord
  | "else" => some .elseWord
  | "while" => some .whileWord
  | "var" => some .varWord
  | "int" => some .intWord
  | "string" => some .stringWord
  | "bool" => some .boolWord
  | "return" => some .returnWord
  | "print" => some .printWord
  | "true" => some .boolLiteral
  | "false" => some .boolLiteral
  | _ => none

/-- The kinds that can begin a primary expression. -/
def primaryStart : List Kind :=
  [.intLiteral, .stringLiteral, .boolLiteral, .identifier, .openParen]

/-- The kinds that can begin an expression. -/
def expressionStart : List Kind :=
  primaryStart ++ [.dash, .not]

/-- The kinds that can begin a statement inside a block. -/
def statementStart : List Kind :=
  [.intWord, .stringWord, .boolWord, .varWord, .ifWord, .whileWord, .returnWord,
    .printWord, .identifier]

/-- The kinds that name a type. -/
def typeNames : List Kind :=
  [.intWord, .stringWord, .boolWord]

/-- How an error message mentions a kind that would have been accepted. -/
def quoted (kind : Kind) : String :=
  match kind.spelling? with
  | some spelling => "`" ++ spelling ++ "`"
  | none => kind.name

end Kind

end Token
end ToyFrontend
