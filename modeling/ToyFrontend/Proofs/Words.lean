import ToyFrontend.Proofs.Reading.Program

namespace ToyFrontend

/-!
# The words of a program

A token tells more than a tree keeps: the text of a keyword, the spelling of a
number, a place.  Its word is what remains, namely its kind, the name of an
identifier and the value of a literal.  The words of a tree are defined from the
tree alone, as the productions of the grammar write them.

Reading loses no word and adds none.  The statement for whole programs comes
from one for each production, in which the words of the parts are given.
-/

/-- What a token contributes to a program. -/
structure Word where
  kind : Token.Kind
  name : Option String
  value : Option Literal
deriving DecidableEq, Repr

namespace Word

/-- The word of a kind with a fixed spelling. -/
def plain (kind : Token.Kind) : Word where
  kind := kind
  name := none
  value := none

/-- The word of an identifier. -/
def named (name : String) : Word where
  kind := .identifier
  name := some name
  value := none

/-- The kind of token that writes a value. -/
def literalKind : Literal -> Token.Kind
  | .int _ => .intLiteral
  | .string _ => .stringLiteral
  | .bool _ => .boolLiteral

/-- The word of a literal. -/
def literal (value : Literal) : Word where
  kind := literalKind value
  name := none
  value := some value

/-- A token with this word, at the beginning of a text. -/
def token (word : Word) : Token where
  kind := word.kind
  text := word.name.getD (word.kind.spelling?.getD "")
  value := word.value
  span := .point .start

/-- Words between a pair of parentheses. -/
def parenthesised (words : List Word) : List Word :=
  plain .openParen :: (words ++ [plain .closeParen])

/-- Several lists of words with a comma between each two. -/
def separated (lists : List (List Word)) : List Word :=
  [plain .comma].intercalate lists

theorem separated_cons {first : List Word} {rest : List (List Word)} (nonempty : rest ≠ []) :
    separated (first :: rest) = first ++ plain .comma :: separated rest := by
  rw [separated, List.intercalate_cons_of_ne_nil nonempty, List.append_assoc]
  rfl

end Word

namespace Token

/-- Is the token one of the three kinds that carry a value? -/
def Kind.isLiteral : Kind -> Bool
  | .intLiteral | .stringLiteral | .boolLiteral => true
  | _ => false

/-- The word of a token.  The text counts for identifiers only, the value for
literals only; whatever else a token may carry has no part in a program. -/
def word (token : Token) : Word where
  kind := token.kind
  name := if token.kind = .identifier then some token.text else none
  value := if token.kind.isLiteral then token.value else none

theorem word_eq_named {token : Token} (kind : token.kind = .identifier) :
    token.word = .named token.text := by
  rw [word, kind]
  rfl

/-- A kind with a fixed spelling is all there is to its tokens. -/
theorem word_eq_plain {token : Token} {kind : Token.Kind} (same : token.kind = kind)
    (fixed : kind.spelling?.isSome) : token.word = .plain kind := by
  have notName : kind ≠ .identifier := by
    rintro rfl
    cases fixed
  have notLiteral : kind.isLiteral = false := by
    cases kind <;> first | rfl | cases fixed
  rw [word, same, if_neg notName, notLiteral]
  rfl

theorem word_eq_literal {token : Token} (value : Literal)
    (kind : token.kind = Word.literalKind value) (denotes : token.value = some value) :
    token.word = .literal value := by
  rw [word, kind, denotes]
  cases value <;> rfl

end Token

namespace SyntaxTree

open Word

namespace Expr

mutual

/-- The words of an expression. -/
def words : Expr -> List Word
  | .intLiteral value _ => [literal (.int value)]
  | .stringLiteral value _ => [literal (.string value)]
  | .boolLiteral value _ => [literal (.bool value)]
  | .identifier name _ => [named name]
  | .binary left operator right _ => left.words ++ plain operator.kind :: right.words
  | .unary operator operand _ => plain operator.kind :: operand.words
  | .call callee arguments _ => named callee :: parenthesised (separated (wordLists arguments))
  | .grouping inner _ => parenthesised inner.words

/-- The words of several expressions, each list apart. -/
def wordLists : List Expr -> List (List Word)
  | [] => []
  | first :: rest => first.words :: wordLists rest

end

theorem wordLists_eq_map (expressions : List Expr) :
    wordLists expressions = expressions.map words := by
  induction expressions with
  | nil => simp [wordLists]
  | cons first rest inductionHypothesis => simp [wordLists, inductionHypothesis]

end Expr

/-- The words of a parameter. -/
def Parameter.words (parameter : Parameter) : List Word :=
  [plain parameter.type.kind, named parameter.name]

namespace Stmt

/-- The words that give a variable its initial value. -/
def initialWords : Option Expr -> List Word
  | none => []
  | some value => plain .assignment :: value.words

/-- The words of a value that may be missing. -/
def optionalWords : Option Expr -> List Word
  | none => []
  | some value => value.words

mutual

/-- The words of a statement. -/
def words : Stmt -> List Word
  | .function name parameters body _ =>
      plain .functionWord :: named name ::
        (parenthesised (separated (parameters.map Parameter.words)) ++ blockWords body)
  | .declaration type name initial _ =>
      plain (Phrase.declarator type) :: named name ::
        (initialWords initial ++ [plain .semicolon])
  | .assignment target value _ =>
      named target :: plain .assignment :: (value.words ++ [plain .semicolon])
  | .conditional condition consequent alternative _ =>
      plain .ifWord :: (parenthesised condition.words ++ (blockWords consequent ++
        match alternative with
        | none => []
        | some otherwise => plain .elseWord :: blockWords otherwise))
  | .loop condition body _ =>
      plain .whileWord :: (parenthesised condition.words ++ blockWords body)
  | .result value _ => plain .returnWord :: (optionalWords value ++ [plain .semicolon])
  | .expression value _ => value.words ++ [plain .semicolon]
  | .print value _ =>
      plain .printWord :: (parenthesised value.words ++ [plain .semicolon])

/-- The words of a block. -/
def blockWords : Block -> List Word
  | .mk statements _ => plain .openCurly :: (listWords statements ++ [plain .closeCurly])

/-- The words of several statements. -/
def listWords : List Stmt -> List Word
  | [] => []
  | first :: rest => first.words ++ listWords rest

end

end Stmt

/-- The words of a program. -/
def Program.words (program : Program) : List Word :=
  Stmt.listWords program.body

end SyntaxTree

namespace Phrase

open SyntaxTree

/-- The words of the tokens are those of what they spell. -/
def KeepsWords {Item : Type} (item : List Token -> Item -> Prop)
    (words : Item -> List Word) : Prop :=
  forall ⦃tokens : List Token⦄ ⦃value : Item⦄, item tokens value ->
    tokens.map Token.word = words value

section Lists

variable {Item : Type} {item : List Token -> Item -> Prop} {words : Item -> List Word}

theorem keepsWords_separated (keeps : KeepsWords item words) :
    KeepsWords (Separated item) (fun values => Word.separated (values.map words)) := by
  intro tokens values spelled
  induction spelled with
  | last spelled =>
      rw [keeps spelled]
      exact List.intercalate_singleton.symm
  | @more tokens rest separator value values spelled comma others inductionHypothesis =>
      have isComma := Token.word_eq_plain comma rfl
      have nonempty : values.map words ≠ [] := by
        cases others <;> exact List.cons_ne_nil _ _
      rw [List.map_append, List.map_cons, keeps spelled, isComma, inductionHypothesis]
      exact (Word.separated_cons nonempty).symm

theorem keepsWords_listed (keeps : KeepsWords item words) :
    KeepsWords (Listed item) (fun values => Word.separated (values.map words)) := by
  intro tokens values spelled
  cases spelled with
  | none => exact List.intercalate_nil.symm
  | some spelled => exact keepsWords_separated keeps spelled

/-- A phrase between two parentheses. -/
theorem map_word_parenthesised {opening close : Token} {tokens : List Token}
    {enclosed : List Word} (opens : opening.kind = .openParen)
    (keeps : tokens.map Token.word = enclosed) (closes : close.kind = .closeParen) :
    (opening :: (tokens ++ [close])).map Token.word = Word.parenthesised enclosed := by
  rw [List.map_cons, List.map_append, keeps, List.map_singleton,
    Token.word_eq_plain opens rfl, Token.word_eq_plain closes rfl]
  rfl

theorem keepsWords_parenthesised (keeps : KeepsWords item words) :
    KeepsWords (Parenthesised item)
      (fun read => Word.parenthesised (Word.separated (read.1.map words))) := by
  rintro tokens _ ⟨opens, spelled, closes⟩
  exact map_word_parenthesised opens (keepsWords_listed keeps spelled) closes

end Lists

section Expressions

variable {inner : List Token -> Expr -> Prop}

theorem keepsWords_primary (keeps : KeepsWords inner Expr.words) :
    KeepsWords (Primary inner) Expr.words := by
  intro tokens expression spelled
  cases spelled with
  | atom spelled =>
      rw [List.map_singleton]
      cases spelled with
      | int kind denotes => rw [Token.word_eq_literal (.int _) kind denotes, Expr.words]
      | string kind denotes =>
          rw [Token.word_eq_literal (.string _) kind denotes, Expr.words]
      | bool kind denotes => rw [Token.word_eq_literal (.bool _) kind denotes, Expr.words]
      | identifier kind => rw [Token.word_eq_named kind, Expr.words]
  | call named spelled =>
      rw [List.map_cons, Token.word_eq_named named, keepsWords_parenthesised keeps spelled,
        Expr.words, Expr.wordLists_eq_map]
  | grouping opens spelled closes =>
      rw [Expr.words]
      exact map_word_parenthesised opens (keeps spelled) closes

theorem word_of_unaryOperator {token : Token} {operator : UnaryOperator}
    (denotes : token.kind = operator.kind) : token.word = .plain operator.kind := by
  apply Token.word_eq_plain denotes
  cases operator <;> rfl

theorem word_of_binaryOperator {token : Token} {operator : BinaryOperator}
    (denotes : token.kind = operator.kind) : token.word = .plain operator.kind := by
  apply Token.word_eq_plain denotes
  cases operator <;> rfl

theorem keepsWords_unary (keeps : KeepsWords inner Expr.words) :
    KeepsWords (Unary inner) Expr.words := by
  intro tokens expression spelled
  cases spelled with
  | primary spelled => exact keepsWords_primary keeps spelled
  | operation denotes spelled =>
      rw [List.map_cons, word_of_unaryOperator denotes, keepsWords_primary keeps spelled,
        Expr.words]

theorem keepsWords_expression (levels precedence : Nat) :
    KeepsWords (Expression levels precedence) Expr.words := by
  induction levels generalizing precedence with
  | zero =>
      intro tokens expression spelled
      exact False.elim spelled
  | succ levels keeps =>
      intro tokens expression spelled
      induction spelled with
      | unary spelled => exact keepsWords_unary (keeps 0) spelled
      | operation spelledLeft _ _ denotes spelledRight inductionHypothesis =>
          rw [List.map_append, List.map_cons, inductionHypothesis, word_of_binaryOperator denotes,
            keeps _ spelledRight, Expr.words]

end Expressions

section Statements

variable {expression : List Token -> Expr -> Prop} {block : List Token -> SyntaxTree.Block -> Prop}

theorem keepsWords_parameter : KeepsWords Parameter SyntaxTree.Parameter.words := by
  intro tokens parameter spelled
  cases spelled with
  | @mk first name type typed named =>
      have typeWord : first.word = .plain type.kind := by
        apply Token.word_eq_plain typed
        cases type <;> rfl
      rw [List.map_cons, List.map_singleton, typeWord, Token.word_eq_named named]
      rfl

theorem keepsWords_initial (keeps : KeepsWords expression Expr.words) (type : Option TypeName) :
    KeepsWords (Initial expression type) Stmt.initialWords := by
  intro tokens initial spelled
  cases spelled with
  | none => rfl
  | some assigns spelled =>
      rw [List.map_cons, Token.word_eq_plain assigns rfl, keeps spelled]
      rfl

theorem keepsWords_optional (keeps : KeepsWords expression Expr.words) :
    KeepsWords (Optional expression) Stmt.optionalWords := by
  intro tokens value spelled
  cases spelled with
  | none => rfl
  | some spelled => exact keeps spelled

theorem keepsWords_condition (keeps : KeepsWords expression Expr.words) :
    KeepsWords (Condition expression) (fun value => Word.parenthesised value.words) := by
  rintro tokens value ⟨opens, spelled, closes⟩
  exact map_word_parenthesised opens (keeps spelled) closes

theorem word_of_declarator {token : Token} {type : Option TypeName}
    (declares : token.kind = declarator type) : token.word = .plain (declarator type) := by
  apply Token.word_eq_plain declares
  rcases type with _ | type
  · rfl
  · cases type <;> rfl

theorem keepsWords_statement (keeps : KeepsWords expression Expr.words)
    (keepsBlock : KeepsWords block Stmt.blockWords) :
    KeepsWords (Statement expression block) Stmt.words := by
  intro tokens statement spelled
  cases spelled with
  | declaration declares named spelled ends =>
      rw [List.map_cons, List.map_cons, List.map_append, List.map_singleton,
        word_of_declarator declares, Token.word_eq_named named, keepsWords_initial keeps _ spelled,
        Token.word_eq_plain ends rfl, Stmt.words]
  | assignment named assigns spelled ends =>
      rw [List.map_cons, List.map_cons, List.map_append, List.map_singleton,
        Token.word_eq_named named, Token.word_eq_plain assigns rfl, keeps spelled,
        Token.word_eq_plain ends rfl, Stmt.words]
  | call named spelled ends =>
      rw [List.map_cons, List.map_append, List.map_singleton, Token.word_eq_named named,
        keepsWords_parenthesised keeps spelled, Token.word_eq_plain ends rfl,
        Stmt.words, Expr.words, Expr.wordLists_eq_map]
      rfl
  | conditional begins spelledTest spelledBody =>
      rw [List.map_cons, List.map_append, Token.word_eq_plain begins rfl,
        keepsWords_condition keeps spelledTest, keepsBlock spelledBody, Stmt.words,
        List.append_nil]
  | alternative begins spelledTest spelledBody turns spelledOther =>
      rw [List.map_cons, List.map_append, List.map_append, List.map_cons,
        Token.word_eq_plain begins rfl, keepsWords_condition keeps spelledTest,
        keepsBlock spelledBody, Token.word_eq_plain turns rfl,
        keepsBlock spelledOther, Stmt.words]
  | loop begins spelledTest spelledBody =>
      rw [List.map_cons, List.map_append, Token.word_eq_plain begins rfl,
        keepsWords_condition keeps spelledTest, keepsBlock spelledBody, Stmt.words]
  | result begins spelled ends =>
      rw [List.map_cons, List.map_append, List.map_singleton,
        Token.word_eq_plain begins rfl, keepsWords_optional keeps spelled,
        Token.word_eq_plain ends rfl, Stmt.words]
  | print begins spelled ends =>
      rw [List.map_cons, List.map_append, List.map_singleton,
        Token.word_eq_plain begins rfl, keepsWords_condition keeps spelled,
        Token.word_eq_plain ends rfl, Stmt.words]

theorem keepsWords_repeated {statement : List Token -> Stmt -> Prop}
    (keeps : KeepsWords statement Stmt.words) :
    KeepsWords (Repeated statement) Stmt.listWords := by
  intro tokens statements spelled
  induction spelled with
  | none => rw [Stmt.listWords, List.map_nil]
  | more spelled others inductionHypothesis =>
      rw [List.map_append, keeps spelled, inductionHypothesis, Stmt.listWords]

theorem keepsWords_braced {statement : List Token -> Stmt -> Prop}
    (keeps : KeepsWords statement Stmt.words) : KeepsWords (Braced statement) Stmt.blockWords := by
  rintro tokens body ⟨opens, spelled, closes⟩
  rw [List.map_cons, List.map_append, List.map_singleton,
    Token.word_eq_plain opens rfl, keepsWords_repeated keeps spelled,
    Token.word_eq_plain closes rfl, Stmt.blockWords]

theorem keepsWords_function (keepsBlock : KeepsWords block Stmt.blockWords) :
    KeepsWords (Function block) Stmt.words := by
  rintro tokens statement ⟨begins, named, spelledParameters, spelledBody⟩
  rw [List.map_cons, List.map_cons, List.map_append, Token.word_eq_plain begins rfl,
    Token.word_eq_named named, keepsWords_parenthesised keepsWords_parameter spelledParameters,
    keepsBlock spelledBody, Stmt.words]

end Statements

theorem keepsWords_block (levels : Nat) : KeepsWords (Block levels) Stmt.blockWords := by
  induction levels with
  | zero =>
      intro tokens body spelled
      exact False.elim spelled
  | succ levels keepsBlock =>
      exact keepsWords_braced (keepsWords_statement (keepsWords_expression levels 0)
        keepsBlock)

theorem keepsWords_top (levels : Nat) : KeepsWords (Top levels) Stmt.words := by
  intro tokens statement spelled
  cases spelled with
  | function spelled => exact keepsWords_function (keepsWords_block levels) spelled
  | statement spelled =>
      exact keepsWords_statement (keepsWords_expression levels 0) (keepsWords_block levels)
        spelled

end Phrase

/-- The words of an accepted program are those of the tokens before the first end
marker, in order: reading loses nothing, adds nothing and moves nothing. -/
theorem words_eq_of_parseTokens {tokens : List Token} {program : SyntaxTree.Program}
    (accepted : parseTokens tokens = .ok program) :
    program.words = (Token.beforeEnd tokens).map Token.word := by
  have spelled := (Reading.parseTokens_eq_ok_iff.mp accepted).1
  exact (Phrase.keepsWords_repeated (Phrase.keepsWords_top _) spelled).symm

/-- A declaration by a product of a call and a sum, with a token behind the marker. -/
def markedDeclaration : List Token :=
  [.plain .varWord, .named "x", .plain .assignment, .named "f", .plain .openParen,
    .literal (.int 1), .plain .comma, .named "y", .plain .closeParen, .plain .star,
    .plain .openParen, .literal (.int 2), .plain .plus, .literal (.int 3), .plain .closeParen,
    .plain .semicolon, .plain .eof, .plain .plus].map Word.token

theorem words_eq_of_markedDeclaration :
    Exists fun program => parseTokens markedDeclaration = .ok program ∧
      program.words = (Token.beforeEnd markedDeclaration).map Token.word :=
  ⟨_, rfl, words_eq_of_parseTokens rfl⟩

end ToyFrontend
