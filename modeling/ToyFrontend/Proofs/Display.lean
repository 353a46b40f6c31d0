import ToyFrontend.Proofs.Nesting.Limit
import ToyFrontend.Proofs.Scan.Spelling
import ToyFrontend.Proofs.Span

namespace ToyFrontend

/-!
# The text of an expression is read as the expression

The text of an expression is fully parenthesised, so it is read as a tree with
more groupings than the expression has: every operation stands in one.  `wrapped`
is this tree.  A grouping that is already around an operation stays the only one,
which is why the text of a grouping may leave out its parentheses.

The tree `wrapped` obeys the rules of precedence whether the expression did or
not, and it has the same text again.  What can still fail is the bound on nesting,
as more groupings mean more levels.
-/

namespace SyntaxTree
namespace Expr

/-! ## Groupings around all operations -/

/-- The expression in a grouping, if it is an operation. -/
def wrap (expression : Expr) : Expr :=
  if expression.isOperation then .grouping expression expression.span else expression

mutual

/-- The expression with every operation inside it in a grouping, except for one that
already stands directly inside a grouping. -/
def wrappedInside : Expr -> Expr
  | .intLiteral value span => .intLiteral value span
  | .stringLiteral value span => .stringLiteral value span
  | .boolLiteral value span => .boolLiteral value span
  | .identifier name span => .identifier name span
  | .binary left operator right span =>
      .binary left.wrappedInside.wrap operator right.wrappedInside.wrap span
  | .unary operator operand span => .unary operator operand.wrappedInside.wrap span
  | .call callee arguments span => .call callee (listWrapped arguments) span
  | .grouping inner span => .grouping inner.wrappedInside span

/-- Several expressions with every operation in a grouping. -/
def listWrapped : List Expr -> List Expr
  | [] => []
  | first :: rest => first.wrappedInside.wrap :: listWrapped rest

end

/-- The expression with every operation in a grouping that is not in one already. -/
def wrapped (expression : Expr) : Expr :=
  expression.wrappedInside.wrap

theorem listWrapped_eq_map (expressions : List Expr) :
    listWrapped expressions = expressions.map wrapped := by
  induction expressions with
  | nil => simp [listWrapped]
  | cons first rest inductionHypothesis => simp [listWrapped, inductionHypothesis, wrapped]

theorem isOperation_wrappedInside (expression : Expr) :
    expression.wrappedInside.isOperation = expression.isOperation := by
  cases expression <;> simp only [wrappedInside, isOperation]

theorem wrapped_of_operation {expression : Expr} (operation : expression.isOperation = true) :
    expression.wrapped = .grouping expression.wrappedInside expression.wrappedInside.span := by
  rw [wrapped, wrap, if_pos (expression.isOperation_wrappedInside.trans operation)]

theorem wrapped_of_not_operation {expression : Expr}
    (simple : expression.isOperation = false) : expression.wrapped = expression.wrappedInside := by
  rw [wrapped, wrap, if_neg]
  rw [isOperation_wrappedInside, simple]
  decide

/-- No operation stands alone. -/
theorem isOperation_wrapped (expression : Expr) : expression.wrapped.isOperation = false := by
  cases operation : expression.isOperation with
  | true =>
      rw [wrapped_of_operation operation]
      rfl
  | false => rw [wrapped_of_not_operation operation, isOperation_wrappedInside, operation]

/-! ## The same text -/

theorem text_wrap (expression : Expr) : expression.wrap.text = expression.text := by
  cases operation : expression.isOperation <;> simp [wrap, text, operation]

theorem text_wrappedInside (expression : Expr) :
    expression.wrappedInside.text = expression.text := by
  induction expression using Expr.induction with
  | binary left operator right span ofLeft ofRight =>
      simp only [wrappedInside, text, text_wrap, ofLeft, ofRight]
  | unary operator operand span ofOperand => simp only [wrappedInside, text, text_wrap, ofOperand]
  | call callee arguments span ofArguments =>
      have same : (arguments.map wrapped).map text = arguments.map text := by
        rw [List.map_map]
        apply List.map_congr_left
        intro argument listed
        exact (text_wrap _).trans (ofArguments argument listed)
      simp only [wrappedInside, text, texts_eq_map, listWrapped_eq_map, same]
  | grouping inner span ofInner =>
      simp only [wrappedInside, text, isOperation_wrappedInside, ofInner]
  | _ => simp only [wrappedInside]

theorem text_wrapped (expression : Expr) : expression.wrapped.text = expression.text :=
  (text_wrap _).trans expression.text_wrappedInside

/-- Spans have no part in a text. -/
theorem text_withoutSpans (expression : Expr) :
    expression.withoutSpans.text = expression.text := by
  induction expression using Expr.induction with
  | binary left operator right span ofLeft ofRight =>
      simp only [withoutSpans, text, ofLeft, ofRight]
  | unary operator operand span ofOperand => simp only [withoutSpans, text, ofOperand]
  | call callee arguments span ofArguments =>
      have same : (arguments.map withoutSpans).map text = arguments.map text := by
        rw [List.map_map]
        exact List.map_congr_left ofArguments
      simp only [withoutSpans, text, texts_eq_map, listWithoutSpans_eq_map, same]
  | grouping inner span ofInner =>
      simp only [withoutSpans, text, isOperation_withoutSpans, ofInner]
  | _ => simp only [withoutSpans, text]

/-! ## Precedence -/

open Phrase (RegularParts regularParts_binary_iff regularParts_unary_iff regularParts_call_iff
  regularParts_grouping_iff)

theorem holds_of_not_operation {expression : Expr} (simple : expression.isOperation = false)
    (precedence : Nat) : expression.Holds precedence := by
  intro own isOwn
  cases expression with
  | binary => cases simple
  | _ => cases isOwn

theorem regularParts_wrap {expression : Expr} (regular : RegularParts expression) :
    RegularParts expression.wrap := by
  rw [wrap]
  split
  next => exact regularParts_grouping_iff.mpr regular
  next => exact regular

theorem regularParts_wrappedInside (expression : Expr) : RegularParts expression.wrappedInside := by
  induction expression using Expr.induction with
  | binary left operator right span ofLeft ofRight =>
      rw [wrappedInside]
      exact regularParts_binary_iff.mpr
        ⟨⟨holds_of_not_operation left.isOperation_wrapped _,
          exceeds_of_not_operation right.isOperation_wrapped _⟩,
          regularParts_wrap ofLeft, regularParts_wrap ofRight⟩
  | unary operator operand span ofOperand =>
      rw [wrappedInside]
      exact regularParts_unary_iff.mpr ⟨operand.isOperation_wrapped, regularParts_wrap ofOperand⟩
  | call callee arguments span ofArguments =>
      rw [wrappedInside, listWrapped_eq_map]
      apply regularParts_call_iff.mpr
      intro argument listed
      rcases List.mem_map.mp listed with ⟨given, member, rfl⟩
      exact regularParts_wrap (ofArguments given member)
  | grouping inner span ofInner =>
      rw [wrappedInside]
      exact regularParts_grouping_iff.mpr ofInner
  | _ => simp [wrappedInside, RegularParts, parts, Regular]

/-- With all operations in groupings no rule of precedence can be broken. -/
theorem regularParts_wrapped (expression : Expr) : RegularParts expression.wrapped :=
  regularParts_wrap expression.regularParts_wrappedInside

end Expr
end SyntaxTree

/-! ## Words that can be written -/

namespace Word

/-- The word has a text that is scanned as the word: a name is no keyword, and a number
does not exceed the bound. -/
structure Writable (word : Word) : Prop where
  name : forall name, word.name = some name -> Scan.IsName name
  number : forall value, word.value = some (.int value) ->
    Exists fun number : Nat => value = number ∧ number <= largestInt

/-- All words of a list can be written. -/
def AllWritable (words : List Word) : Prop :=
  forall word, word ∈ words -> word.Writable

@[simp] theorem writable_plain (kind : Token.Kind) : (plain kind).Writable :=
  ⟨by rintro name ⟨⟩, by rintro value ⟨⟩⟩

theorem isName_of_writable {name : String} (writable : (named name).Writable) :
    Scan.IsName name :=
  writable.name name rfl

@[simp] theorem allWritable_nil : AllWritable [] := by
  rintro word ⟨⟩

@[simp] theorem allWritable_cons {first : Word} {rest : List Word} :
    AllWritable (first :: rest) ↔ first.Writable ∧ AllWritable rest :=
  List.forall_mem_cons

@[simp] theorem allWritable_append {front back : List Word} :
    AllWritable (front ++ back) ↔ AllWritable front ∧ AllWritable back :=
  List.forall_mem_append

@[simp] theorem allWritable_parenthesised {words : List Word} :
    AllWritable (parenthesised words) ↔ AllWritable words := by
  simp [parenthesised]

theorem AllWritable.of_separated {lists : List (List Word)}
    (writable : AllWritable (separated lists)) {words : List Word} (listed : words ∈ lists) :
    AllWritable words := by
  induction lists with
  | nil => cases listed
  | cons first rest inductionHypothesis =>
      by_cases last : rest = []
      · subst last
        rw [List.mem_singleton.mp listed]
        simpa [separated] using writable
      · rw [separated_cons last, allWritable_append, allWritable_cons] at writable
        rcases List.mem_cons.mp listed with rfl | later
        · exact writable.1
        · exact inductionHypothesis writable.2.2 later

end Word

namespace Scan

theorem number_of_read {start : Source.Position} {first : Char} {ahead : List Char} {piece : Piece}
    {kind : Token.Kind} {value : Int} (run : Piece.read start first ahead = .ok piece)
    (content : piece.content = .lexeme kind (some (.int value))) :
    Exists fun number : Nat => value = number ∧ number <= largestInt := by
  unfold Piece.read at run
  split at run
  next =>
    cases run
    simp only [Piece.word, Piece.ofWord] at content
    split at content <;> cases content
  split at run
  next =>
    unfold Piece.number at run
    dsimp only at run
    split at run
    next bounded =>
      cases run
      cases content
      exact ⟨_, rfl, bounded⟩
    next => cases run
  split at run
  next =>
    cases run
    cases content
  split at run
  next =>
    unfold Piece.string at run
    split at run
    next =>
      cases run
      cases content
    next => cases run
    next => cases run
  split at run
  next =>
    cases run
    cases content
  split at run
  next =>
    cases run
    cases content
  next => cases run

theorem writable_of_read {start : Source.Position} {first : Char} {ahead : List Char}
    {piece : Piece} {token : Token} (run : Piece.read start first ahead = .ok piece)
    (isToken : piece.token? start = some token) : token.word.Writable where
  name name isName := by
    have classified := (recognized_of_read run isToken).classified
    rcases token with ⟨kind, text, value, span⟩
    by_cases named : kind = .identifier
    · subst named
      cases isName
      cases classified with
      | spelled fixed => cases fixed
      | identifier isWord unreserved => exact ⟨isWord, unreserved⟩
    · rw [Token.word, if_neg named] at isName
      cases isName
  number value isValue := by
    rcases Piece.token?_eq_some_iff.mp isToken with ⟨kind, literal, content, rfl⟩
    have carries : literal = some (.int value) := by
      by_cases isLiteral : kind.isLiteral
      · exact (if_pos isLiteral).symm.trans isValue
      · cases (if_neg isLiteral).symm.trans isValue
    rw [carries] at content
    exact number_of_read run content

end Scan

theorem writable_of_tokenize {source : String} {tokens : List Token} {token : Token}
    (scanned : tokenize source = .ok tokens) (member : token ∈ tokens)
    (proper : token.kind ≠ .eof) : token.word.Writable := by
  rcases Scan.exists_read_of_tokenize scanned member proper with ⟨_, _, _, _, -, run, isToken⟩
  exact Scan.writable_of_read run isToken

/-- The words of a node that was read are those of tokens, so they can be written. -/
theorem writable_of_parse {source : String} {program : SyntaxTree.Program}
    {node : SyntaxTree.Node} (accepted : parse source = .ok program) (has : program.Has node) :
    Word.AllWritable node.words := by
  intro word member
  rcases arranged_of_parse accepted with
    ⟨lexemes, marker, scanned, -, proper, arranged, -⟩
  rcases has.exists_segment arranged with ⟨before, segment, behind, rfl, occupies⟩
  rw [← occupies.spelled] at member
  rcases List.mem_map.mp member with ⟨token, inside, rfl⟩
  have listed : token ∈ before ++ (segment ++ behind) :=
    List.mem_append_right _ (List.mem_append_left _ inside)
  exact writable_of_tokenize scanned (List.mem_append_left _ listed) (proper token listed)

/-! ## The text is scanned as the words -/

open Scan (Written Spells EndsLexeme EndsWord EndsMark)

namespace SyntaxTree

theorem BinaryOperator.spells (operator : BinaryOperator) :
    Spells EndsMark operator.symbol.toList [.plain operator.kind] := by
  apply Scan.spells_mark
  · cases operator <;> rfl
  · cases operator <;> decide

theorem UnaryOperator.written {operator : UnaryOperator} {text : List Char} {words : List Word}
    (written : Written EndsLexeme text words) :
    Written EndsLexeme (operator.symbol.toList ++ text) (.plain operator.kind :: words) where
  begins := by
    cases operator with
    | negate => exact ⟨'-', text, rfl, by decide⟩
    | not => exact ⟨'!', text, rfl, by decide⟩
  spells := by
    have isMark : Spells EndsMark operator.symbol.toList [.plain operator.kind] := by
      apply Scan.spells_mark
      · cases operator <;> rfl
      · cases operator <;> decide
    exact written.behind_mark isMark

/-- An operator with a space on each side between its operands. -/
theorem BinaryOperator.written {operator : BinaryOperator} {left right : List Char}
    {wordsLeft wordsRight : List Word} (writtenLeft : Written EndsLexeme left wordsLeft)
    (writtenRight : Written EndsLexeme right wordsRight) :
    Written EndsLexeme (left ++ ' ' :: (operator.symbol.toList ++ ' ' :: right))
      (wordsLeft ++ .plain operator.kind :: wordsRight) := by
  have behind := operator.spells.append_cons writtenRight.spells.space (by decide)
  exact writtenLeft.append_cons behind.space (by decide)

/-- The text of an expression is scanned as the words of the expression in groupings. -/
theorem Expr.written (expression : Expr) (writable : Word.AllWritable expression.words) :
    Written EndsLexeme expression.text.toList expression.wrapped.words := by
  induction expression using Expr.induction with
  | intLiteral value span =>
      rcases (writable _ List.mem_cons_self).number value rfl with ⟨number, rfl, bounded⟩
      exact (Scan.written_number bounded).mono fun _ ends => ends.1
  | stringLiteral value span =>
      rw [text, String.toList_ofList]
      exact (Scan.written_string value).mono fun _ _ => trivial
  | boolLiteral value span => exact (Scan.written_truth value).mono fun _ ends => ends.1
  | identifier name span =>
      have isName := Word.isName_of_writable (writable _ List.mem_cons_self)
      exact (Scan.written_name isName).mono fun _ ends => ends.1
  | binary left operator right span ofLeft ofRight =>
      simp only [words, Word.allWritable_append, Word.allWritable_cons] at writable
      have enclosed := (operator.written (ofLeft writable.1) (ofRight writable.2.2)).parenthesised
      have enclosing : wrapped (.binary left operator right span) =
          .grouping (.binary left.wrapped operator right.wrapped span) span := by
        rw [wrapped_of_operation rfl, wrappedInside]
        rfl
      rw [enclosing, words, words]
      simpa [text] using enclosed.mono fun _ ends => ends.2
  | unary operator operand span ofOperand =>
      simp only [words, Word.allWritable_cons] at writable
      have enclosed := (operator.written (ofOperand writable.2)).parenthesised
      have enclosing : wrapped (.unary operator operand span) =
          .grouping (.unary operator operand.wrapped span) span := by
        rw [wrapped_of_operation rfl, wrappedInside]
        rfl
      rw [enclosing, words, words]
      simpa [text] using enclosed.mono fun _ ends => ends.2
  | call callee arguments span ofArguments =>
      simp only [words, wordLists_eq_map, Word.allWritable_cons,
        Word.allWritable_parenthesised] at writable
      have each : forall argument, argument ∈ arguments ->
          Written EndsLexeme argument.text.toList argument.wrapped.words := fun argument listed =>
        ofArguments argument listed (writable.2.of_separated (List.mem_map_of_mem listed))
      rw [wrapped_of_not_operation rfl, wrappedInside, words, text, texts_eq_map,
        wordLists_eq_map, listWrapped_eq_map, List.map_map]
      exact (Scan.written_listing (Word.isName_of_writable writable.1) each).mono
        fun _ ends => ends.2
  | grouping inner span ofInner =>
      simp only [words, Word.allWritable_parenthesised] at writable
      have writtenInner := ofInner writable
      rw [wrapped_of_not_operation rfl, wrappedInside, words, text]
      -- Around an operation the grouping leaves its parentheses to the text of the operation.
      cases operation : inner.isOperation with
      | true =>
          rw [wrapped_of_operation operation, words] at writtenInner
          exact writtenInner
      | false =>
          rw [wrapped_of_not_operation operation] at writtenInner
          simpa using writtenInner.parenthesised.mono fun _ ends => ends.2

end SyntaxTree

/-! ## Documents that print -/

/-- A written text that is printed. -/
theorem spells_print {text : String} {words : List Word}
    (written : Written EndsLexeme text.toList words) :
    Spells EndsMark ("print(" ++ text ++ ");").toList
      (.plain .printWord :: (Word.parenthesised words ++ [.plain .semicolon])) := by
  have word : Written EndsWord "print".toList [.plain .printWord] :=
    Scan.written_keyword (.mk (by decide) (List.all_eq_true.mp (by decide))) rfl rfl
  have semicolon : Spells EndsMark [';'] [.plain .semicolon] :=
    @Scan.spells_mark .semicolon ";" rfl (by decide)
  have statement := word.spells.append_cons
    (written.parenthesised.spells.append_cons semicolon (by decide)) (by decide)
  simpa using statement

open SyntaxTree (Expr Stmt Program nestingLimit)

/-- Tokens that spell statements within the bound are read as these statements. -/
theorem parseTokens_of_repeated {tokens : List Token} {body : List Stmt}
    (spelled : Phrase.Repeated (Phrase.Top nestingLimit) (Token.beforeEnd tokens) body) :
    Exists fun program => parseTokens tokens = .ok program ∧ program.body = body := by
  rcases (Reading.Cursor.closed_ofTokens tokens).passes_beforeEnd with ⟨stop, passes, ends⟩
  rw [Reading.Cursor.beforeEnd_ofTokens] at passes
  exact ⟨{ body, span := { start := .start, finish := stop.position } },
    Reading.parseTokens_eq_ok_iff.mpr ⟨spelled, stop, passes, ends, rfl⟩, rfl⟩

theorem wellFormed_print {value : Expr} (regular : Phrase.RegularParts value)
    (span : Source.Span) : Program.WellFormed { body := [.print value span], span } where
  regular statement member := by
    cases List.mem_singleton.mp member
    exact ⟨rfl, rfl, regular⟩
  flat statement listed inner inside := by
    cases List.mem_singleton.mp listed
    cases inside

theorem SyntaxTree.Stmt.eq_print_of_withoutSpans {statement : Stmt} {value : Expr}
    {span : Source.Span}
    (same : statement.withoutSpans = (Stmt.print value span).withoutSpans) :
    Exists fun read => Exists fun place =>
      statement = .print read place ∧ read.withoutSpans = value.withoutSpans := by
  cases statement with
  | print read place =>
      rw [withoutSpans, withoutSpans] at same
      exact ⟨read, place, rfl, (Stmt.print.inj same).1⟩
  | conditional condition consequent alternative place => cases alternative <;> cases same
  | _ => cases same

theorem parseTokens_of_shallow_print {tokens : List Token} {value : Expr}
    (regular : Phrase.RegularParts value)
    (shallow : forall level, level ∈ value.levels 1 -> level <= nestingLimit)
    (spelled : (Token.beforeEnd tokens).map Token.word = Stmt.words (.print value nowhere)) :
    Exists fun program => Exists fun read => Exists fun span =>
      parseTokens tokens = .ok program ∧ program.body = [.print read span] ∧
        read.withoutSpans = value.withoutSpans := by
  have fits : Phrase.Fits nestingLimit 1 value := fun level inside => by
    have within := shallow level inside
    omega
  rcases Phrase.covers_print
    (Phrase.covers_expression value regular fits value.exceeds_zero) spelled with
    ⟨statement, spelledStatement, same⟩
  have alone := Phrase.Repeated.more (Phrase.Top.statement spelledStatement) .none
  rw [List.append_nil] at alone
  rcases parseTokens_of_repeated alone with ⟨program, accepted, body⟩
  rcases Stmt.eq_print_of_withoutSpans same with ⟨read, span, rfl, sameValue⟩
  exact ⟨program, read, span, accepted, body, sameValue⟩

/-- A document that spells a statement that prints is read as such a statement, unless its
value has a level beyond the bound. -/
theorem parse_of_print {source : String} {value : Expr} {follow : Char -> Prop}
    (regular : Phrase.RegularParts value)
    (spells : Spells follow source.toList
      (.plain .printWord :: (Word.parenthesised value.words ++ [.plain .semicolon]))) :
    ((Exists fun level => level ∈ value.levels 1 ∧ nestingLimit < level) ∧
      Exists fun error => parse source = .error (.syntactic error) ∧
        error.cause = .nestingTooDeep) ∨
    ((forall level, level ∈ value.levels 1 -> level <= nestingLimit) ∧
      Exists fun read => Exists fun given => Exists fun span =>
        parse source = .ok read ∧ read.body = [.print given span] ∧
          given.withoutSpans = value.withoutSpans) := by
  rcases exists_tokenize_of_spells spells with ⟨tokens, scanned, ofTokens⟩
  -- Either all levels fit and the reader is complete, or the first that does not is refused.
  by_cases shallow : forall level, level ∈ value.levels 1 -> level <= nestingLimit
  · rcases parseTokens_of_shallow_print regular shallow ofTokens with
      ⟨program, read, span, accepted, body, same⟩
    exact .inr ⟨shallow, program, read, span, parse_eq_ok_iff.mpr ⟨tokens, scanned, accepted⟩, body,
      same⟩
  · simp only [not_forall, Nat.not_le] at shallow
    rcases shallow with ⟨level, inside, beyond⟩
    have deep : level ∈ Program.levels { body := [.print value nowhere], span := nowhere } :=
      Stmt.mem_listLevels.mpr ⟨_, List.mem_singleton_self _, inside⟩
    rcases parseTokens_of_deep (wellFormed_print regular nowhere)
      (ofTokens.trans (List.append_nil _).symm) deep beyond with ⟨_, token, -, -, failed⟩
    exact .inl ⟨⟨level, inside, beyond⟩, .blame .nestingTooDeep [] token,
      by simp only [parse, scanned, failed], rfl⟩

/-- An expression that was read, printed by its text, is read again.  The statement is
refused only if the groupings around all operations go beyond the bound on nesting;
otherwise it prints the expression with these groupings, which has the same text. -/
theorem parse_of_text {source : String} {program : Program} {expression : Expr}
    (accepted : parse source = .ok program) (has : program.Has (.expression expression)) :
    ((Exists fun level => level ∈ expression.wrapped.levels 1 ∧ nestingLimit < level) ∧
      Exists fun error =>
        parse ("print(" ++ expression.text ++ ");") = .error (.syntactic error) ∧
          error.cause = .nestingTooDeep) ∨
    ((forall level, level ∈ expression.wrapped.levels 1 -> level <= nestingLimit) ∧
      Exists fun read => Exists fun value => Exists fun span =>
        parse ("print(" ++ expression.text ++ ");") = .ok read ∧
          read.body = [.print value span] ∧
          value.withoutSpans = expression.wrapped.withoutSpans ∧
          value.text = expression.text) := by
  have written := expression.written (writable_of_parse accepted has)
  rcases parse_of_print expression.regularParts_wrapped (spells_print written) with
    refused | ⟨shallow, read, value, span, isRead, body, same⟩
  · exact .inl refused
  · refine .inr ⟨shallow, read, value, span, isRead, body, same, ?_⟩
    rw [← value.text_withoutSpans, same, Expr.text_withoutSpans, Expr.text_wrapped]

/-- A product of a negated sum in two pairs of parentheses and of a call with a literal
that needs escapes. -/
def negatedDocument : String :=
  "x = -((a + 1)) * f(\"\\\"\\n\", !b);"

/-- The expression that is assigned by the only statement of a document. -/
def assigned? (source : String) : Option Expr :=
  match parse source with
  | .ok { body := [.assignment _ value _], .. } => some value
  | _ => none

theorem has_of_assigned? {source : String} {expression : Expr}
    (isAssigned : assigned? source = some expression) :
    Exists fun program => parse source = .ok program ∧ program.Has (.expression expression) := by
  unfold assigned? at isAssigned
  split at isAssigned
  next accepted =>
    cases isAssigned
    exact ⟨_, accepted, .inside (.top List.mem_cons_self) List.mem_cons_self⟩
  next => cases isAssigned

theorem parse_of_text_of_negatedDocument :
    Exists fun expression => assigned? negatedDocument = some expression ∧
      expression.text = "((-((a + 1))) * f(\"\\\"\\n\", (!b)))" ∧
      Exists fun read => Exists fun value => Exists fun span =>
        parse ("print(" ++ expression.text ++ ");") = .ok read ∧
          read.body = [.print value span] ∧
          value.withoutSpans = expression.wrapped.withoutSpans ∧
          value.text = expression.text := by
  have isText : (assigned? negatedDocument).map Expr.text =
      some "((-((a + 1))) * f(\"\\\"\\n\", (!b)))" := by decide +kernel
  have isShallow : (assigned? negatedDocument).all
      (fun expression => expression.wrapped.levels 1 |>.all (· <= nestingLimit)) = true := by
    decide +kernel
  cases isAssigned : assigned? negatedDocument with
  | none =>
      rw [isAssigned] at isText
      cases isText
  | some expression =>
      rw [isAssigned] at isText isShallow
      rcases has_of_assigned? isAssigned with ⟨program, accepted, has⟩
      refine ⟨expression, rfl, Option.some.inj isText, ?_⟩
      rcases parse_of_text accepted has with ⟨⟨level, inside, beyond⟩, -⟩ | ⟨-, isRead⟩
      · have within := of_decide_eq_true (List.all_eq_true.mp isShallow level inside)
        exact absurd within (Nat.not_le.mpr beyond)
      · exact isRead

end ToyFrontend
