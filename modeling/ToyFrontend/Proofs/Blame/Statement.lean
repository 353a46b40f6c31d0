import ToyFrontend.Proofs.Blame.Expression

namespace ToyFrontend

namespace Phrase

/-!
# Errors in statements

Each form of statement explains its errors for arbitrary readers of its parts,
once the parts are known to explain theirs and to be possible at all.  The second
condition is what completes a statement that broke off: whatever is still missing
behind an expected token can be supplied.

Blocks are treated like expressions.  `WrittenBlock` has no bound on the depth, so
a block that was refused for its depth is the beginning of one nevertheless.
-/

open SyntaxTree

/-- The tokens write a block, however deep it is. -/
structure WrittenBlock (tokens : List Token) (body : SyntaxTree.Block) : Prop where
  words : tokens.map Token.word = Stmt.blockWords body
  plain : PlainBlock body

/-- A statement inside a block, however deep it is. -/
def WrittenStatement : List Token -> Stmt -> Prop :=
  Statement (Written 0) WrittenBlock

/-- A statement at the top of a program, however deep it is. -/
inductive WrittenTop : List Token -> Stmt -> Prop
  | function {tokens : List Token} {statement : Stmt}
      (spelled : Function WrittenBlock tokens statement) : WrittenTop tokens statement
  | statement {tokens : List Token} {statement : Stmt}
      (spelled : WrittenStatement tokens statement) : WrittenTop tokens statement

theorem writtenBlock_of_block {levels : Nat} {tokens : List Token} {body : SyntaxTree.Block}
    (spelled : Block levels tokens body) : WrittenBlock tokens body where
  words := keepsWords_block levels spelled
  plain := ensures_block levels spelled

/-- Written statements between braces are a written block. -/
theorem writtenBlock_of_braced {tokens : List Token} {body : SyntaxTree.Block}
    (spelled : Braced WrittenStatement tokens body) : WrittenBlock tokens body where
  words := keepsWords_braced (keepsWords_statement (fun _ _ inner => inner.words)
    fun _ _ inner => inner.words) spelled
  plain := ensures_braced (ensures_statement (fun _ _ inner => inner.regular)
    fun _ _ inner => inner.plain) spelled

/-- An empty block. -/
theorem extends_writtenBlock : Extends WrittenBlock [] :=
  ⟨[.sample .openCurly, .sample .closeCurly], _, writtenBlock_of_braced (.mk rfl .none rfl)⟩

theorem exists_typeName {kind : Token.Kind} (listed : kind ∈ Token.Kind.typeNames) :
    Exists fun type : TypeName => kind = type.kind := by
  simp only [Token.Kind.typeNames, List.mem_cons, List.not_mem_nil, or_false] at listed
  rcases listed with rfl | rfl | rfl
  · exact ⟨.int, rfl⟩
  · exact ⟨.string, rfl⟩
  · exact ⟨.bool, rfl⟩

theorem admits_parameter {kind : Token.Kind} (listed : kind ∈ Token.Kind.typeNames) :
    Admits Parameter [] kind := by
  rcases exists_typeName listed with ⟨type, rfl⟩
  intro first typed _coherent
  exact .of_spelled [.sample .identifier] (.mk typed rfl) rfl

section Beginnings

variable {expression : List Token -> Expr -> Prop} {block : List Token -> SyntaxTree.Block -> Prop}

theorem admits_condition (possible : Extends expression []) :
    Admits (Condition expression) [] .openParen := by
  rcases possible with ⟨tokens, value, spelled⟩
  intro opening opens _coherent
  exact .of_spelled (tokens ++ [.sample .closeParen]) (.mk opens spelled rfl) rfl

/-- Behind the name in a declaration a value can always be assigned. -/
theorem admits_assignment_declared (possible : Extends expression []) {type : Option TypeName}
    {first name : Token} (declares : first.kind = declarator type)
    (named : name.kind = .identifier) :
    Admits (Statement expression block) [first, name] .assignment := by
  rcases possible with ⟨tokens, value, spelled⟩
  intro token assigns _coherent
  exact .of_spelled (tokens ++ [.sample .semicolon])
    (.declaration declares named (.some assigns spelled) (Token.kind_sample _)) (by simp)

theorem admits_assignment (possible : Extends expression []) {target : Token}
    (named : target.kind = .identifier) :
    Admits (Statement expression block) [target] .assignment := by
  rcases possible with ⟨tokens, value, spelled⟩
  intro token assigns _coherent
  exact .of_spelled (tokens ++ [.sample .semicolon])
    (.assignment named assigns spelled (Token.kind_sample _)) (by simp)

theorem admits_semicolon_called {callee : Token} (named : callee.kind = .identifier)
    {tokens : List Token} {arguments : List Expr} {close : Source.Span}
    (spelled : Parenthesised expression tokens (arguments, close)) :
    Admits (Statement expression block) (callee :: tokens) .semicolon := by
  intro last ends _coherent
  exact .of_spelled [] (.call named spelled ends) (by simp)

theorem admits_openParen_called {callee : Token} (named : callee.kind = .identifier) :
    Admits (Statement expression block) [callee] .openParen := by
  intro opening opens _coherent
  have closes : (Token.sample .closeParen).kind = .closeParen := rfl
  exact .of_append [.sample .closeParen]
    (admits_semicolon_called named (.mk opens .none closes)).extends

/-- Behind a condition stands a block. -/
theorem extends_conditional (possible : Extends block []) {first : Token} {test : List Token}
    {condition : Expr} (begins : first.kind = .ifWord)
    (spelled : Condition expression test condition) :
    Extends (Statement expression block) (first :: test) := by
  rcases possible with ⟨body, value, spelledBody⟩
  exact .of_spelled body (.conditional begins spelled spelledBody) rfl

theorem extends_loop (possible : Extends block []) {first : Token} {test : List Token}
    {condition : Expr} (begins : first.kind = .whileWord)
    (spelled : Condition expression test condition) :
    Extends (Statement expression block) (first :: test) := by
  rcases possible with ⟨body, value, spelledBody⟩
  exact .of_spelled body (.loop begins spelled spelledBody) rfl

theorem admits_semicolon_result {first : Token} (begins : first.kind = .returnWord)
    {tokens : List Token} {value : Option Expr} (spelled : Optional expression tokens value) :
    Admits (Statement expression block) (first :: tokens) .semicolon := by
  intro last ends _coherent
  exact .of_spelled [] (.result begins spelled ends) (by simp)

theorem admits_semicolon_print {first : Token} (begins : first.kind = .printWord)
    {tokens : List Token} {value : Expr} (spelled : Condition expression tokens value) :
    Admits (Statement expression block) (first :: tokens) .semicolon := by
  intro last ends _coherent
  exact .of_spelled [] (.print begins spelled ends) (by simp)

/-- A declaration begins with each of its declarators. -/
theorem admits_declarator (possible : Extends expression []) (type : Option TypeName) :
    Admits (Statement expression block) [] (declarator type) := by
  intro first declares _coherent
  have named : (Token.sample .identifier).kind = .identifier := rfl
  exact .of_append [.sample .identifier]
    (admits_assignment_declared possible declares named).extends

/-- Every kind that is said to begin a statement does. -/
theorem admits_statement (possible : Extends expression []) (possibleBlock : Extends block [])
    {kind : Token.Kind} (listed : kind ∈ Token.Kind.statementStart) :
    Admits (Statement expression block) [] kind := by
  rcases (admits_condition possible).extends with ⟨test, condition, spelled⟩
  simp only [Token.Kind.statementStart, List.mem_cons, List.not_mem_nil, or_false] at listed
  rcases listed with rfl | rfl | rfl | rfl | rfl | rfl | rfl | rfl | rfl
  · exact admits_declarator possible (some .int)
  · exact admits_declarator possible (some .string)
  · exact admits_declarator possible (some .bool)
  · exact admits_declarator possible none
  · exact fun first begins _ => .of_append test (extends_conditional possibleBlock begins spelled)
  · exact fun first begins _ => .of_append test (extends_loop possibleBlock begins spelled)
  · exact fun first begins _ => (admits_semicolon_result begins .none).extends
  · exact fun first begins _ => .of_append test (admits_semicolon_print begins spelled).extends
  · exact fun target named _ => (admits_assignment possible named).extends

/-- Behind the name of a function stands its list of parameters. -/
theorem fits_parameters (possible : Extends block []) {first name : Token}
    (begins : first.kind = .functionWord) (named : name.kind = .identifier) :
    FitsBehind (Parenthesised Parameter) (Function block) [first, name] := by
  rintro listed ⟨parameters, close⟩ spelled
  rcases possible with ⟨body, value, spelledBody⟩
  exact .of_spelled body (.mk begins named spelled spelledBody) (by simp)

theorem admits_functionName (possible : Extends block []) {first : Token}
    (begins : first.kind = .functionWord) : Admits (Function block) [first] .identifier := by
  intro name named _coherent
  have noneListed : Parenthesised Parameter [.sample .openParen, .sample .closeParen] _ :=
    .mk rfl .none rfl
  exact .of_append _ (fits_parameters possible begins named noneListed)

theorem admits_function (possible : Extends block []) :
    Admits (Function block) [] .functionWord :=
  fun _ begins _ => (admits_functionName possible begins).extends

end Beginnings

end Phrase

namespace Reading
namespace Statement

open Phrase
open Reader
open SyntaxTree (Expr Stmt TypeName)

theorem explains_parameter : Explains Phrase.Parameter [] parameter := by
  intro start closed error stop run
  rw [parameter, run_current_bind] at run
  rcases run_bind_eq_error_iff.mp run with first | ⟨type, middle, first, second⟩
  · rw [typeName, run_kind_bind] at first
    split at first
    next => cases first
    next => exact explains_fail (List.cons_ne_nil _ _) (fun _ => admits_parameter) closed first
  · rcases passes_of_typeName closed first with ⟨passesType, typed⟩
    have named : Admits Phrase.Parameter [start.current] .identifier :=
      fun name named _ => .of_spelled [] (.mk typed named) rfl
    have explains := explains_expect (by decide) named fun name _ => explains_pure
      (SyntaxTree.Parameter.mk type name.text (start.current.span.through name.span))
    exact (explains (passesType.closed closed)).after passesType second

theorem accounts_parameter : AccountsFor parameter Phrase.Parameter where
  sound := sound_parameter
  explains := explains_parameter
  possible := (admits_parameter (show .intWord ∈ Token.Kind.typeNames by decide)).extends

section Forms

variable {expression : Reader Expr} {block : Reader SyntaxTree.Block}
  {phrase : List Token -> Expr -> Prop} {blockPhrase : List Token -> SyntaxTree.Block -> Prop}

theorem explains_condition (accounts : AccountsFor expression phrase) :
    Explains (Condition phrase) [] (condition expression) := by
  apply explains_expect (by decide) (admits_condition accounts.possible)
  intro opening opens
  apply explains_followed accounts.sound accounts.explains (by decide)
  intro tokens value spelled close closes _coherent
  exact .of_spelled [] (.mk opens spelled closes) (by simp)

theorem explains_optionalValue (explains : Explains phrase [] expression) :
    Explains (Optional phrase) [] (optionalValue expression) := by
  apply explains_kind
  intro kind
  split
  next => exact explains_pure none
  next =>
    refine (explains.within ?_).map _
    exact fun tokens value spelled => .of_spelled [] (.some spelled) (by simp)

/-- A semicolon in the place of a value is expected only behind a type. -/
theorem explains_initializer (explains : Explains phrase [] expression)
    {whole : List Token -> Stmt -> Prop} {before : List Token} (type : Option TypeName)
    (assigns : Admits whole before .assignment)
    (ends : forall ⦃tokens : List Token⦄ ⦃initial : Option Expr⦄,
      Initial phrase type tokens initial -> Admits whole (before ++ tokens) .semicolon) :
    Explains whole before (initializer expression type) := by
  have endsTyped (typed : type.isSome) : Admits whole before .semicolon := by
    simpa using ends (.none typed)
  intro start closed error stop run
  rw [initializer, run_kind_bind] at run
  split at run
  next isAssignment =>
    refine explainsAt_advance closed (by rw [isAssignment]; decide) ?_ run
    refine (explains.within ?_).map _
    intro tokens value spelled
    simpa using (ends (.some isAssignment spelled)).extends
  next =>
    split at run
    next => cases run
    next => exact explains_fail (List.cons_ne_nil _ _) (by simpa using assigns) closed run
  next =>
    split at run
    next typed =>
      refine explains_fail (List.cons_ne_nil _ _) ?_ closed run
      simpa using ⟨assigns, endsTyped typed⟩
    next => exact explains_fail (List.cons_ne_nil _ _) (by simpa using assigns) closed run

theorem explainsAt_declaration (accounts : AccountsFor expression phrase) {start : Cursor}
    (closed : start.Closed) (proper : start.kind ≠ .eof)
    (declares : start.kind = declarator (TypeName.ofKind? start.kind)) :
    ExplainsAt start (Phrase.Statement phrase blockPhrase) [] (declaration expression) := by
  have ends {name : Token} (named : name.kind = .identifier) {tokens : List Token}
      {initial : Option Expr}
      (spelled : Initial phrase (TypeName.ofKind? start.kind) tokens initial) :
      Admits (Phrase.Statement phrase blockPhrase) (start.current :: name :: tokens)
        .semicolon := by
    intro last isSemicolon _coherent
    exact .of_spelled [] (.declaration declares named spelled isSemicolon) (by simp)
  apply explainsAt_advance closed proper
  apply explains_expect (by decide)
  · exact fun name named _ =>
      (admits_assignment_declared accounts.possible declares named).extends
  intro name named
  apply explains_bind (sound_initializer accounts.sound _)
  · exact explains_initializer accounts.explains _
      (admits_assignment_declared accounts.possible declares named) fun _ _ => ends named
  · intro tokens initial spelled
    apply explains_expect (by decide) (ends named spelled)
    exact fun last _isSemicolon => explains_pure _

/-- The token behind a lone name is blamed once the name has been passed. -/
theorem explainsAt_assignmentOrCall (accounts : AccountsFor expression phrase) {start : Cursor}
    (closed : start.Closed) (named : start.kind = .identifier) :
    ExplainsAt start (Phrase.Statement phrase blockPhrase) [] (assignmentOrCall expression) := by
  have proper : start.kind ≠ .eof := by
    rw [named]
    decide
  have passesName := closed.passes_advance proper
  intro error stop run
  rw [assignmentOrCall, run_nextKind_bind, passesName.nextKind_head] at run
  split at run
  next assigns =>
    have closedNext := passesName.closed closed
    rw [assignment, run_advance_bind] at run
    refine (explainsAt_advance closedNext (by rw [assigns]; decide) ?_).after passesName run
    apply explains_followed accounts.sound accounts.explains (by decide)
    intro tokens value spelled last ends _coherent
    exact .of_spelled [] (.assignment named assigns spelled ends) (by simp)
  next =>
    refine explainsAt_advance closed proper ?_ run
    apply explains_bind (sound_parenthesised accounts.sound)
    · apply (explains_parenthesised accounts).within
      exact fun tokens value spelled => (admits_semicolon_called named spelled).extends
    · rintro tokens ⟨arguments, close⟩ spelled
      apply explains_expect (by decide) (admits_semicolon_called named spelled)
      exact fun last _ends => explains_pure _
  next =>
    refine explainsAt_advance closed proper ?_ run
    apply explains_fail (List.cons_ne_nil _ _)
    simpa using ⟨admits_assignment accounts.possible named, admits_openParen_called named⟩

theorem explainsAt_conditional (accounts : AccountsFor expression phrase)
    (accountsBlock : AccountsFor block blockPhrase) {start : Cursor} (closed : start.Closed)
    (begins : start.kind = .ifWord) :
    ExplainsAt start (Phrase.Statement phrase blockPhrase) [] (conditional expression block) := by
  apply explainsAt_advance closed (by rw [begins]; decide)
  apply explains_bind (sound_condition accounts.sound)
  · apply (explains_condition accounts).within
    exact fun test value spelled => extends_conditional accountsBlock.possible begins spelled
  intro test value spelledTest
  apply explains_bind accountsBlock.sound
  · apply accountsBlock.explains.within
    exact fun body consequent spelledBody =>
      .of_spelled [] (.conditional begins spelledTest spelledBody) (by simp)
  intro body consequent spelledBody start closed error stop run
  rw [run_kind_bind] at run
  split at run
  next turns =>
    refine explainsAt_advance closed (by rw [turns]; decide) ?_ run
    refine (accountsBlock.explains.within ?_).map _
    exact fun other alternative spelledOther =>
      .of_spelled [] (.alternative begins spelledTest spelledBody turns spelledOther) (by simp)
  next => cases run

theorem explainsAt_loop (accounts : AccountsFor expression phrase)
    (accountsBlock : AccountsFor block blockPhrase) {start : Cursor} (closed : start.Closed)
    (begins : start.kind = .whileWord) :
    ExplainsAt start (Phrase.Statement phrase blockPhrase) [] (loop expression block) := by
  apply explainsAt_advance closed (by rw [begins]; decide)
  apply explains_bind (sound_condition accounts.sound)
  · apply (explains_condition accounts).within
    exact fun test value spelled => extends_loop accountsBlock.possible begins spelled
  intro test value spelledTest
  refine (accountsBlock.explains.within ?_).map _
  exact fun tokens body spelledBody =>
    .of_spelled [] (.loop begins spelledTest spelledBody) (by simp)

theorem explainsAt_result (accounts : AccountsFor expression phrase) {start : Cursor}
    (closed : start.Closed) (begins : start.kind = .returnWord) :
    ExplainsAt start (Phrase.Statement phrase blockPhrase) [] (result expression) := by
  apply explainsAt_advance closed (by rw [begins]; decide)
  apply explains_followed (sound_optionalValue accounts.sound)
    (explains_optionalValue accounts.explains) (by decide)
  exact fun tokens value spelled => admits_semicolon_result begins spelled

theorem explainsAt_print (accounts : AccountsFor expression phrase) {start : Cursor}
    (closed : start.Closed) (begins : start.kind = .printWord) :
    ExplainsAt start (Phrase.Statement phrase blockPhrase) [] (print expression) := by
  apply explainsAt_advance closed (by rw [begins]; decide)
  apply explains_followed (sound_condition accounts.sound) (explains_condition accounts)
    (by decide)
  exact fun tokens value spelled => admits_semicolon_print begins spelled

theorem explainsAt_function (accountsBlock : AccountsFor block blockPhrase) {start : Cursor}
    (closed : start.Closed) (begins : start.kind = .functionWord) :
    ExplainsAt start (Function blockPhrase) [] (function block) := by
  apply explainsAt_advance closed (by rw [begins]; decide)
  apply explains_expect (by decide) (admits_functionName accountsBlock.possible begins)
  intro name named
  apply explains_bind (sound_parenthesised sound_parameter)
    ((explains_parenthesised accounts_parameter).within
      (fits_parameters accountsBlock.possible begins named))
  rintro listed ⟨parameters, close⟩ spelledListed
  refine (accountsBlock.explains.within ?_).map _
  exact fun tokens body spelledBody =>
    .of_spelled [] (.mk begins named spelledListed spelledBody) (by simp)

/-- Where a statement may stand, its errors are those of the announced form; where none
is announced, all that is listed has to be admitted. -/
theorem explains_announced (accounts : AccountsFor expression phrase)
    (accountsBlock : AccountsFor block blockPhrase) {Item : Type}
    {whole : List Token -> Item -> Prop} {before : List Token} {expected : List Token.Kind}
    (fits : FitsBehind (Phrase.Statement phrase blockPhrase) whole before)
    (nonempty : expected ≠ [])
    (admits : forall kind, kind ∈ expected -> Admits whole before kind) :
    Explains whole before (announced .standard expected expression block) := by
  intro start closed error stop run
  rw [announced, run_kind_bind] at run
  split at run
  next chosen announced =>
    have announces := announces_of_statement announced
    have explainsForm : ExplainsAt start (Phrase.Statement phrase blockPhrase) []
        (form expression block chosen) := by
      cases chosen with
      | declaration =>
          exact explainsAt_declaration accounts closed (kind_ne_eof_of_statement announced)
            announces
      | assignmentOrCall => exact explainsAt_assignmentOrCall accounts closed announces
      | conditional => exact explainsAt_conditional accounts accountsBlock closed announces
      | loop => exact explainsAt_loop accounts accountsBlock closed announces
      | function => exact False.elim announces
      | result => exact explainsAt_result accounts closed announces
      | print => exact explainsAt_print accounts closed announces
    rcases explainsForm run with ⟨passed, passes, explained⟩
    exact ⟨passed, passes, explained.within fits⟩
  next => exact explains_fail nonempty admits closed run

end Forms

/-- Statements up to a brace.  A brace may close the block before each of them. -/
theorem explains_braced {item : List Token -> Stmt -> Prop} {body : Reader (List Stmt)}
    (sound : body.Sound (Repeated item))
    (explains : forall ⦃opening : Token⦄, opening.kind = .openCurly ->
      Explains (Braced item) [opening] body) :
    Explains (Braced item) [] (braced body) := by
  have closes {opening : Token} (opens : opening.kind = .openCurly) {tokens : List Token}
      {statements : List Stmt} (spelled : Repeated item tokens statements) :
      Admits (Braced item) (opening :: tokens) .closeCurly :=
    fun close closes _ => .of_spelled [] (.mk opens spelled closes) (by simp)
  apply explains_expect (by decide)
  · exact fun opening opens _ => (closes opens .none).extends
  intro opening opens
  apply explains_bind sound (explains opens)
  intro tokens statements spelled
  apply explains_expect (by decide) (closes opens spelled)
  exact fun close _ => explains_pure _

theorem sound_writtenBlock (levels : Nat) : (block .standard levels).Sound WrittenBlock := by
  intro start stop body closed run
  rcases sound_block levels closed run with ⟨passed, passes, spelled⟩
  exact ⟨passed, passes, writtenBlock_of_block spelled⟩

/-- A statement behind others in a block.  Where there is none, the block may be closed. -/
theorem explains_inBlock {levels : Nat}
    (accountsBlock : AccountsFor (block .standard levels) WrittenBlock) {opening : Token}
    {tokens : List Token} {statements : List Stmt} (opens : opening.kind = .openCurly)
    (spelled : Repeated WrittenStatement tokens statements) :
    Explains (Braced WrittenStatement) ([opening] ++ tokens)
      (inBlock .standard (Expression.whole .standard levels) (block .standard levels)) := by
  have closes : Admits (Braced WrittenStatement) ([opening] ++ tokens) .closeCurly :=
    fun close closes _ => .of_spelled [] (.mk opens spelled closes) (by simp)
  have fits : FitsBehind WrittenStatement (Braced WrittenStatement) ([opening] ++ tokens) := by
    intro item value spelledItem
    have closed : (Token.sample .closeCurly).kind = .closeCurly := rfl
    exact .of_spelled [.sample .closeCurly] (.mk opens (spelled.snoc spelledItem) closed)
      (by simp)
  apply explains_kind
  intro kind
  split
  next =>
    apply explains_fail (List.cons_ne_nil _ _)
    intro kind listed
    cases List.mem_singleton.mp listed
    exact closes
  next =>
    have accounts := Expression.accounts_read levels .loosest
    apply explains_announced accounts accountsBlock fits (by decide)
    intro kind listed
    rcases List.mem_append.mp listed with isStart | isBrace
    · have admits := admits_statement accounts.possible accountsBlock.possible isStart
      simpa using admits.within fits
    · cases List.mem_singleton.mp isBrace
      exact closes

/-- Every error in a block is explained, whatever the number of levels. -/
theorem accounts_block (levels : Nat) : AccountsFor (block .standard levels) WrittenBlock := by
  have isWritten : FitsBehind (Braced WrittenStatement) WrittenBlock [] :=
    fun _ _ spelled => .of_spelled [] (writtenBlock_of_braced spelled) (by simp)
  induction levels with
  | zero =>
      -- The brace is still passed; the token behind it is blamed for the depth.
      have never : Sound (fail .nestingTooDeep []) (Repeated WrittenStatement) := by
        intro start stop values _closed run
        cases run
      refine ⟨sound_writtenBlock 0, ?_, extends_writtenBlock⟩
      apply Explains.within (explains_braced never ?_) isWritten
      exact fun opening opens start closed => explainsAt_fail explained_of_nesting
  | succ levels inductionHypothesis =>
      have sound := sound_inBlock (Expression.sound_written levels .loosest)
        inductionHypothesis.sound
      refine ⟨sound_writtenBlock (levels + 1), ?_, extends_writtenBlock⟩
      apply Explains.within (explains_braced (sound_statements sound) ?_) isWritten
      intro opening opens start closed error stop run
      rw [statements, run_tokens_bind] at run
      refine explains_untilKind .closeCurly sound start.tokens ?_ closed run
      exact fun tokens values spelled => explains_inBlock inductionHypothesis opens spelled

theorem sound_writtenTop (levels : Nat) : (atTop .standard levels).Sound WrittenTop := by
  intro start stop statement closed run
  rw [atTop, run_kind_bind] at run
  split at run
  next begins =>
    rcases function_of_function (sound_writtenBlock levels) closed begins run with
      ⟨passed, passes, spelled⟩
    exact ⟨passed, passes, .function spelled⟩
  next =>
    rcases sound_announced _ (Expression.sound_written levels .loosest)
      (sound_writtenBlock levels) closed run with ⟨passed, passes, spelled⟩
    exact ⟨passed, passes, .statement spelled⟩

/-- Every error in a statement at the top is explained by the statements from there on. -/
theorem explains_atTop (levels : Nat) {before : List Token} {statements : List Stmt}
    (spelled : Repeated WrittenTop before statements) :
    Explains (Repeated WrittenTop) before (atTop .standard levels) := by
  have accounts := Expression.accounts_read levels .loosest
  have accountsBlock := accounts_block levels
  have fits : FitsBehind WrittenTop (Repeated WrittenTop) before :=
    fun tokens value spelledTop => .of_spelled [] (spelled.snoc spelledTop) (by simp)
  have fitsStatement : FitsBehind WrittenStatement (Repeated WrittenTop) before :=
    fun tokens value spelledStatement => fits (.statement spelledStatement)
  have fitsFunction : FitsBehind (Function WrittenBlock) (Repeated WrittenTop) before :=
    fun tokens value spelledFunction => fits (.function spelledFunction)
  intro start closed error stop run
  rw [atTop, run_kind_bind] at run
  split at run
  next begins =>
    rcases explainsAt_function accountsBlock closed begins run with ⟨passed, passes, explained⟩
    exact ⟨passed, passes, explained.within fitsFunction⟩
  next =>
    refine explains_announced accounts accountsBlock fitsStatement (List.cons_ne_nil _ _) ?_
      closed run
    intro kind listed
    rcases List.mem_cons.mp listed with rfl | isStart
    · simpa using (admits_function accountsBlock.possible).within fitsFunction
    · have admits := admits_statement accounts.possible accountsBlock.possible isStart
      simpa using admits.within fitsStatement

end Statement
end Reading
end ToyFrontend
