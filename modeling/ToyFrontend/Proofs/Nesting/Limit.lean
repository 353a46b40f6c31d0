import ToyFrontend.Proofs.Completeness
import ToyFrontend.Proofs.Nesting.Statement
import ToyFrontend.Proofs.Reading.Locality

namespace ToyFrontend

/-!
# The bound on nesting is exact

No accepted program has a level beyond the bound, and a program that has one
fails at the first token of the leftmost expression that goes beyond it.  Both
follow from the verdict on programs: a level that is too deep lies beyond others,
one of them is the first beyond the bound, and an expression has it.

The failure that is written for blocks is never met.  `blockOr` leaves open what
is read in a block for which no level is left, and no run depends on it.
-/

namespace Reading

open SyntaxTree (Expr Stmt Block Program nestingLimit)

/-! ## Blocks without a level -/

namespace Statement

/-- A block, where `beyond` reads the body of one that has no level left. -/
def blockOr (beyond : Reader (List Stmt)) (grammar : Grammar) : Nat -> Reader Block
  | 0 => braced beyond
  | levels + 1 =>
      braced (statements
        (inBlock grammar (Expression.whole grammar levels) (blockOr beyond grammar levels)))

/-- A statement at the top of a program with such blocks. -/
def atTopOr (beyond : Reader (List Stmt)) (grammar : Grammar) (levels : Nat) : Reader Stmt := do
  if (← Reader.kind) = .functionWord then
    function (blockOr beyond grammar levels)
  else
    announced grammar (.functionWord :: Token.Kind.statementStart)
      (Expression.whole grammar levels) (blockOr beyond grammar levels)

/-- The blocks that are read are those that fail beyond the bound. -/
theorem blockOr_fail (grammar : Grammar) (levels : Nat) :
    blockOr (Reader.fail .nestingTooDeep []) grammar levels = block grammar levels := by
  induction levels with
  | zero => rfl
  | succ levels inductionHypothesis => rw [blockOr, inductionHypothesis, block]

/-- Without a level there is no condition, so nothing is read behind it. -/
theorem condition_bind_eq_of_no_level {Next : Type} (first second : Expr -> Reader Next) :
    condition (Expression.whole .standard 0) >>= first =
      condition (Expression.whole .standard 0) >>= second := by
  funext start
  apply Reader.run_bind_congr
  intro value stop run
  rcases Reader.run_bind_eq_ok_iff.mp run with ⟨opening, middle, _, run⟩
  rcases Reader.run_bind_eq_ok_iff.mp run with ⟨value, behind, impossible, _⟩
  cases impossible

theorem form_eq_of_no_level {kind : Token.Kind} {chosen : StatementForm}
    (announces : Grammar.standard.statement kind = some chosen) (first second : Reader Block) :
    form (Expression.whole .standard 0) first chosen =
      form (Expression.whole .standard 0) second chosen := by
  cases chosen with
  | conditional =>
      exact congrArg (Reader.advance >>= ·) (funext fun _ => condition_bind_eq_of_no_level _ _)
  | loop =>
      exact congrArg (Reader.advance >>= ·) (funext fun _ => condition_bind_eq_of_no_level _ _)
  | function => exact False.elim (announces_of_statement announces)
  | _ => rfl

/-- Without a level it does not matter how the blocks of a statement are read. -/
theorem inBlock_eq_of_no_level (first second : Reader Block) :
    inBlock .standard (Expression.whole .standard 0) first =
      inBlock .standard (Expression.whole .standard 0) second := by
  have sameAnnounced : announced .standard (Token.Kind.statementStart ++ [.closeCurly])
      (Expression.whole .standard 0) first =
        announced .standard (Token.Kind.statementStart ++ [.closeCurly])
          (Expression.whole .standard 0) second := by
    funext start
    apply Reader.run_bind_congr
    intro kind middle _
    split
    next chosen announces => rw [form_eq_of_no_level announces first second]
    next => rfl
  rw [inBlock, inBlock, sameAnnounced]

theorem blockOr_eq (levels : Nat) (first second : Reader (List Stmt)) :
    blockOr first .standard (levels + 1) = blockOr second .standard (levels + 1) := by
  induction levels with
  | zero => exact congrArg (fun body => braced (statements body)) (inBlock_eq_of_no_level _ _)
  | succ levels inductionHypothesis =>
      rw [blockOr, inductionHypothesis]
      rfl

theorem atTopOr_eq_atTop (levels : Nat) (beyond : Reader (List Stmt)) :
    atTopOr beyond .standard (levels + 1) = atTop .standard (levels + 1) := by
  rw [atTopOr, blockOr_eq levels beyond (Reader.fail .nestingTooDeep []), blockOr_fail, atTop]

end Statement

/-- The statements of a program, where `beyond` reads the body of a block for which no
level is left. -/
def programOr (beyond : Reader (List Stmt)) : Reader (List Stmt) := do
  Reader.untilKind .eof (Statement.atTopOr beyond .standard nestingLimit) (← Reader.tokens)

theorem programOr_eq_program (beyond : Reader (List Stmt)) : programOr beyond = program := by
  rw [programOr, nestingLimit, Statement.atTopOr_eq_atTop 255 beyond]
  rfl

/-! ## Programs beyond the bound -/

/-- An expression beyond the bound ends the reading of a program at its first token. -/
theorem parseTokens_of_beyond {wider : Nat} {tokens : List Token} {body : List Stmt}
    (spelled : Phrase.Repeated (Phrase.Top wider) (Token.beforeEnd tokens) body)
    (beyond : some (nestingLimit + 1) ∈ Stmt.listEntries 0 body) :
    Exists fun place => Exists fun token =>
      (Stmt.listEntries 0 body).idxOf? (some (nestingLimit + 1)) = some place ∧
        tokens[place]? = some token ∧
        parseTokens tokens = .error (SyntaxError.blame .nestingTooDeep [] token) := by
  have goesOn : forall kind, Statement.OpensTop kind -> kind ≠ .elseWord := by
    rintro kind (impossible | impossible) rfl <;> cases impossible
  have neverLast : ¬ Statement.OpensTop .eof := by
    rintro (impossible | impossible) <;> cases impossible
  rw [Stmt.listEntries_eq_flatten] at beyond ⊢
  rcases Reader.verdict_repeated (Statement.decides_atTop 255 wider rfl)
    (Statement.complete_atTop nestingLimit) (Statement.begins_top wider) goesOn neverLast spelled
    with ⟨_, quiet⟩ | ⟨before, token, leftmost, run⟩
  · exact absurd beyond quiet.unmet
  · rcases leftmost.idxOf?_eq with ⟨first, found⟩
    have within := (List.getElem?_eq_some_iff.mp found).1
    have split : Token.beforeEnd tokens ++ _ = tokens := List.takeWhile_append_dropWhile
    refine ⟨before.length, token, first, ?_, ?_⟩
    · rw [← split, List.getElem?_append_left within, found]
    · rcases (Cursor.closed_ofTokens tokens).passes_beforeEnd with ⟨stop, passes, _⟩
      rw [Cursor.beforeEnd_ofTokens] at passes
      rcases leftmost.exists_passes passes with ⟨middle, passesBefore, here⟩
      apply parseTokens_eq_error_iff.mpr
      rw [program, Reader.run_tokens_bind]
      exact ⟨middle, run passesBefore here (Nat.le_refl _)⟩

end Reading

namespace SyntaxTree

theorem Program.WellFormed.plain {program : Program} (wellFormed : program.WellFormed)
    {statement : Stmt} (listed : statement ∈ program.body) :
    statement.Regular ∧ forall inner, inner ∈ statement.nested -> Phrase.Plain inner := by
  have regular {inner : Stmt} (place : inner = statement ∨ inner ∈ statement.nested) :
      inner.Regular :=
    wellFormed.regular inner (Stmt.mem_ofList.mpr ⟨statement, listed, place⟩)
  refine ⟨regular (.inl rfl), ?_⟩
  intro inner nested
  exact ⟨regular (.inr nested), wellFormed.flat statement listed inner nested⟩

/-- A well-formed program is spelled by its words, with levels enough for all its parts. -/
theorem Program.WellFormed.exists_repeated {program : Program} (wellFormed : program.WellFormed)
    {tokens : List Token} (spelled : tokens.map Token.word = program.words) :
    Exists fun wider => Exists fun reads => Phrase.Repeated (Phrase.Top wider) tokens reads ∧
      Stmt.listWithoutSpans reads = Stmt.listWithoutSpans program.body := by
  refine ⟨program.levels.max?.getD 0, Phrase.covers_repeated ?_ spelled⟩
  intro statement listed
  rcases wellFormed.plain listed with ⟨regular, plain⟩
  apply Phrase.covers_top regular plain
  intro level inside
  have member : level ∈ program.levels := Stmt.mem_listLevels.mpr ⟨statement, listed, inside⟩
  have bounded := List.le_max?_getD_of_mem (k := 0) member
  omega

end SyntaxTree

/-! ## The bound -/

open SyntaxTree (Stmt Program nestingLimit)

theorem levels_le_of_parseTokens {tokens : List Token} {program : Program}
    (accepted : parseTokens tokens = .ok program) {level : Nat} (inside : level ∈ program.levels) :
    level <= nestingLimit := by
  apply Nat.le_of_not_lt
  intro beyond
  have spelled := (Reading.parseTokens_eq_ok_iff.mp accepted).1
  have plain := Phrase.ensures_repeated (Phrase.ensures_top nestingLimit) spelled
  have entered := program.mem_entries_of_mem_levels plain inside (by decide) beyond
  rcases Reading.parseTokens_of_beyond spelled entered with ⟨_, _, _, _, failed⟩
  cases accepted.symm.trans failed

theorem parseTokens_of_deep {tokens : List Token} {program : Program}
    (wellFormed : program.WellFormed)
    (spelled : (Token.beforeEnd tokens).map Token.word = program.words) {level : Nat}
    (inside : level ∈ program.levels) (beyond : nestingLimit < level) :
    Exists fun place => Exists fun token =>
      program.entries.idxOf? (some (nestingLimit + 1)) = some place ∧
        tokens[place]? = some token ∧
        parseTokens tokens = .error (SyntaxError.blame .nestingTooDeep [] token) := by
  rcases wellFormed.exists_repeated spelled with ⟨wider, reads, spelledReads, same⟩
  have sameEntries : Stmt.listEntries 0 reads = program.entries :=
    @Program.entries_eq_of_withoutSpans ⟨reads, program.span⟩ program (by
      rw [Program.withoutSpans, Program.withoutSpans, same])
  have entered := program.mem_entries_of_mem_levels (fun _ => wellFormed.plain) inside (by decide)
    beyond
  rw [← sameEntries] at entered ⊢
  exact Reading.parseTokens_of_beyond spelledReads entered

/-- The bound on nesting is exact.  No accepted program has a level beyond it.  Tokens
with the words of a well-formed program that has one fail at the first token of the
leftmost expression of the first level beyond it, which is found among the entries as
there is one for each word.  And no run is ended by a block for which no level is left,
since it does not matter what is done there. -/
theorem nestingLimit_is_exact :
    (forall {tokens : List Token} {program : Program}, parseTokens tokens = .ok program ->
      forall {level : Nat}, level ∈ program.levels -> level <= nestingLimit) ∧
    (forall program : Program, program.entries.length = program.words.length ∧
      forall {tokens : List Token}, program.WellFormed ->
        (Token.beforeEnd tokens).map Token.word = program.words ->
        forall {level : Nat}, level ∈ program.levels -> nestingLimit < level ->
        Exists fun place => Exists fun token =>
          program.entries.idxOf? (some (nestingLimit + 1)) = some place ∧
            tokens[place]? = some token ∧
            parseTokens tokens = .error
              { cause := .nestingTooDeep, found := token.kind, text := token.text, expected := [],
                position := token.span.start }) ∧
    forall (beyond : Reading.Reader (List Stmt)) (tokens : List Token) (error : SyntaxError),
      parseTokens tokens = .error error ↔
        Exists fun stop =>
          (Reading.programOr beyond).run (.ofTokens tokens) = .error error stop := by
  refine ⟨levels_le_of_parseTokens,
    fun program => ⟨program.length_entries, parseTokens_of_deep⟩, ?_⟩
  intro beyond tokens error
  rw [Reading.programOr_eq_program]
  exact Reading.parseTokens_eq_error_iff

/-- A name between so many pairs of parentheses. -/
def grouped : Nat -> SyntaxTree.Expr
  | 0 => .identifier "y" nowhere
  | pairs + 1 => .grouping (grouped pairs) nowhere

/-- The program `while (x) { print(y); }` with so many more parentheses around `y`, which
has the second level if there are none. -/
def loopOverGrouped (pairs : Nat) : Program where
  body := [.loop (.identifier "x" nowhere) (.mk [.print (grouped pairs) nowhere] nowhere) nowhere]
  span := nowhere

/-- The words of this program, in order. -/
def loopOverGroupedWords (pairs : Nat) : List Word :=
  [.plain .whileWord, .plain .openParen, .named "x", .plain .closeParen, .plain .openCurly,
    .plain .printWord, .plain .openParen] ++
  (List.replicate pairs (.plain .openParen) ++
    .named "y" :: List.replicate pairs (.plain .closeParen)) ++
  [.plain .closeParen, .plain .semicolon, .plain .closeCurly]

theorem words_grouped (pairs : Nat) : (grouped pairs).words =
    List.replicate pairs (.plain .openParen) ++
      .named "y" :: List.replicate pairs (.plain .closeParen) := by
  induction pairs with
  | zero => rfl
  | succ pairs inductionHypothesis =>
      rw [grouped, SyntaxTree.Expr.words, inductionHypothesis, Word.parenthesised,
        List.replicate_succ, List.replicate_succ']
      simp

theorem words_loopOverGrouped (pairs : Nat) :
    (loopOverGrouped pairs).words = loopOverGroupedWords pairs := by
  simp [loopOverGrouped, loopOverGroupedWords, Program.words, Stmt.listWords, Stmt.words,
    Stmt.blockWords, SyntaxTree.Expr.words, Word.parenthesised, words_grouped]

theorem nestingLimit_is_exact_around_loopOverGrouped :
    (Exists fun program =>
      parseTokens ((loopOverGroupedWords 2).map Word.token) = .ok program ∧
        4 ∈ program.levels ∧ 4 <= nestingLimit) ∧
    (loopOverGrouped 255).WellFormed ∧ 257 ∈ (loopOverGrouped 255).levels ∧
      Exists fun place => Exists fun token =>
        (loopOverGrouped 255).entries.idxOf? (some 257) = some place ∧
          ((loopOverGroupedWords 255).map Word.token)[place]? = some token ∧
          parseTokens ((loopOverGroupedWords 255).map Word.token) = .error
            { cause := .nestingTooDeep, found := token.kind, text := token.text, expected := [],
              position := token.span.start } := by
  have shallow : Exists fun program =>
      parseTokens ((loopOverGroupedWords 2).map Word.token) = .ok program ∧
        4 ∈ program.levels := by
    refine ⟨_, rfl, ?_⟩
    decide
  have wellFormed : (loopOverGrouped 255).WellFormed := by decide +kernel
  have inside : 257 ∈ (loopOverGrouped 255).levels := by decide +kernel
  have spelled : (Token.beforeEnd ((loopOverGroupedWords 255).map Word.token)).map Token.word =
      (loopOverGrouped 255).words := by
    rw [words_loopOverGrouped]
    decide +kernel
  rcases shallow with ⟨program, accepted, reached⟩
  refine ⟨⟨program, accepted, reached, nestingLimit_is_exact.1 accepted reached⟩,
    wellFormed, inside, ?_⟩
  exact (nestingLimit_is_exact.2.1 _).2 wellFormed spelled inside (by decide)

end ToyFrontend
