import ToyFrontend.Proofs.Shape

namespace ToyFrontend
namespace SyntaxTree

/-!
# Where expressions begin

Levels are counted in a tree, but an error names a token.  `entries` brings both
together: it has one entry for each word of a tree, and the entry is the level of
the expressions that begin at this word, if any do.  One level is enough for a
word, because only a left operand begins where another expression does, and it
has the same level.

The blocks of a tree have levels as well, but none of their own: a block of a
loop or of a conditional has the level of the condition before it.  A level that
the tree reaches is therefore found among the entries, and so is every level on
the way to it.
-/

/-- For each word, the level of the expressions that begin there, if any do. -/
abbrev Entries : Type :=
  List (Option Nat)

namespace Entries

/-- The entries of words at which no expression begins. -/
def silent (words : List Word) : Entries :=
  words.map fun _ => none

/-- Entries between a pair of parentheses. -/
def parenthesised (entries : Entries) : Entries :=
  none :: (entries ++ [none])

/-- Several lists of entries with a comma between each two. -/
def separated (lists : List Entries) : Entries :=
  [none].intercalate lists

theorem separated_cons {first : Entries} {rest : List Entries} (nonempty : rest ≠ []) :
    separated (first :: rest) = first ++ none :: separated rest := by
  rw [separated, List.intercalate_cons_of_ne_nil nonempty, List.append_assoc]
  rfl

theorem mem_separated {level : Nat} {lists : List Entries} :
    some level ∈ separated lists ↔
      Exists fun entries => entries ∈ lists ∧ some level ∈ entries := by
  induction lists with
  | nil => simp [separated]
  | cons first rest inductionHypothesis =>
      cases rest with
      | nil => simp [separated]
      | cons second rest =>
          rw [separated_cons (List.cons_ne_nil _ _)]
          simp [inductionHypothesis]

end Entries

namespace Expr

mutual

/-- The entries of an expression at a level. -/
def entries (level : Nat) : Expr -> Entries
  | .intLiteral _ _ => [some level]
  | .stringLiteral _ _ => [some level]
  | .boolLiteral _ _ => [some level]
  | .identifier _ _ => [some level]
  | .binary left _ right _ => left.entries level ++ none :: right.entries (level + 1)
  | .unary _ operand _ => some level :: operand.entries level
  | .call _ arguments _ =>
      some level :: Entries.parenthesised (Entries.separated (entryLists (level + 1) arguments))
  | .grouping inner _ => some level :: (inner.entries (level + 1) ++ [none])

/-- The entries of several expressions at the same level, each list apart. -/
def entryLists (level : Nat) : List Expr -> List Entries
  | [] => []
  | first :: rest => first.entries level :: entryLists level rest

end

theorem entryLists_eq_map (level : Nat) (expressions : List Expr) :
    entryLists level expressions = expressions.map (entries level) := by
  induction expressions with
  | nil => simp [entryLists]
  | cons first rest inductionHypothesis => simp [entryLists, inductionHypothesis]

/-- The entries of an expression that is a statement.  The call itself is part of the
statement and has no level. -/
def statementEntries (level : Nat) : Expr -> Entries
  | .call _ arguments _ =>
      none :: Entries.parenthesised (Entries.separated (entryLists level arguments))
  | other => other.entries level

/-- An expression begins with its own entry. -/
theorem exists_entries_cons (expression : Expr) (level : Nat) :
    Exists fun rest => expression.entries level = some level :: rest := by
  induction expression using Expr.induction with
  | binary left operator right span ofLeft _ =>
      rcases ofLeft with ⟨rest, shape⟩
      rw [entries, shape]
      exact ⟨_, rfl⟩
  | _ =>
      rw [entries]
      exact ⟨_, rfl⟩

theorem entries_withoutSpans (expression : Expr) (level : Nat) :
    expression.withoutSpans.entries level = expression.entries level := by
  induction expression using Expr.induction generalizing level with
  | binary left operator right span ofLeft ofRight =>
      rw [withoutSpans, entries, entries, ofLeft, ofRight]
  | unary operator operand span ofOperand => rw [withoutSpans, entries, entries, ofOperand]
  | call callee arguments span ofArguments =>
      have same : entryLists (level + 1) (listWithoutSpans arguments) =
          entryLists (level + 1) arguments := by
        rw [listWithoutSpans_eq_map, entryLists_eq_map, entryLists_eq_map, List.map_map]
        exact List.map_congr_left fun argument listed => ofArguments argument listed (level + 1)
      rw [withoutSpans, entries, entries, same]
  | grouping inner span ofInner => rw [withoutSpans, entries, entries, ofInner]
  | _ => rw [withoutSpans, entries, entries]

theorem statementEntries_withoutSpans (expression : Expr) (level : Nat) :
    expression.withoutSpans.statementEntries level = expression.statementEntries level := by
  cases expression with
  | call callee arguments span =>
      have same : entryLists level (listWithoutSpans arguments) = entryLists level arguments := by
        rw [listWithoutSpans_eq_map, entryLists_eq_map, entryLists_eq_map, List.map_map]
        exact List.map_congr_left fun argument _ => entries_withoutSpans argument level
      rw [withoutSpans, statementEntries, statementEntries, same]
  | _ => exact entries_withoutSpans _ level

end Expr

namespace Stmt

/-- The entries of an initial value. -/
def initialEntries (level : Nat) : Option Expr -> Entries
  | none => []
  | some value => none :: value.entries level

/-- The entries of a value that may be missing. -/
def optionalEntries (level : Nat) : Option Expr -> Entries
  | none => []
  | some value => value.entries level

mutual

/-- The entries of a statement at a depth. -/
def entries (depth : Nat) : Stmt -> Entries
  | .function name parameters body _ =>
      Entries.silent (.plain .functionWord :: .named name ::
        Word.parenthesised (Word.separated (parameters.map Parameter.words))) ++
        blockEntries (depth + 1) body
  | .declaration _ _ initial _ =>
      none :: none :: (initialEntries (depth + 1) initial ++ [none])
  | .assignment _ value _ => none :: none :: (value.entries (depth + 1) ++ [none])
  | .conditional condition consequent alternative _ =>
      none :: (Entries.parenthesised (condition.entries (depth + 1)) ++
        (blockEntries (depth + 1) consequent ++
          match alternative with
          | none => []
          | some otherwise => none :: blockEntries (depth + 1) otherwise))
  | .loop condition body _ =>
      none :: (Entries.parenthesised (condition.entries (depth + 1)) ++
        blockEntries (depth + 1) body)
  | .result value _ => none :: (optionalEntries (depth + 1) value ++ [none])
  | .expression value _ => value.statementEntries (depth + 1) ++ [none]
  | .print value _ =>
      none :: (Entries.parenthesised (value.entries (depth + 1)) ++ [none])

/-- The entries of a block at a level, which is the depth of its statements. -/
def blockEntries (level : Nat) : Block -> Entries
  | .mk statements _ => none :: (listEntries level statements ++ [none])

/-- The entries of several statements at the same depth. -/
def listEntries (depth : Nat) : List Stmt -> Entries
  | [] => []
  | first :: rest => first.entries depth ++ listEntries depth rest

end

theorem mem_listEntries {level depth : Nat} {statements : List Stmt} :
    some level ∈ listEntries depth statements ↔
      Exists fun statement => statement ∈ statements ∧ some level ∈ statement.entries depth := by
  induction statements with
  | nil => simp [listEntries]
  | cons first rest inductionHypothesis => simp [listEntries, inductionHypothesis]

theorem listEntries_eq_flatten (depth : Nat) (statements : List Stmt) :
    listEntries depth statements = (statements.map (entries depth)).flatten := by
  induction statements with
  | nil => simp [listEntries]
  | cons first rest inductionHypothesis => simp [listEntries, inductionHypothesis]

theorem initialEntries_map (level : Nat) (initial : Option Expr) :
    initialEntries level (initial.map Expr.withoutSpans) = initialEntries level initial := by
  cases initial with
  | none => rfl
  | some value => exact congrArg (none :: ·) (value.entries_withoutSpans level)

theorem optionalEntries_map (level : Nat) (value : Option Expr) :
    optionalEntries level (value.map Expr.withoutSpans) = optionalEntries level value := by
  cases value with
  | none => rfl
  | some value => exact value.entries_withoutSpans level

theorem listEntries_withoutSpans {depth : Nat} {statements : List Stmt}
    (same : forall statement, statement ∈ statements ->
      statement.withoutSpans.entries depth = statement.entries depth) :
    listEntries depth (listWithoutSpans statements) = listEntries depth statements := by
  induction statements with
  | nil => rfl
  | cons first rest inductionHypothesis =>
      rw [listWithoutSpans, listEntries, listEntries, same first List.mem_cons_self,
        inductionHypothesis fun statement later => same statement (List.mem_cons_of_mem _ later)]

theorem blockEntries_withoutSpans {level : Nat} {body : Block}
    (same : forall statement, statement ∈ body.statements ->
      statement.withoutSpans.entries level = statement.entries level) :
    blockEntries level (blockWithoutSpans body) = blockEntries level body := by
  rcases body with ⟨statements, span⟩
  have sameList : listEntries level (listWithoutSpans statements) = listEntries level statements :=
    listEntries_withoutSpans same
  rw [blockWithoutSpans, blockEntries, blockEntries, sameList]

theorem entries_withoutSpans (statement : Stmt) (depth : Nat) :
    statement.withoutSpans.entries depth = statement.entries depth := by
  induction statement using Stmt.induction generalizing depth with
  | function name parameters body span ofBody =>
      rw [withoutSpans, entries, entries, List.map_map,
        blockEntries_withoutSpans fun statement inside => ofBody statement inside (depth + 1)]
      rfl
  | declaration type name initial span =>
      rw [withoutSpans, entries, entries, initialEntries_map]
  | assignment target value span => rw [withoutSpans, entries, entries, value.entries_withoutSpans]
  | conditional condition consequent alternative span ofConsequent ofAlternative =>
      have sameConsequent := blockEntries_withoutSpans fun statement inside =>
        ofConsequent statement inside (depth + 1)
      cases alternative with
      | none =>
          rw [withoutSpans, entries, entries, condition.entries_withoutSpans, sameConsequent]
      | some otherwise =>
          have sameAlternative := blockEntries_withoutSpans fun statement inside =>
            ofAlternative otherwise rfl statement inside (depth + 1)
          rw [withoutSpans, entries, entries, condition.entries_withoutSpans, sameConsequent,
            sameAlternative]
  | loop condition body span ofBody =>
      rw [withoutSpans, entries, entries, condition.entries_withoutSpans,
        blockEntries_withoutSpans fun statement inside => ofBody statement inside (depth + 1)]
  | result value span => rw [withoutSpans, entries, entries, optionalEntries_map]
  | expression value span =>
      rw [withoutSpans, entries, entries, value.statementEntries_withoutSpans]
  | print value span => rw [withoutSpans, entries, entries, value.entries_withoutSpans]

end Stmt

/-- The entries of a program, whose statements stand at depth zero. -/
def Program.entries (program : Program) : Entries :=
  Stmt.listEntries 0 program.body

theorem Program.entries_eq_of_withoutSpans {first second : Program}
    (same : first.withoutSpans = second.withoutSpans) : first.entries = second.entries := by
  have erased (program : Program) : program.withoutSpans.entries = program.entries :=
    Stmt.listEntries_withoutSpans fun statement _ => statement.entries_withoutSpans 0
  rw [← erased first, same, erased second]

/-! ## One entry for each word -/

theorem Entries.length_separated {Item : Type} {entries : Item -> Entries}
    {words : Item -> List Word} {items : List Item}
    (each : forall item, item ∈ items -> (entries item).length = (words item).length) :
    (separated (items.map entries)).length = (Word.separated (items.map words)).length := by
  induction items with
  | nil => rfl
  | cons first rest inductionHypothesis =>
      have ofFirst := each first List.mem_cons_self
      have ofRest := inductionHypothesis fun item later => each item (List.mem_cons_of_mem _ later)
      cases rest with
      | nil => simpa [separated, Word.separated] using ofFirst
      | cons second rest =>
          simp only [List.map_cons] at ofRest ⊢
          rw [separated_cons (List.cons_ne_nil _ _), Word.separated_cons (List.cons_ne_nil _ _),
            List.length_append, List.length_append, List.length_cons, List.length_cons, ofFirst,
            ofRest]

theorem Expr.length_entries (expression : Expr) (level : Nat) :
    (expression.entries level).length = expression.words.length := by
  induction expression using Expr.induction generalizing level with
  | binary left operator right span ofLeft ofRight => simp [entries, words, ofLeft, ofRight]
  | unary operator operand span ofOperand => simp [entries, words, ofOperand]
  | call callee arguments span ofArguments =>
      have listed := Entries.length_separated fun argument listed =>
        ofArguments argument listed (level + 1)
      simp [entries, words, Entries.parenthesised, Word.parenthesised, entryLists_eq_map,
        wordLists_eq_map, listed]
  | grouping inner span ofInner => simp [entries, words, Word.parenthesised, ofInner]
  | _ => simp [entries, words]

theorem Expr.length_statementEntries (expression : Expr) (level : Nat) :
    (expression.statementEntries level).length = expression.words.length := by
  cases expression with
  | call callee arguments span =>
      have listed := Entries.length_separated fun argument (_ : argument ∈ arguments) =>
        argument.length_entries level
      simp [statementEntries, words, Entries.parenthesised, Word.parenthesised, entryLists_eq_map,
        wordLists_eq_map, listed]
  | _ => exact length_entries _ level

namespace Stmt

theorem length_initialEntries (initial : Option Expr) (level : Nat) :
    (initialEntries level initial).length = (initialWords initial).length := by
  cases initial with
  | none => rfl
  | some value => exact congrArg (· + 1) (value.length_entries level)

theorem length_optionalEntries (value : Option Expr) (level : Nat) :
    (optionalEntries level value).length = (optionalWords value).length := by
  cases value with
  | none => rfl
  | some value => exact value.length_entries level

theorem length_listEntries {depth : Nat} {statements : List Stmt}
    (each : forall statement, statement ∈ statements ->
      (statement.entries depth).length = statement.words.length) :
    (listEntries depth statements).length = (listWords statements).length := by
  induction statements with
  | nil => rfl
  | cons first rest inductionHypothesis =>
      have ofRest := inductionHypothesis fun statement later =>
        each statement (List.mem_cons_of_mem _ later)
      rw [listEntries, listWords, List.length_append, List.length_append,
        each first List.mem_cons_self, ofRest]

theorem length_blockEntries {level : Nat} {body : Block}
    (each : forall statement, statement ∈ body.statements ->
      (statement.entries level).length = statement.words.length) :
    (blockEntries level body).length = (blockWords body).length := by
  rcases body with ⟨statements, span⟩
  have listed : (listEntries level statements).length = (listWords statements).length :=
    length_listEntries each
  simp [blockEntries, blockWords, listed]

theorem length_entries (statement : Stmt) (depth : Nat) :
    (statement.entries depth).length = statement.words.length := by
  induction statement using Stmt.induction generalizing depth with
  | function name parameters body span ofBody =>
      have ofBlock := length_blockEntries fun statement inside =>
        ofBody statement inside (depth + 1)
      simp [entries, words, Entries.silent, ofBlock, Nat.add_right_comm]
  | declaration type name initial span => simp [entries, words, length_initialEntries]
  | assignment target value span => simp [entries, words, Expr.length_entries]
  | conditional condition consequent alternative span ofConsequent ofAlternative =>
      have ofBlock := length_blockEntries fun statement inside =>
        ofConsequent statement inside (depth + 1)
      cases alternative with
      | none =>
          simp [entries, words, Entries.parenthesised, Word.parenthesised, Expr.length_entries,
            ofBlock]
      | some otherwise =>
          have ofOther := length_blockEntries fun statement inside =>
            ofAlternative otherwise rfl statement inside (depth + 1)
          simp [entries, words, Entries.parenthesised, Word.parenthesised, Expr.length_entries,
            ofBlock, ofOther]
  | loop condition body span ofBody =>
      have ofBlock := length_blockEntries fun statement inside =>
        ofBody statement inside (depth + 1)
      simp [entries, words, Entries.parenthesised, Word.parenthesised, Expr.length_entries, ofBlock]
  | result value span => simp [entries, words, length_optionalEntries]
  | expression value span => simp [entries, words, Expr.length_statementEntries]
  | print value span =>
      simp [entries, words, Entries.parenthesised, Word.parenthesised, Expr.length_entries]

end Stmt

theorem Program.length_entries (program : Program) :
    program.entries.length = program.words.length :=
  Stmt.length_listEntries fun statement _ => statement.length_entries 0

/-! ## Levels that are reached -/

theorem Expr.own_mem_entries (expression : Expr) (level : Nat) :
    some level ∈ expression.entries level := by
  rcases expression.exists_entries_cons level with ⟨rest, shape⟩
  rw [shape]
  exact List.mem_cons_self

/-- Every level on the way to one that is reached is entered. -/
theorem Expr.mem_entries_of_mem_levels (expression : Expr) {level inner between : Nat}
    (deep : inner ∈ expression.levels level) (below : level <= between)
    (above : between <= inner) : some between ∈ expression.entries level := by
  induction expression using Expr.induction generalizing level with
  | binary left operator right span ofLeft ofRight =>
      rcases Nat.eq_or_lt_of_le below with rfl | further
      · exact own_mem_entries _ level
      · rw [levels, List.mem_cons, List.mem_append] at deep
        rw [entries]
        rcases deep with rfl | inLeft | inRight
        · omega
        · exact List.mem_append_left _ (ofLeft inLeft below)
        · exact List.mem_append_right _ (List.mem_cons_of_mem _ (ofRight inRight further))
  | unary operator operand span ofOperand =>
      rw [levels, List.mem_cons] at deep
      rw [entries]
      rcases deep with rfl | inOperand
      · rw [Nat.le_antisymm above below]
        exact List.mem_cons_self
      · exact List.mem_cons_of_mem _ (ofOperand inOperand below)
  | call callee arguments span ofArguments =>
      rcases Nat.eq_or_lt_of_le below with rfl | further
      · exact own_mem_entries _ level
      · rw [levels, List.mem_cons, mem_listLevels] at deep
        rw [entries, Entries.parenthesised, entryLists_eq_map]
        rcases deep with rfl | ⟨argument, listed, inArgument⟩
        · omega
        · have entered := Entries.mem_separated.mpr ⟨_, List.mem_map_of_mem listed,
            ofArguments argument listed inArgument further⟩
          simp [entered]
  | grouping enclosed span ofEnclosed =>
      rcases Nat.eq_or_lt_of_le below with rfl | further
      · exact own_mem_entries _ level
      · rw [levels, List.mem_cons] at deep
        rw [entries]
        rcases deep with rfl | inside
        · omega
        · simp [ofEnclosed inside further]
  | _ =>
      rw [levels, List.mem_singleton] at deep
      subst deep
      rw [Nat.le_antisymm above below]
      exact own_mem_entries _ _

theorem Expr.mem_statementEntries (expression : Expr) {level inner between : Nat}
    (deep : inner ∈ expression.statementLevels level) (below : level <= between)
    (above : between <= inner) : some between ∈ expression.statementEntries level := by
  cases expression with
  | call callee arguments span =>
      rw [statementLevels, mem_listLevels] at deep
      rcases deep with ⟨argument, listed, inArgument⟩
      have entered := Entries.mem_separated.mpr ⟨_, List.mem_map_of_mem listed,
        argument.mem_entries_of_mem_levels inArgument below above⟩
      rw [statementEntries, Entries.parenthesised, entryLists_eq_map]
      simp [entered]
  | _ => exact mem_entries_of_mem_levels _ deep below above

namespace Stmt

theorem mem_initialEntries {initial : Option Expr} {level inner between : Nat}
    (deep : inner ∈ Expr.listLevels level initial.toList) (below : level <= between)
    (above : between <= inner) : some between ∈ initialEntries level initial := by
  rcases Expr.mem_listLevels.mp deep with ⟨value, given, inValue⟩
  rw [Option.mem_toList] at given
  subst given
  exact List.mem_cons_of_mem _ (value.mem_entries_of_mem_levels inValue below above)

theorem mem_optionalEntries {value : Option Expr} {level inner between : Nat}
    (deep : inner ∈ Expr.listLevels level value.toList) (below : level <= between)
    (above : between <= inner) : some between ∈ optionalEntries level value := by
  rcases Expr.mem_listLevels.mp deep with ⟨value, given, inValue⟩
  rw [Option.mem_toList] at given
  subst given
  exact value.mem_entries_of_mem_levels inValue below above

/-- A block enters no level itself, so only what lies beyond its own level is found in it. -/
theorem mem_blockEntries {body : Block} {level inner between : Nat}
    (plain : Phrase.PlainBlock body)
    (each : forall statement, statement ∈ body.statements -> Phrase.PlainThroughout statement ->
      inner ∈ statement.levels level -> some between ∈ statement.entries level)
    (deep : inner ∈ blockLevels level body) (further : level < between)
    (above : between <= inner) : some between ∈ blockEntries level body := by
  have plainEach := Phrase.plainBlock_iff.mp plain
  rcases body with ⟨statements, span⟩
  rw [blockLevels, List.mem_cons, mem_listLevels] at deep
  rcases deep with rfl | ⟨statement, listed, inside⟩
  · omega
  · have entered := mem_listEntries.mpr
      ⟨statement, listed, each statement listed (plainEach statement listed) inside⟩
    rw [blockEntries]
    simp [entered]

/-- The condition of a loop or of a conditional enters the level that its blocks have. -/
theorem mem_entries_of_mem_levels (statement : Stmt) {depth inner between : Nat}
    (plain : Phrase.PlainThroughout statement) (deep : inner ∈ statement.levels depth)
    (below : depth + 1 <= between) (above : between <= inner) :
    some between ∈ statement.entries depth := by
  induction statement using Stmt.induction generalizing depth with
  | function name parameters body span => cases plain.1.2
  | declaration type name initial span =>
      rw [levels] at deep
      rw [entries]
      simp [mem_initialEntries deep below above]
  | assignment target value span =>
      rw [levels] at deep
      rw [entries]
      simp [value.mem_entries_of_mem_levels deep below above]
  | conditional condition consequent alternative span ofConsequent ofAlternative =>
      have nested := plain.2
      rw [Stmt.nested.eq_def] at nested
      rw [entries.eq_def]
      dsimp only [Entries.parenthesised]
      rcases Nat.eq_or_lt_of_le below with rfl | further
      · simp [condition.own_mem_entries]
      · rw [levels.eq_def] at deep
        rcases List.mem_append.mp deep with inCondition | deep
        · simp [condition.mem_entries_of_mem_levels inCondition below above]
        rcases List.mem_append.mp deep with inConsequent | inAlternative
        · have plainBody : Phrase.PlainBlock consequent := fun statement inside =>
            nested statement (List.mem_append_left _ inside)
          have entered := mem_blockEntries plainBody (fun statement listed plain inside =>
            ofConsequent statement listed plain inside further) inConsequent further above
          simp [entered]
        · cases alternative with
          | none => cases inAlternative
          | some otherwise =>
              have plainBody : Phrase.PlainBlock otherwise := fun statement inside =>
                nested statement (List.mem_append_right _ inside)
              have entered := mem_blockEntries plainBody (fun statement listed plain inside =>
                ofAlternative otherwise rfl statement listed plain inside further)
                inAlternative further above
              simp [entered]
  | loop condition body span ofBody =>
      have nested := plain.2
      rw [Stmt.nested] at nested
      rw [entries, Entries.parenthesised]
      rcases Nat.eq_or_lt_of_le below with rfl | further
      · simp [condition.own_mem_entries]
      · rw [levels] at deep
        rcases List.mem_append.mp deep with inCondition | inBody
        · simp [condition.mem_entries_of_mem_levels inCondition below above]
        · have entered := mem_blockEntries nested (fun statement listed plain inside =>
            ofBody statement listed plain inside further) inBody further above
          simp [entered]
  | result value span =>
      rw [levels] at deep
      rw [entries]
      simp [mem_optionalEntries deep below above]
  | expression value span =>
      rw [levels] at deep
      rw [entries]
      simp [value.mem_statementEntries deep below above]
  | print value span =>
      rw [levels] at deep
      rw [entries, Entries.parenthesised]
      simp [value.mem_entries_of_mem_levels deep below above]

end Stmt

/-- At the top a function may be declared, whose block has the first level. -/
theorem Program.mem_entries_of_mem_levels {program : Program} {level between : Nat}
    (plain : forall statement, statement ∈ program.body -> statement.Regular ∧
      forall inner, inner ∈ statement.nested -> Phrase.Plain inner)
    (deep : level ∈ program.levels) (below : 1 < between) (above : between <= level) :
    some between ∈ program.entries := by
  rcases Stmt.mem_listLevels.mp deep with ⟨statement, listed, inside⟩
  rcases plain statement listed with ⟨regular, nested⟩
  refine Stmt.mem_listEntries.mpr ⟨statement, listed, ?_⟩
  cases isFunction : statement.isFunction with
  | false =>
      exact statement.mem_entries_of_mem_levels ⟨⟨regular, isFunction⟩, nested⟩ inside
        (Nat.le_of_lt below) above
  | true =>
      cases statement with
      | function name parameters body span =>
          rw [Stmt.nested] at nested
          rw [Stmt.levels] at inside
          rw [Stmt.entries]
          apply List.mem_append_right
          refine Stmt.mem_blockEntries nested ?_ inside below above
          intro statement _ plain inside
          exact statement.mem_entries_of_mem_levels plain inside below above
      | _ => cases isFunction

end SyntaxTree
end ToyFrontend
