import ToyFrontend.Proofs.Blame.Program
import ToyFrontend.Proofs.Scan.Lossless
import ToyFrontend.Proofs.Span

namespace ToyFrontend

/-!
# Places and the text before them

A position is kept as three counts that are brought forward character by
character.  What they should count is the text before the position, and this can
be said without a scan: its bytes, its line feeds, and its characters behind the
last line feed.

The counts are right at the beginning, and one more character keeps them right.
Every position that is reported was reached in this way, except that of an escape
that is none: it is counted along the line from the opening quote, and agrees with
the other count because no line feed stands in between.
-/

namespace Source

namespace Position

/-- The counts of a position are those of the text before it. -/
structure Counts (position : Position) (passed : String) : Prop where
  offset : position.offset = passed.utf8ByteSize
  line : position.line = 1 + passed.toList.count '\n'
  column : position.column = 1 + (passed.toList.reverse.takeWhile (· != '\n')).length

/-- The position stands between two characters of the document, or at one of its ends, and
its counts are true. -/
def Marks (position : Position) (document : String) : Prop :=
  Exists fun passed => Exists fun ahead => document = passed ++ ahead ∧ position.Counts passed

/-- One position stands before another, by its offset and also by its line and column. -/
structure Precedes (first second : Position) : Prop where
  offset : first.offset < second.offset
  place : first.line < second.line ∨ first.line = second.line ∧ first.column < second.column

/-- The place is behind some beginning of the text that lies ahead of the position. -/
def Reaches (position : Position) (ahead : List Char) (place : Position) : Prop :=
  Exists fun passed => Exists fun rest => ahead = passed ++ rest ∧ place = position.after passed

/-! ## Counting -/

theorem counts_start : start.Counts "" :=
  ⟨rfl, rfl, rfl⟩

theorem Counts.next {position : Position} {passed : List Char}
    (counts : position.Counts (String.ofList passed)) (character : Char) :
    (position.next character).Counts (String.ofList (passed ++ [character])) := by
  have size : (String.ofList (passed ++ [character])).utf8ByteSize =
      position.offset + character.utf8Size := by
    rw [String.ofList_append, String.utf8ByteSize_append, counts.offset]
    simp
  have line := counts.line
  have column := counts.column
  rw [String.toList_ofList] at line column
  unfold Position.next
  split
  next isLineFeed =>
    subst isLineFeed
    refine ⟨size.symm, ?_, ?_⟩
    · simp [line, Nat.add_assoc]
    · simp
  next inLine =>
    refine ⟨size.symm, ?_, ?_⟩
    · simp [line, inLine]
    · simp [column, inLine, Nat.add_assoc]

theorem Counts.after {position : Position} {passed : List Char}
    (counts : position.Counts (String.ofList passed)) (text : List Char) :
    (position.after text).Counts (String.ofList (passed ++ text)) := by
  induction text generalizing position passed with
  | nil => rwa [List.append_nil]
  | cons character text inductionHypothesis =>
      rw [after_cons, ← List.singleton_append, ← List.append_assoc]
      exact inductionHypothesis (counts.next character)

/-- There is one position behind a text. -/
theorem Counts.unique {position other : Position} {passed : String}
    (counts : position.Counts passed) (again : other.Counts passed) : other = position := by
  rcases position with ⟨offset, line, column⟩
  rw [Position.mk.injEq]
  exact ⟨again.offset.trans counts.offset.symm, again.line.trans counts.line.symm,
    again.column.trans counts.column.symm⟩

theorem Reaches.marks {document : String} {place : Position}
    (reaches : start.Reaches document.toList place) : place.Marks document := by
  rcases reaches with ⟨passed, rest, shape, rfl⟩
  refine ⟨String.ofList passed, String.ofList rest, ?_, ?_⟩
  · rw [← String.ofList_append, ← shape, String.ofList_toList]
  · exact @Counts.after _ [] counts_start passed

/-! ## Order -/

theorem Precedes.trans {first second third : Position} (early : first.Precedes second)
    (late : second.Precedes third) : first.Precedes third := by
  have before := early.place
  have behind := late.place
  exact ⟨Nat.lt_trans early.offset late.offset, by omega⟩

theorem precedes_next (position : Position) (character : Char) :
    position.Precedes (position.next character) := by
  have width := character.utf8Size_pos
  unfold Position.next
  split
  next => exact ⟨Nat.lt_add_of_pos_right width, .inl (Nat.lt_succ_self _)⟩
  next => exact ⟨Nat.lt_add_of_pos_right width, .inr ⟨rfl, Nat.lt_succ_self _⟩⟩

theorem precedes_after (position : Position) {text : List Char} (nonempty : text ≠ []) :
    position.Precedes (position.after text) := by
  induction text generalizing position with
  | nil => exact absurd rfl nonempty
  | cons character text inductionHypothesis =>
      have first := position.precedes_next character
      rw [after_cons]
      cases text with
      | nil => exact first
      | cons => exact first.trans (inductionHypothesis _ (List.cons_ne_nil _ _))

/-! ## Places ahead -/

theorem reaches_after (position : Position) (passed rest : List Char) :
    position.Reaches (passed ++ rest) (position.after passed) :=
  ⟨passed, rest, rfl, rfl⟩

theorem Reaches.behind {position place : Position} {front ahead : List Char}
    (reaches : (position.after front).Reaches ahead place) :
    position.Reaches (front ++ ahead) place := by
  rcases reaches with ⟨passed, rest, rfl, rfl⟩
  rw [← after_append, ← List.append_assoc]
  exact reaches_after position (front ++ passed) rest

end Position

/-- Both ends of a span are places of the document. -/
def Span.Marks (span : Span) (document : String) : Prop :=
  span.start.Marks document ∧ span.finish.Marks document

end Source

namespace Scan

theorem Layout.reaches {position : Source.Position} {remaining : List Char} {tokens : List Token}
    (layout : Layout position remaining tokens) :
    forall token, token ∈ tokens -> position.Reaches remaining token.span.start ∧
      position.Reaches remaining token.span.finish := by
  induction layout with
  | @finish position gap skipped =>
      intro token only
      cases List.mem_singleton.mp only
      have atEnd := position.reaches_after gap []
      rw [List.append_nil] at atEnd
      exact ⟨atEnd, atEnd⟩
  | @lexeme position gap text rest first tokens skipped nonempty proper written starts finishes
      others inductionHypothesis =>
      intro token member
      rcases List.mem_cons.mp member with rfl | later
      · rw [starts, finishes]
        refine ⟨position.reaches_after gap (text ++ rest), ?_⟩
        rw [← List.append_assoc]
        exact position.reaches_after (gap ++ text) rest
      · rcases inductionHypothesis token later with ⟨reachesStart, reachesFinish⟩
        rw [← List.append_assoc]
        exact ⟨reachesStart.behind, reachesFinish.behind⟩

/-- Each token starts before the next one, since it has a text. -/
theorem Layout.increasing {position : Source.Position} {remaining : List Char}
    {tokens : List Token} (layout : Layout position remaining tokens) :
    tokens.Pairwise fun first second => first.span.start.Precedes second.span.start := by
  induction layout with
  | finish => exact List.pairwise_singleton _ _
  | @lexeme position gap text rest first tokens skipped nonempty proper written starts finishes
      others inductionHypothesis =>
      refine List.pairwise_cons.mpr ⟨?_, inductionHypothesis⟩
      intro second later
      rcases (others.reaches second later).1 with ⟨passed, _, _, reached⟩
      rw [reached, starts, Source.Position.after_append, ← Source.Position.after_append _ text]
      exact Source.Position.precedes_after _ (by simp [nonempty])

/-- A text that is no piece is blamed at its beginning, or inside the literal that it
begins. -/
theorem Piece.reaches_of_read {start : Source.Position} {first : Char} {ahead : List Char}
    {error : LexicalError} (failed : Piece.read start first ahead = .error error) :
    start.Reaches (first :: ahead) error.position := by
  have here : start.Reaches (first :: ahead) start := start.reaches_after [] (first :: ahead)
  unfold Piece.read at failed
  split at failed
  next => cases failed
  split at failed
  next =>
    unfold Piece.number at failed
    dsimp only at failed
    split at failed
    next => cases failed
    next =>
      cases failed
      exact here
  split at failed
  next => cases failed
  split at failed
  next isQuote =>
    subst isQuote
    unfold Piece.string at failed
    split at failed
    next => cases failed
    next =>
      cases failed
      exact here
    next before escaped bad =>
      cases failed
      rcases Text.Quoted.before_of_badEscape bad with ⟨⟨rest, rfl⟩, sameLine⟩
      dsimp only
      rw [Source.Position.along_eq_after _ (by simp [sameLine])]
      exact start.reaches_after ('"' :: before) rest
  split at failed
  next => cases failed
  split at failed
  next => cases failed
  next =>
    cases failed
    exact here

theorem reaches_of_failure {cursor : Source.Cursor} {error : LexicalError}
    (failed : (ofCursor cursor).failure = some error) :
    cursor.position.Reaches cursor.remaining error.position := by
  rcases exists_read_of_failure failed with ⟨passed, first, ahead, shape, refused⟩
  rw [shape]
  exact (Piece.reaches_of_read refused).behind

end Scan

/-! ## Documents -/

section Documents

variable {source : String}

theorem marks_of_token {tokens : List Token} {token : Token}
    (scanned : tokenize source = .ok tokens) (member : token ∈ tokens) :
    token.span.Marks source := by
  rcases (Scan.layout_of_tokenize scanned).reaches token member with ⟨starts, finishes⟩
  exact ⟨starts.marks, finishes.marks⟩

theorem marks_of_lexicalError {error : LexicalError} (failed : tokenize source = .error error) :
    error.position.Marks source :=
  (Scan.reaches_of_failure (tokenize_eq_error_iff.mp failed)).marks

/-- A lexical error is that of the scan. -/
theorem tokenize_eq_error_of_parse {error : LexicalError}
    (failed : parse source = .error (.lexical error)) : tokenize source = .error error := by
  unfold parse at failed
  split at failed
  next refused =>
    cases failed
    exact refused
  next => split at failed <;> cases failed

theorem marks_of_diagnostic {diagnostic : Diagnostic}
    (failed : parse source = .error diagnostic) : diagnostic.position.Marks source := by
  cases diagnostic with
  | lexical error => exact marks_of_lexicalError (tokenize_eq_error_of_parse failed)
  | syntactic error =>
      rcases Reading.explained_of_parse failed with ⟨tokens, before, token, scanned, blames, -⟩
      rcases blames.stands with ⟨behind, rfl⟩
      rw [Diagnostic.position, blames.position]
      exact (marks_of_token scanned (by simp)).1

/-- The ends of a span are ends of tokens. -/
theorem marks_of_bounded {tokens before segment behind : List Token} {span : Source.Span}
    (scanned : tokenize source = .ok tokens) (shape : (before ++ (segment ++ behind)) <+: tokens)
    (bounded : SyntaxTree.Bounded segment span) : span.Marks source := by
  rcases bounded with ⟨begins, ends⟩
  have inside {token : Token} (member : token ∈ segment) : token ∈ tokens :=
    shape.subset (by simp [member])
  exact ⟨(marks_of_token scanned (inside (List.mem_of_mem_head? begins))).1,
    (marks_of_token scanned (inside (List.mem_of_mem_getLast? ends))).2⟩

theorem marks_of_program {program : SyntaxTree.Program} (accepted : parse source = .ok program) :
    program.span.Marks source ∧ forall node, program.Has node -> node.span.Marks source := by
  rcases arranged_of_parse accepted with ⟨lexemes, marker, scanned, -, -, arranged, span⟩
  constructor
  · rw [span]
    have atStart := Source.Position.start.reaches_after [] source.toList
    exact ⟨atStart.marks, (marks_of_token scanned (by simp)).1⟩
  · intro node has
    rcases has.exists_segment arranged with ⟨before, segment, behind, rfl, occupies⟩
    exact marks_of_bounded scanned (List.prefix_append _ _) occupies.bounded

/-- Every position that is reported about a document is a place of the document, and its
line and column are those of the text before it.  The tokens of a document start one
behind the other. -/
theorem marks_of_source (source : String) :
    (forall tokens, tokenize source = .ok tokens ->
      (forall token, token ∈ tokens -> token.span.Marks source) ∧
        tokens.Pairwise fun first second => first.span.start.Precedes second.span.start) ∧
    (forall error, tokenize source = .error error -> error.position.Marks source) ∧
    (forall diagnostic, parse source = .error diagnostic -> diagnostic.position.Marks source) ∧
    (forall program, parse source = .ok program ->
      program.span.Marks source ∧ forall node, program.Has node -> node.span.Marks source) := by
  refine ⟨?_, ?_, ?_, ?_⟩
  · intro tokens scanned
    exact ⟨fun token member => marks_of_token scanned member,
      (Scan.layout_of_tokenize scanned).increasing⟩
  · exact fun error failed => marks_of_lexicalError failed
  · exact fun diagnostic failed => marks_of_diagnostic failed
  · exact fun program accepted => marks_of_program accepted

end Documents

/-- Wide characters, a line that ends in two characters, and an escape that is none behind
one that is. -/
def misspeltEscape : String :=
  "x = \"é\";\r\ny = \"é\\\"\\q\";"

theorem marks_of_misspeltEscape :
    Exists fun error => tokenize misspeltEscape = .error error ∧ error.cause = .invalidEscape ∧
      error.position = ⟨20, 2, 9⟩ ∧ error.position.Marks misspeltEscape := by
  have failed : tokenize misspeltEscape =
      .error { cause := .invalidEscape, text := "\\q", position := ⟨20, 2, 9⟩ } :=
    tokenize_eq_error_iff.mpr (by decide +kernel)
  exact ⟨_, failed, rfl, rfl, (marks_of_source misspeltEscape).2.1 _ failed⟩

end ToyFrontend
