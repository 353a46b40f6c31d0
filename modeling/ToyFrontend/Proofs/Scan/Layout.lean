import ToyFrontend.Proofs.Text.Quoted
import ToyFrontend.Scan

namespace ToyFrontend

namespace Scan

/-!
# The layout of a document

A document that can be scanned is a sequence of lexemes with gaps around them.
`Gap` and `Layout` say so without a scanner: a gap is made of runs of spaces and
of comments, and a layout is a gap, then a lexeme with its token, then a layout
again, up to the gap before the end marker.  A gap is a gap only before what
follows it, because a comment extends as far as its line does.

A scan passes one piece after the other.  A piece stands at the head of what lies
ahead, and it is part of a gap or it is a lexeme.
-/

/-- One piece of a gap, before the text `rest`: spaces, or a comment up to the end of
its line. -/
inductive Filler : List Char -> List Char -> Prop
  | spaces {run rest : List Char} (nonempty : run ≠ [])
      (blank : forall character, character ∈ run -> character ∈ [' ', '\t', '\r', '\n']) :
      Filler run rest
  | comment {line rest : List Char} (unbroken : '\n' ∉ line)
      (ends : forall character, rest.head? = some character -> character = '\n') :
      Filler ('/' :: '/' :: line) rest

/-- What may stand between two lexemes, before the text `rest`. -/
inductive Gap : List Char -> List Char -> Prop
  | none {rest : List Char} : Gap [] rest
  | more {filler others rest : List Char} (first : Filler filler (others ++ rest))
      (skipped : Gap others rest) : Gap (filler ++ others) rest

/-- A text from a position on, as gaps and tokens. -/
inductive Layout : Source.Position -> List Char -> List Token -> Prop
  | finish {position : Source.Position} {gap : List Char} (skipped : Gap gap []) :
      Layout position gap [Token.endMarker (position.after gap)]
  | lexeme {position : Source.Position} {gap text rest : List Char} {token : Token}
      {tokens : List Token} (skipped : Gap gap (text ++ rest)) (nonempty : text ≠ [])
      (proper : token.kind ≠ .eof) (written : token.text = String.ofList text)
      (starts : token.span.start = position.after gap)
      (finishes : token.span.finish = position.after (gap ++ text))
      (others : Layout (position.after (gap ++ text)) rest tokens) :
      Layout position (gap ++ (text ++ rest)) (token :: tokens)

/-- More may be skipped before a gap. -/
theorem Layout.skip {position : Source.Position} {filler rest : List Char} {tokens : List Token}
    (first : Filler filler rest) (layout : Layout (position.after filler) rest tokens) :
    Layout position (filler ++ rest) tokens := by
  cases layout with
  | finish skipped =>
      rw [← Source.Position.after_append]
      exact .finish (.more (by rwa [List.append_nil]) skipped)
  | lexeme skipped nonempty proper written starts finishes others =>
      rw [← List.append_assoc]
      rw [← Source.Position.after_append] at starts finishes others
      rw [← List.append_assoc] at finishes others
      exact .lexeme (.more first skipped) nonempty proper written starts finishes others

/-- The only end marker is the last token, and it stands behind all the text. -/
theorem Layout.marked {position : Source.Position} {remaining : List Char} {tokens : List Token}
    (layout : Layout position remaining tokens) :
    Exists fun lexemes => tokens = lexemes ++ [Token.endMarker (position.after remaining)] ∧
      forall token, token ∈ lexemes -> token.kind ≠ .eof ∧ token.text ≠ "" := by
  induction layout with
  | finish skipped => exact ⟨[], rfl, by simp⟩
  | @lexeme position gap text rest token tokens skipped nonempty proper written starts finishes
      others inductionHypothesis =>
      rcases inductionHypothesis with ⟨lexemes, rfl, each⟩
      refine ⟨token :: lexemes, ?_, ?_⟩
      · rw [← List.append_assoc, Source.Position.after_append _ (gap ++ text), List.cons_append]
      · have hasText : token.text ≠ "" := by
          rw [written]
          exact fun empty => nonempty (String.ofList_eq_empty_iff.mp empty)
        simpa using ⟨⟨proper, hasText⟩, each⟩

namespace Piece

/-- Before the text `rest`, the piece is what its content says. -/
def Fitting (piece : Piece) (rest : List Char) : Prop :=
  match piece.content with
  | .gap => Filler piece.text rest
  | .lexeme kind _ => kind ≠ .eof

theorem fitting_of_lexeme {piece : Piece} {kind : Token.Kind} {value : Option Literal}
    (content : piece.content = .lexeme kind value) (proper : kind ≠ .eof) (rest : List Char) :
    piece.Fitting rest := by
  rw [Fitting, content]
  exact proper

theorem fitting_of_gap {piece : Piece} {rest : List Char} (content : piece.content = .gap)
    (filler : Filler piece.text rest) : piece.Fitting rest := by
  rw [Fitting, content]
  exact filler

theorem ofWord_eq_lexeme (word : String) :
    Exists fun kind => Exists fun value => ofWord word = .lexeme kind value ∧ kind ≠ .eof := by
  unfold ofWord
  split
  next => exact ⟨_, _, rfl, by decide⟩
  next kind _ reserved =>
    refine ⟨_, _, rfl, ?_⟩
    rintro rfl
    unfold Token.Kind.ofReserved? at reserved
    split at reserved <;> cases reserved
  next => exact ⟨_, _, rfl, by decide⟩

theorem isPrefix_of_symbol? {first : Char} {ahead tail : List Char} {kind : Token.Kind}
    (found : symbol? first ahead = some (kind, tail)) : tail <+: ahead ∧ kind ≠ .eof := by
  have joins (alone joined : Token.Kind) (properAlone : alone ≠ .eof)
      (properJoined : joined ≠ .eof)
      (found : (if ahead.head? = some '=' then some (joined, ['=']) else some (alone, [])) =
        some (kind, tail)) : tail <+: ahead ∧ kind ≠ .eof := by
    split at found
    next equals =>
      cases found
      rcases List.head?_eq_some_iff.mp equals with ⟨rest, rfl⟩
      exact ⟨⟨rest, rfl⟩, properJoined⟩
    next =>
      cases found
      exact ⟨List.nil_prefix, properAlone⟩
  unfold symbol? at found
  extract_lets orWithEquals at found
  split at found
  case h_5 => exact joins .assignment .equals (by decide) (by decide) found
  case h_6 => exact joins .not .notEquals (by decide) (by decide) found
  case h_7 => exact joins .less .lessEquals (by decide) (by decide) found
  case h_8 => exact joins .greater .greaterEquals (by decide) (by decide) found
  case h_15 => cases found
  all_goals
    cases found
    exact ⟨List.nil_prefix, by decide⟩

/-- A run of spaces. -/
theorem filler_spaces {first : Char} (space : isSpace first = true) (ahead rest : List Char) :
    Filler (first :: ahead.takeWhile isSpace) rest := by
  have blank {character : Char} (isBlank : isSpace character = true) :
      character ∈ [' ', '\t', '\r', '\n'] := by
    simpa [isSpace, or_assoc] using isBlank
  apply Filler.spaces (List.cons_ne_nil _ _)
  intro character member
  rcases List.mem_cons.mp member with rfl | later
  · exact blank space
  · exact blank (List.all_eq_true.mp List.all_takeWhile character later)

/-- A comment extends as far as its line does. -/
theorem filler_comment (ahead : List Char) :
    Filler ('/' :: '/' :: ahead.takeWhile (· != '\n'))
      (ahead.drop (ahead.takeWhile (· != '\n')).length) := by
  apply Filler.comment
  · intro broken
    simpa using List.all_eq_true.mp List.all_takeWhile _ broken
  · have behind : ahead.drop (ahead.takeWhile (· != '\n')).length =
        ahead.dropWhile (· != '\n') := by
      have whole := @List.takeWhile_append_dropWhile _ (· != '\n') ahead
      exact (congrArg (List.drop _) whole).symm.trans List.drop_left
    intro character isHead
    have stopped := List.head?_dropWhile_not (· != '\n') ahead
    rw [← behind, isHead] at stopped
    simpa using stopped

/-- A piece stands at the head of what lies ahead. -/
theorem fitting_of_read {start : Source.Position} {first : Char} {ahead : List Char}
    {piece : Piece} (run : read start first ahead = .ok piece) :
    piece.first = first ∧ piece.tail <+: ahead ∧
      piece.Fitting (ahead.drop piece.tail.length) := by
  unfold read at run
  split at run
  next =>
    cases run
    rcases ofWord_eq_lexeme (String.ofList (first :: ahead.takeWhile isWordPart)) with
      ⟨kind, value, content, proper⟩
    exact ⟨rfl, List.takeWhile_prefix _, fitting_of_lexeme content proper _⟩
  split at run
  next =>
    unfold number at run
    dsimp only at run
    split at run
    next =>
      cases run
      exact ⟨rfl, List.takeWhile_prefix _, fitting_of_lexeme rfl (by decide) _⟩
    next => cases run
  split at run
  next space =>
    cases run
    exact ⟨rfl, List.takeWhile_prefix _, fitting_of_gap rfl (filler_spaces space _ _)⟩
  split at run
  next isQuote =>
    unfold string at run
    split at run
    next value written closed =>
      cases run
      exact ⟨isQuote.symm, Text.Quoted.written_isPrefix closed,
        fitting_of_lexeme rfl (by decide) _⟩
    next => cases run
    next => cases run
  split at run
  next slashes =>
    cases run
    rcases Bool.and_eq_true_iff.mp slashes with ⟨isSlash, follows⟩
    cases of_decide_eq_true isSlash
    rcases List.head?_eq_some_iff.mp (of_decide_eq_true follows) with ⟨line, rfl⟩
    refine ⟨rfl, List.takeWhile_prefix _, fitting_of_gap rfl ?_⟩
    exact filler_comment line
  split at run
  next kind tail found =>
    cases run
    rcases isPrefix_of_symbol? found with ⟨stands, proper⟩
    exact ⟨rfl, stands, fitting_of_lexeme rfl proper _⟩
  next => cases run

/-- A piece and what lies behind it make up what lies ahead. -/
theorem cons_eq_of_read {start : Source.Position} {first : Char} {ahead : List Char}
    {piece : Piece} (run : read start first ahead = .ok piece) :
    first :: ahead = piece.text ++ ahead.drop piece.tail.length := by
  rcases fitting_of_read run with ⟨rfl, ⟨rest, same⟩, -⟩
  rw [← same, List.drop_left]
  rfl

end Piece

/-- What a scan that succeeds has met is laid out in the text ahead of it. -/
theorem layout_of_ofCursor (cursor : Source.Cursor) (finished : (ofCursor cursor).failure = none) :
    Layout cursor.position cursor.remaining (ofCursor cursor).tokens := by
  fun_induction ofCursor cursor with
  | case1 cursor atEnd =>
      rw [atEnd]
      exact .finish .none
  | case2 => cases finished
  | case3 cursor first ahead shape piece run inductionHypothesis =>
      have layout := inductionHypothesis finished
      have fitting := (Piece.fitting_of_read run).2.2
      rw [shape, Piece.cons_eq_of_read run]
      -- A gap joins the one before the next token; a lexeme has no gap before it.
      rw [Piece.Fitting] at fitting
      simp only [prepend, Piece.token?]
      cases content : piece.content with
      | gap =>
          rw [content] at fitting
          exact layout.skip fitting
      | lexeme kind value =>
          rw [content] at fitting
          exact @Layout.lexeme _ [] _ _ _ _ .none (List.cons_ne_nil _ _) fitting rfl rfl rfl layout

/-- A token of a scan was read as a piece where it stands, unless it is the marker behind
the whole text. -/
theorem exists_read_of_mem {cursor : Source.Cursor} {token : Token}
    (member : token ∈ (ofCursor cursor).tokens) (proper : token.kind ≠ .eof) :
    Exists fun passed => Exists fun first => Exists fun ahead => Exists fun piece =>
      cursor.remaining = passed ++ first :: ahead ∧
        Piece.read (cursor.position.after passed) first ahead = .ok piece ∧
        piece.token? (cursor.position.after passed) = some token := by
  fun_induction ofCursor cursor with
  | case1 cursor atEnd =>
      cases List.mem_singleton.mp member
      exact absurd rfl proper
  | case2 => cases member
  | case3 cursor first ahead shape piece run inductionHypothesis =>
      rcases List.mem_append.mp member with here | later
      · exact ⟨[], first, ahead, piece, shape, run, Option.mem_toList.mp here⟩
      · rcases inductionHypothesis later with
          ⟨passed, next, rest, other, shapeRest, runOther, isToken⟩
        rw [← Source.Position.after_append] at runOther isToken
        refine ⟨piece.text ++ passed, next, rest, other, ?_, runOther, isToken⟩
        rw [shape, Piece.cons_eq_of_read run, List.append_assoc, ← shapeRest]

/-- The error of a scan is that of a piece, behind the text that was passed. -/
theorem exists_read_of_failure {cursor : Source.Cursor} {error : LexicalError}
    (failed : (ofCursor cursor).failure = some error) :
    Exists fun passed => Exists fun first => Exists fun ahead =>
      cursor.remaining = passed ++ first :: ahead ∧
        Piece.read (cursor.position.after passed) first ahead = .error error := by
  fun_induction ofCursor cursor with
  | case1 => cases failed
  | case2 cursor first ahead shape error run =>
      cases failed
      exact ⟨[], first, ahead, shape, run⟩
  | case3 cursor first ahead shape piece run inductionHypothesis =>
      rcases inductionHypothesis failed with ⟨passed, next, rest, shapeRest, runOther⟩
      rw [← Source.Position.after_append] at runOther
      refine ⟨piece.text ++ passed, next, rest, ?_, runOther⟩
      rw [shape, Piece.cons_eq_of_read run, List.append_assoc, ← shapeRest]

theorem exists_read_of_tokenize {source : String} {tokens : List Token} {token : Token}
    (scanned : tokenize source = .ok tokens) (member : token ∈ tokens)
    (proper : token.kind ≠ .eof) :
    Exists fun passed => Exists fun first => Exists fun ahead => Exists fun piece =>
      source.toList = passed ++ first :: ahead ∧
        Piece.read (.after .start passed) first ahead = .ok piece ∧
        piece.token? (.after .start passed) = some token := by
  unfold tokenize result at scanned
  split at scanned
  next =>
    cases scanned
    exact exists_read_of_mem member proper
  next => cases scanned

theorem layout_of_tokenize {source : String} {tokens : List Token}
    (scanned : tokenize source = .ok tokens) : Layout .start source.toList tokens := by
  unfold tokenize result at scanned
  split at scanned
  next finished =>
    cases scanned
    exact layout_of_ofCursor _ finished
  next => cases scanned

end Scan

theorem tokenize_eq_ok {source : String} {tokens : List Token}
    (finished : Scan.ofSource source = { tokens := tokens, failure := none }) :
    tokenize source = .ok tokens := by
  rw [tokenize, finished]
  rfl

theorem tokenize_eq_error_iff {source : String} {error : LexicalError} :
    tokenize source = .error error ↔ (Scan.ofSource source).failure = some error := by
  rw [tokenize, Scan.result]
  cases (Scan.ofSource source).failure with
  | none => simp
  | some => simp

end ToyFrontend
