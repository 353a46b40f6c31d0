import ToyFrontend.Proofs.Relocation
import ToyFrontend.Proofs.Scan.Spelling

namespace ToyFrontend
namespace Scan

/-!
# Scanning on behind a line feed

A line feed ends whatever stands before it: no word, number or mark goes on with
it, a comment stops there, and a literal that is complete has stopped before.  So
a text that can be scanned is scanned in the same way in front of a line feed and
more text, and the scan of the rest begins afresh.  The one piece that a line feed
does join is a run of spaces, which has no token.

Where a scan begins has no part in what it finds.  Its tokens are only further
down.
-/

/-! ## Pieces before a space -/

theorem takeWhile_append_cons {belongs : Char -> Bool} {character : Char}
    (stops : belongs character = false) (ahead rest : List Char) :
    (ahead ++ character :: rest).takeWhile belongs = ahead.takeWhile belongs := by
  induction ahead with
  | nil => rw [List.nil_append, List.takeWhile_cons_of_neg (by simp [stops]), List.takeWhile_nil]
  | cons first ahead inductionHypothesis =>
      rw [List.cons_append, List.takeWhile_cons, List.takeWhile_cons, inductionHypothesis]

theorem head?_append_cons {character other : Char} (different : other ≠ character)
    (ahead rest : List Char) :
    (ahead ++ character :: rest).head? = some other ↔ ahead.head? = some other := by
  cases ahead with
  | nil => simp [different.symm]
  | cons => simp

/-- A complete literal is the same whatever stands behind it. -/
theorem string_append {start : Source.Position} {ahead : List Char} {piece : Piece}
    (run : Piece.string start ahead = .ok piece) (rest : List Char) :
    Piece.string start (ahead ++ rest) = .ok piece := by
  unfold Piece.string at run
  split at run
  next value written closed =>
    rcases Text.Quoted.written_isPrefix closed with ⟨behind, rfl⟩
    rcases Text.Quoted.denotes_of_body closed with ⟨content, rfl, denotes⟩
    have again := Text.Quoted.body_of_denotes denotes (behind ++ rest)
    rw [Piece.string, List.append_assoc, List.append_assoc, List.singleton_append, again]
    exact run
  next => cases run
  next => cases run

/-- No piece goes on with a space, except for a run of spaces, and a comment that is not
ended by a line feed. -/
theorem read_append_space {start : Source.Position} {first character : Char}
    {ahead : List Char} {piece : Piece} (noSpace : isSpace first = false)
    (space : isSpace character = true)
    (ends : piece.content = .gap -> character = '\n')
    (run : Piece.read start first ahead = .ok piece) (rest : List Char) :
    Piece.read start first (ahead ++ character :: rest) = .ok piece := by
  have among : character ∈ [' ', '\t', '\r', '\n'] := by
    simpa [isSpace, or_assoc] using space
  have apart : isWordPart character = false ∧ character.isDigit = false ∧
      '/' ≠ character ∧ '=' ≠ character := by
    simp only [List.mem_cons, List.not_mem_nil, or_false] at among
    rcases among with rfl | rfl | rfl | rfl <;> decide
  rcases apart with ⟨noWordPart, noDigit, noSlash, noEquals⟩
  unfold Piece.read at run ⊢
  by_cases starts : isWordStart first = true
  · rw [if_pos starts] at run ⊢
    rw [Piece.word, takeWhile_append_cons noWordPart]
    exact run
  rw [if_neg starts] at run ⊢
  by_cases digit : first.isDigit = true
  · rw [if_pos digit] at run ⊢
    rw [Piece.number, takeWhile_append_cons noDigit]
    exact run
  rw [if_neg digit, if_neg (Bool.eq_false_iff.mp noSpace)] at run ⊢
  by_cases isQuote : first = '"'
  · rw [if_pos isQuote] at run ⊢
    exact string_append run _
  rw [if_neg isQuote] at run ⊢
  simp only [head?_append_cons noSlash] at run ⊢
  by_cases comment : (first = '/' && ahead.head? = some '/') = true
  · rw [if_pos comment] at run ⊢
    cases run
    cases ends rfl
    rw [takeWhile_append_cons (by decide)]
  rw [if_neg comment] at run ⊢
  have sameSymbol : Piece.symbol? first (ahead ++ character :: rest) =
      Piece.symbol? first ahead := by
    unfold Piece.symbol?
    simp only [head?_append_cons noEquals]
  rw [sameSymbol]
  exact run

/-! ## Scanning on -/

theorem tokens_ne_nil {cursor : Source.Cursor} (finished : (ofCursor cursor).failure = none) :
    (ofCursor cursor).tokens ≠ [] := by
  rcases (layout_of_ofCursor cursor finished).marked with ⟨lexemes, shape, -⟩
  rw [shape]
  simp

theorem dropLast_prepend {scan : Scan} (nonempty : scan.tokens ≠ []) (token : Option Token) :
    (scan.prepend token).tokens.dropLast = token.toList ++ scan.tokens.dropLast :=
  List.dropLast_append_of_ne_nil nonempty

/-- Before a line feed a text has the tokens that it has alone, without the marker. -/
theorem ofCursor_append_lineFeed {position : Source.Position} {text : List Char}
    (finished : (ofCursor { position, remaining := text }).failure = none) (rest : List Char) :
    ofCursor { position, remaining := text ++ '\n' :: rest } =
      (ofCursor { position := (position.after text).next '\n', remaining := rest }).behind
        (ofCursor { position, remaining := text }).tokens.dropLast := by
  -- The run is on the length of the text, since a run of spaces is passed one by one.
  induction size : text.length using Nat.strongRecOn generalizing text position with
  | _ length inductionHypothesis =>
      subst size
      cases text with
      | nil =>
          rw [ofCursor_nil, List.nil_append, ofCursor_space (by decide)]
          rfl
      | cons first ahead =>
          by_cases space : isSpace first = true
          · rw [ofCursor_space space] at finished ⊢
            rw [List.cons_append, ofCursor_space space]
            exact inductionHypothesis _ (by simp) finished rfl
          · cases run : Piece.read position first ahead with
            | error error =>
                rw [ofCursor] at finished
                simp [run] at finished
            | ok piece =>
                have runOn := read_append_space (Bool.eq_false_iff.mpr space) (by decide)
                  (fun _ => rfl) run rest
                have within := (Piece.fitting_of_read run).2.1.length_le
                have shorter : (ahead.drop piece.tail.length).length < (first :: ahead).length := by
                  rw [List.length_drop, List.length_cons]
                  omega
                rw [ofCursor_of_read run] at finished ⊢
                rw [List.cons_append, ofCursor_of_read runOn, List.drop_append_of_le_length within,
                  inductionHypothesis _ shorter finished rfl,
                  dropLast_prepend (tokens_ne_nil finished), ← Source.Position.after_append,
                  ← Piece.cons_eq_of_read run]
                simp [behind, prepend]

/-! ## Scanning further down -/

/-- The scan with all places replaced; an error is left where it is. -/
def relocate (move : Source.Position -> Source.Position) (scan : Scan) : Scan :=
  { scan with tokens := scan.tokens.map (Token.relocate move) }

/-- Places are only kept in errors, so a piece is found wherever the text stands. -/
theorem read_of_read {start : Source.Position} {first : Char} {ahead : List Char} {piece : Piece}
    (run : Piece.read start first ahead = .ok piece) (other : Source.Position) :
    Piece.read other first ahead = .ok piece := by
  unfold Piece.read at run ⊢
  by_cases starts : isWordStart first = true
  · rw [if_pos starts] at run ⊢
    exact run
  rw [if_neg starts] at run ⊢
  by_cases digit : first.isDigit = true
  · rw [if_pos digit, Piece.number] at run ⊢
    split at run
    next bounded =>
      rw [if_pos bounded]
      exact run
    next => cases run
  rw [if_neg digit] at run ⊢
  by_cases space : isSpace first = true
  · rw [if_pos space] at run ⊢
    exact run
  rw [if_neg space] at run ⊢
  by_cases isQuote : first = '"'
  · rw [if_pos isQuote, Piece.string] at run ⊢
    cases closed : Text.Quoted.body ahead with
    | closed value written =>
        rw [closed] at run
        exact run
    | unterminated written =>
        rw [closed] at run
        cases run
    | badEscape before escaped =>
        rw [closed] at run
        cases run
  rw [if_neg isQuote] at run ⊢
  by_cases comment : (first = '/' && ahead.head? = some '/') = true
  · rw [if_pos comment] at run ⊢
    exact run
  rw [if_neg comment] at run ⊢
  cases found : Piece.symbol? first ahead with
  | some symbol =>
      rw [found] at run
      exact run
  | none =>
      rw [found] at run
      cases run

theorem after_of_next {move : Source.Position -> Source.Position}
    (commutes : forall position character,
      move (position.next character) = (move position).next character)
    (position : Source.Position) (text : List Char) :
    move (position.after text) = (move position).after text := by
  induction text generalizing position with
  | nil => rfl
  | cons character text inductionHypothesis =>
      rw [Source.Position.after_cons, Source.Position.after_cons, inductionHypothesis, commutes]

/-- If characters move on alike before and behind, then so does a scan. -/
theorem ofCursor_relocate {move : Source.Position -> Source.Position}
    (commutes : forall position character,
      move (position.next character) = (move position).next character)
    {cursor : Source.Cursor} (finished : (ofCursor cursor).failure = none) :
    ofCursor { cursor with position := move cursor.position } =
      (ofCursor cursor).relocate move := by
  fun_induction ofCursor cursor with
  | case1 cursor atEnd =>
      rcases cursor with ⟨position, remaining⟩
      cases atEnd
      exact ofCursor_nil _
  | case2 => cases finished
  | case3 cursor first ahead shape piece run inductionHypothesis =>
      rcases cursor with ⟨position, remaining⟩
      cases shape
      have later := inductionHypothesis finished
      dsimp only at run later ⊢
      rw [ofCursor_of_read (read_of_read run (move position)), ← after_of_next commutes, later]
      have token : piece.token? (move position) =
          (piece.token? position).map (Token.relocate move) := by
        unfold Piece.token?
        cases piece.content with
        | gap => rfl
        | lexeme kind value =>
            rw [← after_of_next commutes]
            rfl
      rw [token]
      cases piece.token? position <;> rfl

end Scan
end ToyFrontend
