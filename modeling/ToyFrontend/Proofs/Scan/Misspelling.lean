import ToyFrontend.Proofs.Scan.Insertion
import ToyFrontend.Proofs.Scan.Refusal

namespace ToyFrontend

/-!
# The first misspelling

A document that cannot be scanned is well spelt up to some place, and misspelt
there.  `WellSpelt` and `Misspelt` say so without a scanner.  What stands at the
head of a text is well spelt when it is a space, a comment or the longest lexeme
there; what is misspelt has a shape of its own for each cause.  Numbers belong to
both: a run of digits is a lexeme, but its value may exceed the bound.

No text is both, and the well spelt text at the head is determined.  So there is
only one place of a document that is reached over well spelt texts and misspelt,
and this is where a scan fails.
-/

namespace Text

/-- What is dropped belongs to the class, and what is kept does not end with a member of it. -/
theorem exists_dropEndWhile (drop : Char -> Bool) (text : List Char) :
    Exists fun dropped => text = dropEndWhile drop text ++ dropped ∧
      (forall character, character ∈ dropped -> drop character = true) ∧
      forall last, (dropEndWhile drop text).getLast? = some last -> drop last = false := by
  refine ⟨(text.reverse.takeWhile drop).reverse, ?_, ?_, ?_⟩
  · rw [dropEndWhile, ← List.reverse_append, List.takeWhile_append_dropWhile, List.reverse_reverse]
  · intro character member
    exact List.all_eq_true.mp List.all_takeWhile character (List.mem_reverse.mp member)
  · intro last isLast
    have stopped := List.head?_dropWhile_not drop text.reverse
    rw [dropEndWhile, List.getLast?_reverse] at isLast
    rw [isLast] at stopped
    simpa using stopped

theorem dropEndWhile_append {drop : Char -> Bool} {kept dropped : List Char}
    (all : forall character, character ∈ dropped -> drop character = true)
    (stops : forall last, kept.getLast? = some last -> drop last = false) :
    dropEndWhile drop (kept ++ dropped) = kept := by
  have allReversed : forall character, character ∈ dropped.reverse -> drop character = true :=
    fun character member => all character (List.mem_reverse.mp member)
  rw [dropEndWhile, List.reverse_append, List.dropWhile_append_of_pos allReversed]
  rw [← List.head?_reverse] at stops
  cases shape : kept.reverse with
  | nil => rw [List.dropWhile_nil, ← shape, List.reverse_reverse]
  | cons last others =>
      rw [shape] at stops
      rw [List.dropWhile_cons_of_neg (by rw [stops last rfl]; decide), ← shape,
        List.reverse_reverse]

end Text

namespace Scan

open Text.Quoted (Denotes body_append_of_ending)

/-! ## Well spelt texts -/

/-- At the head of a text with this rest stands a space, a comment, or the longest lexeme, which
is not too large a number. -/
inductive WellSpelt : List Char -> List Char -> Prop
  | space {character : Char} {rest : List Char}
      (blank : character ∈ [' ', '\t', '\r', '\n']) : WellSpelt [character] rest
  | comment {line rest : List Char} (unbroken : '\n' ∉ line) (ends : Ahead (· = '\n') rest) :
      WellSpelt ('/' :: '/' :: line) rest
  | lexeme {text rest : List Char} (longest : LongestLexeme (text ++ rest) text)
      (notComment : ¬ ['/', '/'] <+: text ++ rest)
      (bounded : IsNumber text -> Token.decimalValue text <= 2 ^ 63 - 1) : WellSpelt text rest

/-- The first text is made of well spelt texts, as they stand before the second one. -/
inductive Arrives : List Char -> List Char -> Prop
  | nowhere {rest : List Char} : Arrives [] rest
  | further {text others rest : List Char} (first : WellSpelt text (others ++ rest))
      (later : Arrives others rest) : Arrives (text ++ others) rest

/-- What stands at the head of a text can not be passed, and an error says why: no lexeme begins
with the character there, the number there is too large, or the literal there is not complete. -/
inductive Misspelt (place : Source.Position) (first : Char) (ahead : List Char) :
    LexicalError -> Prop
  | stranger (noLetter : first.isAlpha = false) (noDigit : first.isDigit = false)
      (noMark : first ∉ ['_', ' ', '\t', '\r', '\n', '"', '{', '}', '(', ')', '=', '!', '<', '>',
        ';', ',', '+', '-', '/', '*']) :
      Misspelt place first ahead
        { cause := .unrecognisedCharacter
          text := String.ofList [first]
          position := place }
  | overflow {digits rest : List Char} (shape : first :: ahead = digits ++ rest)
      (isNumber : IsNumber digits)
      (ends : Ahead (Char.isDigit · = false) rest)
      (large : 2 ^ 63 - 1 < Token.decimalValue digits) :
      Misspelt place first ahead
        { cause := .integerOverflow
          text := String.ofList digits
          position := place }
  /-- The literal has content and perhaps a lone backslash up to the end of its line, and
  returns there are not shown. -/
  | unterminated {content value lone rest shown returns : List Char}
      (shape : first :: ahead = '"' :: content ++ lone ++ rest) (denotes : Denotes content value)
      (backslash : lone = [] ∨ lone = ['\\'])
      (ends : Ahead (· = '\n') rest)
      (written : '"' :: content ++ lone = shown ++ returns)
      (trimmed : forall character, character ∈ returns -> character = '\r')
      (kept : shown.getLast? ≠ some '\r') :
      Misspelt place first ahead
        { cause := .unterminatedString
          text := String.ofList shown
          position := place }
  | badEscape {content value rest : List Char} {escaped : Char}
      (shape : first :: ahead = '"' :: content ++ '\\' :: escaped :: rest)
      (denotes : Denotes content value) (unknown : escaped ∉ ['n', '"', '\\', '\n']) :
      Misspelt place first ahead
        { cause := .invalidEscape
          text := String.ofList ['\\', escaped]
          position := place.after ('"' :: content) }

/-! ## Misspelt texts are refused -/

section Misspelt

variable {place : Source.Position} {first : Char} {ahead : List Char} {error other : LexicalError}

theorem largestInt_eq : largestInt = 2 ^ 63 - 1 :=
  rfl

theorem misspelt_of_large (digit : first.isDigit = true)
    (above : largestInt < decimal (first :: ahead.takeWhile Char.isDigit)) :
    Misspelt place first ahead
      { cause := .integerOverflow
        text := String.ofList (first :: ahead.takeWhile Char.isDigit)
        position := place } := by
  have shape : first :: ahead =
      first :: ahead.takeWhile Char.isDigit ++ ahead.dropWhile Char.isDigit := by
    rw [List.cons_append, List.takeWhile_append_dropWhile]
  rw [decimal_eq_decimalValue, largestInt_eq] at above
  refine .overflow shape (.mk digit of_mem_takeWhile) ?_ above
  intro character isHead
  have stopped := List.head?_dropWhile_not Char.isDigit ahead
  rw [isHead] at stopped
  simpa using stopped

theorem misspelt_of_unterminated {content value lone rest : List Char}
    (denotes : Denotes content value) (backslash : lone = [] ∨ lone = ['\\'])
    (ends : Ahead (· = '\n') rest) :
    Misspelt place '"' (content ++ (lone ++ rest))
      { cause := .unterminatedString
        text := String.ofList (Text.dropEndWhile (· == '\r') ('"' :: (content ++ lone)))
        position := place } := by
  rcases Text.exists_dropEndWhile (· == '\r') ('"' :: (content ++ lone)) with
    ⟨returns, written, trimmed, kept⟩
  refine .unterminated (by simp) denotes backslash ends written ?_ ?_
  · exact fun character member => beq_iff_eq.mp (trimmed character member)
  · intro isReturn
    cases kept '\r' isReturn

theorem misspelt_of_refused (refused : Refused place first ahead error) :
    Misspelt place first ahead error := by
  cases refused with
  | large digit above => exact misspelt_of_large digit above
  | unterminated isQuote opened =>
      subst isQuote
      rcases Text.Quoted.exists_ending ahead with
        ⟨content, value, rest, found, rfl, denotes, ending⟩
      rw [body_append_of_ending denotes ending] at opened
      have lineFeed (rest : List Char) : Ahead (· = '\n') ('\n' :: rest) := by
        rintro character ⟨⟩
        rfl
      have atEnd : Ahead (· = '\n') [] := by
        rintro character ⟨⟩
      cases ending with
      | quote | badEscape => cases opened
      | nothing =>
          cases opened
          exact misspelt_of_unterminated denotes (.inl rfl) atEnd
      | lineFeed rest =>
          cases opened
          exact misspelt_of_unterminated denotes (.inl rfl) (lineFeed rest)
      | backslash =>
          cases opened
          exact misspelt_of_unterminated denotes (.inr rfl) atEnd
      | backslashLineFeed rest =>
          cases opened
          exact misspelt_of_unterminated denotes (.inr rfl) (lineFeed rest)
  | badEscape isQuote bad =>
      subst isQuote
      rcases Text.Quoted.exists_ending ahead with
        ⟨content, value, rest, found, rfl, denotes, ending⟩
      rw [body_append_of_ending denotes ending] at bad
      cases ending with
      | nothing | quote | lineFeed | backslash | backslashLineFeed => cases bad
      | @badEscape escaped notLineFeed unknown rest =>
          cases bad
          rw [List.append_nil, Source.Position.along_eq_after _ (by simp [denotes.unbroken])]
          refine .badEscape rfl denotes ?_
          unfold Text.Quoted.unescape? at unknown
          split at unknown <;> simp_all
  | stranger noWord noDigit noSpace noQuote noMark =>
      rcases Bool.or_eq_false_iff.mp noWord with ⟨noLetter, noUnderscore⟩
      refine .stranger noLetter noDigit ?_
      simp [isSpace, markStarts] at noSpace noUnderscore noMark ⊢
      simp [noSpace, noUnderscore, noMark, noQuote]

theorem refused_of_misspelt (misspelt : Misspelt place first ahead error) :
    Refused place first ahead error := by
  cases misspelt with
  | stranger noLetter noDigit noMark =>
      simp only [List.mem_cons, List.not_mem_nil, or_false, not_or] at noMark
      refine .stranger ?_ noDigit ?_ noMark.2.2.2.2.2.1 ?_
      · simp [isWordStart, noLetter, noMark]
      · simp [isSpace, noMark]
      · simp [markStarts, noMark]
  | @overflow digits rest shape isNumber ends large =>
      cases isNumber with
      | mk digit goesOn =>
          rcases List.cons_eq_cons.mp shape with ⟨rfl, rfl⟩
          have run := takeWhile_append_of_ahead goesOn ends
          rw [← decimal_eq_decimalValue, ← largestInt_eq, ← run] at large
          have refused := @Refused.large place first _ digit large
          rwa [run] at refused
  | @unterminated content value lone rest shown returns shape denotes backslash ends written
      trimmed kept =>
      rcases List.cons_eq_cons.mp shape with ⟨rfl, rfl⟩
      have ending : Text.Quoted.Ending (lone ++ rest) (.unterminated lone) := by
        cases rest with
        | nil => rcases backslash with rfl | rfl <;> constructor
        | cons character rest =>
            cases ends character rfl
            rcases backslash with rfl | rfl <;> constructor
      have opened := body_append_of_ending denotes ending
      rw [← List.append_assoc] at opened
      have isShown : Text.dropEndWhile (· == '\r') ('"' :: (content ++ lone)) = shown := by
        rw [← List.cons_append, written]
        apply Text.dropEndWhile_append
        · exact fun character member => beq_iff_eq.mpr (trimmed character member)
        · intro last isLast
          apply beq_eq_false_iff_ne.mpr
          rintro rfl
          exact kept isLast
      rw [← isShown]
      exact .unterminated rfl opened
  | @badEscape content value rest escaped shape denotes unknown =>
      rcases List.cons_eq_cons.mp shape with ⟨rfl, rfl⟩
      simp only [List.mem_cons, List.not_mem_nil, or_false, not_or] at unknown
      have isNone : Text.Quoted.unescape? escaped = none := by
        unfold Text.Quoted.unescape?
        split <;> simp_all
      have bad := body_append_of_ending denotes (.badEscape unknown.2.2.2 isNone rest)
      rw [← Source.Position.along_eq_after _ (by simp [denotes.unbroken])]
      rw [Text.Quoted.Body.behind, List.append_nil] at bad
      exact .badEscape rfl bad

/-- A misspelt text has one cause, and one error says so. -/
theorem Misspelt.unique (misspelt : Misspelt place first ahead error)
    (again : Misspelt place first ahead other) : other = error :=
  (refused_of_misspelt again).unique (refused_of_misspelt misspelt)

end Misspelt

/-! ## Well spelt texts are read -/

theorem LongestLexeme.unique {ahead text other : List Char} (longest : LongestLexeme ahead text)
    (again : LongestLexeme ahead other) : text = other := by
  have notLonger := again.longest text longest.lexeme longest.stands
  have notShorter := longest.longest other again.lexeme again.stands
  have isPrefix := List.prefix_of_prefix_length_le longest.stands again.stands notLonger
  exact isPrefix.eq_of_length (Nat.le_antisymm notLonger notShorter)

/-- A lexeme has a first character, and that is no space. -/
theorem Lexeme.exists_head {text : List Char} (lexeme : Lexeme text) :
    Exists fun first => Exists fun tail => text = first :: tail ∧ isSpace first = false := by
  cases text with
  | nil =>
      rcases @Lexeme.of_isPrefix 'a' [] _ lexeme List.nil_prefix with ⟨tail, impossible, -⟩
      cases impossible
  | cons first tail =>
      refine ⟨first, tail, rfl, Bool.eq_false_iff.mpr ?_⟩
      intro space
      rcases lexeme.of_isPrefix List.prefix_rfl with
        ⟨_, -, -, ⟨letter, -⟩ | ⟨digit, -⟩ | ⟨rfl, -⟩ | isMark⟩
      · have noLetter : isWordStart first = false := by
          have among := isSpace_iff.mp space
          simp only [List.mem_cons, List.not_mem_nil, or_false] at among
          rcases among with rfl | rfl | rfl | rfl <;> decide
        rw [noLetter] at letter
        cases letter
      · rw [(apart_of_isSpace space).2.1] at digit
        cases digit
      · cases space
      · rw [not_isSpace_of_mem_markStarts (tail_of_mark isMark).1] at space
        cases space

/-- A lexeme that begins with a quote is a literal that is closed. -/
theorem Lexeme.exists_body {ahead text : List Char} (lexeme : Lexeme text)
    (stands : text <+: '"' :: ahead) :
    Exists fun value => Exists fun written =>
      Text.Quoted.body ahead = .closed value written := by
  rcases lexeme.of_isPrefix stands with
    ⟨tail, rfl, standsTail, ⟨letter, -⟩ | ⟨digit, -⟩ | ⟨-, content, value, rfl, denotes⟩ | isMark⟩
  · cases letter
  · cases digit
  · rcases standsTail with ⟨rest, rfl⟩
    rw [List.append_assoc, List.singleton_append]
    exact ⟨_, _, Text.Quoted.body_of_denotes denotes rest⟩
  · exact absurd rfl (of_mem_markStarts (tail_of_mark isMark).1).2.2

/-- Where a lexeme stands and is refused, it is a number that is too large. -/
theorem large_of_refused {start : Source.Position} {first : Char} {ahead text : List Char}
    {error : LexicalError} (refused : Refused start first ahead error)
    (longest : LongestLexeme (first :: ahead) text) :
    IsNumber text ∧ 2 ^ 63 - 1 < Token.decimalValue text := by
  cases refused with
  | large digit above =>
      rw [longest.unique (longest_number digit ahead), ← decimal_eq_decimalValue]
      exact ⟨.mk digit of_mem_takeWhile, above⟩
  | unterminated isQuote opened =>
      subst isQuote
      rcases longest.lexeme.exists_body longest.stands with ⟨value, written, closed⟩
      rw [closed] at opened
      cases opened
  | badEscape isQuote bad =>
      subst isQuote
      rcases longest.lexeme.exists_body longest.stands with ⟨value, written, closed⟩
      rw [closed] at bad
      cases bad
  | stranger noWord noDigit noSpace noQuote noMark =>
      rcases longest.lexeme.of_isPrefix longest.stands with
        ⟨tail, rfl, -, ⟨letter, -⟩ | ⟨digit, -⟩ | ⟨quote, -⟩ | isMark⟩
      · exact absurd (letter.symm.trans noWord) (by decide)
      · exact absurd (digit.symm.trans noDigit) (by decide)
      · exact absurd quote noQuote
      · exact absurd (tail_of_mark isMark).1 noMark

/-- A gap begins with a space or with two slashes. -/
theorem Filler.exists_head {filler rest : List Char} (isFiller : Filler filler rest) :
    (Exists fun first => Exists fun others => filler = first :: others ∧ isSpace first = true) ∨
      ['/', '/'] <+: filler := by
  cases isFiller with
  | spaces nonempty blank =>
      rcases List.exists_cons_of_ne_nil nonempty with ⟨first, others, rfl⟩
      exact .inl ⟨first, others, rfl, isSpace_iff.mpr (blank first List.mem_cons_self)⟩
  | comment => exact .inr ⟨_, rfl⟩

theorem read_of_longest {first : Char} {tail rest : List Char}
    (longest : LongestLexeme (first :: tail ++ rest) (first :: tail))
    (notComment : ¬ ['/', '/'] <+: first :: tail ++ rest)
    (bounded : IsNumber (first :: tail) -> Token.decimalValue (first :: tail) <= 2 ^ 63 - 1)
    (start : Source.Position) :
    Exists fun piece => Piece.read start first (tail ++ rest) = .ok piece ∧
      piece.text = first :: tail ∧ piece.content ≠ .gap := by
  cases run : Piece.read start first (tail ++ rest) with
  | error error =>
      rcases large_of_refused (refused_of_read run) longest with ⟨isNumber, above⟩
      exact absurd (bounded isNumber) (Nat.not_le_of_gt above)
  | ok piece =>
      refine ⟨piece, rfl, ?_⟩
      cases content : piece.content with
      | lexeme kind value =>
          have isToken : piece.token? start = some _ :=
            Piece.token?_eq_some_iff.mpr ⟨kind, value, content, rfl⟩
          have recognized := (recognized_of_read run isToken).longest
          rw [String.toList_ofList] at recognized
          exact ⟨recognized.unique longest, by rintro ⟨⟩⟩
      | gap =>
          have fitting := (Piece.fitting_of_read run).2.2
          have whole := Piece.cons_eq_of_read run
          rw [Piece.Fitting, content] at fitting
          rcases fitting.exists_head with ⟨character, others, same, space⟩ | comment
          · rw [same] at whole
            rcases longest.lexeme.exists_head with ⟨_, _, ⟨⟩, noSpace⟩
            rw [← (List.cons_eq_cons.mp whole).1, noSpace] at space
            cases space
          · rw [List.cons_append, whole] at notComment
            exact absurd (comment.trans (List.prefix_append _ _)) notComment

/-- What is well spelt is read as one piece, except that a space is read with those behind it. -/
theorem WellSpelt.read {text rest : List Char} (spelt : WellSpelt text rest) :
    Exists fun first => Exists fun tail => text = first :: tail ∧ forall start,
      Exists fun piece => Piece.read start first (tail ++ rest) = .ok piece ∧
        (isSpace first = true ∧ tail = [] ∨ isSpace first = false ∧ piece.text = text) := by
  cases spelt with
  | @space character _ blank =>
      have space := isSpace_iff.mpr blank
      exact ⟨character, [], rfl, fun start =>
        ⟨_, read_of_space space start rest, .inl ⟨space, rfl⟩⟩⟩
  | @comment line _ unbroken ends =>
      exact ⟨'/', '/' :: line, rfl, fun start =>
        ⟨_, read_of_comment unbroken ends start, .inr ⟨rfl, rfl⟩⟩⟩
  | lexeme longest notComment bounded =>
      rcases longest.lexeme.exists_head with ⟨first, tail, rfl, noSpace⟩
      refine ⟨first, tail, rfl, fun start => ?_⟩
      rcases read_of_longest longest notComment bounded start with ⟨piece, run, written, -⟩
      exact ⟨piece, run, .inr ⟨noSpace, written⟩⟩

/-- There is only one well spelt text at the head of a text. -/
theorem WellSpelt.unique {text rest other behind : List Char} (spelt : WellSpelt text rest)
    (again : WellSpelt other behind) (same : text ++ rest = other ++ behind) : text = other := by
  rcases spelt.read with ⟨first, tail, rfl, reads⟩
  rcases again.read with ⟨_, otherTail, rfl, readsAgain⟩
  rcases List.cons_eq_cons.mp same with ⟨rfl, sameTail⟩
  rcases reads .start with ⟨piece, run, shape⟩
  rcases readsAgain .start with ⟨otherPiece, runAgain, shapeAgain⟩
  rcases shape with ⟨space, rfl⟩ | ⟨noSpace, written⟩
  · rcases shapeAgain with ⟨-, rfl⟩ | ⟨noSpace, -⟩
    · rfl
    · exact absurd (space.symm.trans noSpace) (by decide)
  · rcases shapeAgain with ⟨space, -⟩ | ⟨-, writtenAgain⟩
    · exact absurd (space.symm.trans noSpace) (by decide)
    · change tail ++ rest = otherTail ++ behind at sameTail
      rw [sameTail, runAgain] at run
      cases run
      exact written.symm.trans writtenAgain

/-- What is well spelt is not misspelt. -/
theorem WellSpelt.not_misspelt {text rest : List Char} {place : Source.Position} {first : Char}
    {ahead : List Char} {error : LexicalError} (spelt : WellSpelt text rest)
    (same : text ++ rest = first :: ahead) : ¬ Misspelt place first ahead error := by
  intro misspelt
  rcases spelt.read with ⟨_, tail, rfl, reads⟩
  rcases List.cons_eq_cons.mp same with ⟨rfl, rfl⟩
  rcases reads place with ⟨piece, run, -⟩
  have failed := read_of_refused (refused_of_misspelt misspelt)
  change Piece.read place _ (tail ++ rest) = _ at failed
  rw [run] at failed
  cases failed

/-! ## The way to a place -/

theorem behind_behind (scan : Scan) (tokens others : List Token) :
    (scan.behind others).behind tokens = scan.behind (tokens ++ others) := by
  unfold behind
  rw [List.append_assoc]

/-- A scan passes what is well spelt. -/
theorem WellSpelt.ofCursor {text rest : List Char} (spelt : WellSpelt text rest)
    (position : Source.Position) :
    Exists fun tokens => Scan.ofCursor { position, remaining := text ++ rest } =
      (Scan.ofCursor { position := position.after text, remaining := rest }).behind tokens := by
  rcases spelt.read with ⟨first, tail, rfl, reads⟩
  rcases reads position with ⟨piece, run, ⟨space, rfl⟩ | ⟨-, written⟩⟩
  · exact ⟨[], ofCursor_space space position rest⟩
  · have step := ofCursor_of_read run
    rw [written, (List.cons_eq_cons.mp written).2, List.drop_left] at step
    exact ⟨_, step⟩

theorem Arrives.ofCursor {passed rest : List Char} (arrives : Arrives passed rest)
    (position : Source.Position) :
    Exists fun tokens => Scan.ofCursor { position, remaining := passed ++ rest } =
      (Scan.ofCursor { position := position.after passed, remaining := rest }).behind tokens := by
  induction arrives generalizing position with
  | nowhere => exact ⟨[], rfl⟩
  | @further text others rest first later inductionHypothesis =>
      rcases first.ofCursor position with ⟨tokens, step⟩
      rcases inductionHypothesis (position.after text) with ⟨more, steps⟩
      refine ⟨tokens ++ more, ?_⟩
      rw [List.append_assoc, step, steps, Source.Position.after_append, behind_behind]

/-- What is well spelt before some text is well spelt before a beginning of that text. -/
theorem WellSpelt.before {text others rest : List Char}
    (spelt : WellSpelt text (others ++ rest)) : WellSpelt text others := by
  have shorter {other : List Char} (stands : other <+: text ++ others) :
      other <+: text ++ (others ++ rest) :=
    stands.trans ⟨rest, List.append_assoc _ _ _⟩
  cases spelt with
  | space blank => exact .space blank
  | comment unbroken ends =>
      refine .comment unbroken fun character isHead => ends character ?_
      rw [List.head?_append, isHead, Option.some_or]
  | lexeme longest notComment bounded =>
      refine .lexeme ⟨longest.lexeme, List.prefix_append _ _, ?_⟩ ?_ bounded
      · exact fun other lexeme stands => longest.longest other lexeme (shorter stands)
      · exact fun comment => notComment (shorter comment)

theorem Arrives.before {passed rest : List Char} (arrives : Arrives passed rest) :
    Arrives passed [] := by
  induction arrives with
  | nowhere => exact .nowhere
  | further first _ inductionHypothesis =>
      refine .further ?_ inductionHypothesis
      rw [List.append_nil]
      exact first.before

/-- A misspelt place is reached in one way. -/
theorem Arrives.unique {passed rest before behind : List Char} (arrives : Arrives passed rest)
    (again : Arrives before behind) (same : passed ++ rest = before ++ behind)
    (stops : forall text others, WellSpelt text others -> text ++ others ≠ rest)
    (stopsAgain : forall text others, WellSpelt text others -> text ++ others ≠ behind) :
    before = passed := by
  induction arrives generalizing before with
  | nowhere =>
      cases again with
      | nowhere => rfl
      | further first => exact absurd (same.trans (List.append_assoc _ _ _)).symm (stops _ _ first)
  | @further text others rest first later inductionHypothesis =>
      cases again with
      | nowhere =>
          rw [List.append_assoc] at same
          exact absurd same (stopsAgain _ _ first)
      | @further otherText otherOthers _ firstAgain laterAgain =>
          rw [List.append_assoc, List.append_assoc] at same
          cases first.unique firstAgain same
          rw [inductionHypothesis laterAgain (List.append_cancel_left same) stops]

/-! ## Where a scan fails -/

theorem arrives_of_filler {filler passed rest : List Char} (first : Filler filler (passed ++ rest))
    (later : Arrives passed rest) : Arrives (filler ++ passed) rest := by
  cases first with
  | comment unbroken ends => exact .further (.comment unbroken ends) later
  | spaces nonempty blank =>
      clear nonempty
      induction filler with
      | nil => exact later
      | cons character filler inductionHypothesis =>
          have others := inductionHypothesis fun other member =>
            blank other (List.mem_cons_of_mem character member)
          have isSpace : WellSpelt [character] (filler ++ passed ++ rest) :=
            .space (blank character List.mem_cons_self)
          exact @Arrives.further [character] (filler ++ passed) rest isSpace others

theorem bounded_of_read {start : Source.Position} {first : Char} {ahead : List Char}
    {piece : Piece} (run : Piece.read start first ahead = .ok piece)
    (isNumber : IsNumber piece.text) : Token.decimalValue piece.text <= 2 ^ 63 - 1 := by
  have isFirst := (Piece.fitting_of_read run).1
  generalize written : piece.text = text at isNumber ⊢
  cases isNumber with
  | mk digit goesOn =>
      cases (List.cons_eq_cons.mp written).1
      rw [isFirst] at digit
      have noWord : ¬ isWordStart first = true := fun starts => by
        rw [not_isDigit_of_isWordStart starts] at digit
        cases digit
      rw [Piece.read, if_neg noWord, if_pos digit, Piece.number] at run
      split at run
      next bounded =>
        cases run
        rw [← written, ← decimal_eq_decimalValue]
        exact bounded
      next => cases run

/-- A piece is well spelt, character by character if it is made of spaces. -/
theorem arrives_of_read {start : Source.Position} {first : Char} {ahead passed rest : List Char}
    {piece : Piece} (run : Piece.read start first ahead = .ok piece)
    (others : ahead.drop piece.tail.length = passed ++ rest) (later : Arrives passed rest) :
    Arrives (piece.text ++ passed) rest := by
  have whole := Piece.cons_eq_of_read run
  have fitting := (Piece.fitting_of_read run).2.2
  rw [others] at whole fitting
  cases content : piece.content with
  | gap =>
      rw [Piece.Fitting, content] at fitting
      exact arrives_of_filler fitting later
  | lexeme kind value =>
      have isToken : piece.token? start = some _ :=
        Piece.token?_eq_some_iff.mpr ⟨kind, value, content, rfl⟩
      have recognized := recognized_of_read run isToken
      have longest := recognized.longest
      have notComment := recognized.notComment
      rw [String.toList_ofList, whole] at longest
      rw [whole] at notComment
      exact .further (.lexeme longest notComment (bounded_of_read run)) later

/-- A scan that fails arrives over well spelt texts where it fails. -/
theorem exists_arrives_of_failure {cursor : Source.Cursor} {error : LexicalError}
    (failed : (ofCursor cursor).failure = some error) :
    Exists fun passed => Exists fun first => Exists fun ahead =>
      cursor.remaining = passed ++ first :: ahead ∧ Arrives passed (first :: ahead) ∧
        Misspelt (cursor.position.after passed) first ahead error := by
  fun_induction Scan.ofCursor cursor with
  | case1 => cases failed
  | case2 cursor first ahead shape error run =>
      cases failed
      exact ⟨[], first, ahead, shape, .nowhere, misspelt_of_refused (refused_of_read run)⟩
  | case3 cursor first ahead shape piece run inductionHypothesis =>
      rcases inductionHypothesis failed with ⟨passed, next, rest, shapeRest, later, misspelt⟩
      rw [← Source.Position.after_append] at misspelt
      refine ⟨piece.text ++ passed, next, rest, ?_, arrives_of_read run shapeRest later, misspelt⟩
      rw [shape, Piece.cons_eq_of_read run, List.append_assoc, ← shapeRest]

theorem failure_of_misspelt {position : Source.Position} {first : Char} {ahead : List Char}
    {error : LexicalError} (misspelt : Misspelt position first ahead error) :
    (ofCursor { position, remaining := first :: ahead }).failure = some error := by
  rw [ofCursor]
  simp only [read_of_refused (refused_of_misspelt misspelt)]

end Scan

/-- What leads to a misspelt place is itself a document that can be scanned. -/
theorem exists_tokenize_of_arrives {passed rest : List Char} (arrives : Scan.Arrives passed rest) :
    Exists fun tokens => tokenize (String.ofList passed) = .ok tokens := by
  rcases arrives.before.ofCursor .start with ⟨tokens, scan⟩
  rw [List.append_nil, Scan.ofCursor_nil, ← @String.toList_ofList passed] at scan
  exact ⟨_, tokenize_eq_ok scan⟩

/-- A scan fails with an error where the document is misspelt for the first time: the text
before is well spelt and can be scanned, and no other error and no other place will do. -/
theorem tokenize_eq_error_iff_misspelt {source : String} {error : LexicalError} :
    tokenize source = .error error ↔
      Exists fun passed => Exists fun first => Exists fun ahead =>
        source.toList = passed ++ first :: ahead ∧
        Scan.Arrives passed (first :: ahead) ∧
        (Exists fun tokens => tokenize (String.ofList passed) = .ok tokens) ∧
        Scan.Misspelt (.after .start passed) first ahead error ∧
        (forall other, Scan.Misspelt (.after .start passed) first ahead other -> other = error) ∧
        forall before next behind other, source.toList = before ++ next :: behind ->
          Scan.Arrives before (next :: behind) ->
          Scan.Misspelt (.after .start before) next behind other -> before = passed := by
  rw [tokenize_eq_error_iff]
  constructor
  · intro failed
    rcases Scan.exists_arrives_of_failure failed with
      ⟨passed, first, ahead, shape, arrives, misspelt⟩
    refine ⟨passed, first, ahead, shape, arrives, exists_tokenize_of_arrives arrives, misspelt,
      fun other again => misspelt.unique again, ?_⟩
    intro before next behind other shapeAgain arrivesAgain misspeltAgain
    have same := shape.symm.trans shapeAgain
    refine arrives.unique arrivesAgain same ?_ ?_
    · exact fun text others spelt sameText => spelt.not_misspelt sameText misspelt
    · exact fun text others spelt sameText => spelt.not_misspelt sameText misspeltAgain
  · rintro ⟨passed, first, ahead, shape, arrives, -, misspelt, -, -⟩
    rcases arrives.ofCursor .start with ⟨tokens, scan⟩
    rw [Scan.ofSource, Source.Cursor.ofText, shape, scan]
    exact Scan.failure_of_misspelt misspelt

end ToyFrontend
