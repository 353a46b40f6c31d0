import ToyFrontend.Proofs.Scan.Misspelling

namespace ToyFrontend

namespace Source

/-- What stands in a document between each token and the next one. -/
def gapsBehind (document : String) : List Token -> List ByteArray
  | first :: second :: others =>
      slice document first.span.finish.offset second.span.start.offset ::
        gapsBehind document (second :: others)
  | _ => []

end Source

namespace Scan

/-!
# Separated lexemes are scanned back

A document may be written down from its lexemes: one after the other, each with a
separator behind it.  The scanner finds these lexemes again and no others, and what
it leaves between two tokens is the separator that was written there.

Two things could go wrong, and both are a matter of one character.  A lexeme could
go on into its separator; but a separator begins with a space, and no lexeme goes
on with a space.  And a comment could hide a lexeme; but the comments of a
separator are ended by line feeds of their own.  What else a comment holds does not
count.
-/

/-! ## Separators -/

/-- A gap before every text: spaces, and comments that a line feed ends. -/
inductive ClosedGap : List Char -> Prop
  | none : ClosedGap []
  | space {character : Char} {rest : List Char} (blank : character ∈ [' ', '\t', '\r', '\n'])
      (others : ClosedGap rest) : ClosedGap (character :: rest)
  | comment {line rest : List Char} (unbroken : '\n' ∉ line) (others : ClosedGap rest) :
      ClosedGap ('/' :: '/' :: line ++ '\n' :: rest)

/-- A closed gap that begins with a space, so that it is apart from what stands before it. -/
inductive Separator : List Char -> Prop
  | mk {character : Char} {rest : List Char} (blank : character ∈ [' ', '\t', '\r', '\n'])
      (others : ClosedGap rest) : Separator (character :: rest)

theorem filler_space {character : Char} (blank : character ∈ [' ', '\t', '\r', '\n'])
    (rest : List Char) : Filler [character] rest := by
  apply Filler.spaces (List.cons_ne_nil _ _)
  intro other member
  rwa [List.mem_singleton.mp member]

theorem ClosedGap.gap {text : List Char} (closed : ClosedGap text) (rest : List Char) :
    Gap text rest := by
  induction closed with
  | none => exact .none
  | @space character others blank _ inductionHypothesis =>
      exact @Gap.more [character] others rest (filler_space blank _) inductionHypothesis
  | @comment line others unbroken _ inductionHypothesis =>
      refine .more (.comment unbroken ?_) ?_
      · rintro character ⟨⟩
        rfl
      · exact @Gap.more ['\n'] others rest (filler_space (by decide) _) inductionHypothesis

theorem Separator.gap {text : List Char} (separator : Separator text) (rest : List Char) :
    Gap text rest := by
  cases separator with
  | mk blank others => exact (ClosedGap.space blank others).gap rest

theorem Separator.ahead {text : List Char} (separator : Separator text) (rest : List Char) :
    Ahead (isSpace · = true) (text ++ rest) := by
  cases separator with
  | mk blank others =>
      rintro character ⟨⟩
      exact isSpace_iff.mpr blank

/-! ## Lexemes before a space -/

section Lexemes

variable {text rest : List Char}

/-- Before a space a lexeme is the longest one. -/
theorem Lexeme.longest (lexeme : Lexeme text) (ends : Ahead (isSpace · = true) rest) :
    LongestLexeme (text ++ rest) text := by
  cases lexeme with
  | word isWord =>
      cases isWord with
      | @mk first tail starts goesOn =>
          have run := takeWhile_append_of_ahead goesOn fun character isHead =>
            (apart_of_isSpace (ends character isHead)).1
          have longest := longest_word starts (tail ++ rest)
          rwa [run] at longest
  | number isNumber =>
      cases isNumber with
      | @mk first tail starts goesOn =>
          have run := takeWhile_append_of_ahead goesOn fun character isHead =>
            (apart_of_isSpace (ends character isHead)).2.1
          have longest := longest_number starts (tail ++ rest)
          rwa [run] at longest
  | string isString =>
      cases isString with
      | @mk content value denotes =>
          have closed := Text.Quoted.body_of_denotes denotes rest
          rw [← List.singleton_append, ← List.append_assoc] at closed
          exact (longest_string closed).2
  | mark isMark =>
      cases text with
      | nil => exact absurd isMark (by decide)
      | cons first tail =>
          have endsMark : Ahead EndsMark rest := fun character isHead =>
            endsMark_of_belongs rfl rfl (ends character isHead)
          rcases exists_symbol? isMark endsMark with ⟨kind, found⟩
          exact longest_mark found

/-- A lexeme does not begin a comment, and with a space behind it neither. -/
theorem Lexeme.not_comment (lexeme : Lexeme text) (ends : Ahead (isSpace · = true) rest) :
    ¬ ['/', '/'] <+: text ++ rest := by
  rcases lexeme.exists_head with ⟨first, tail, rfl, -⟩
  intro comment
  rcases List.cons_prefix_cons.mp comment with ⟨rfl, second⟩
  rcases lexeme.of_isPrefix List.prefix_rfl with
    ⟨_, ⟨⟩, -, ⟨letter, -⟩ | ⟨digit, -⟩ | ⟨quote, -⟩ | isMark⟩
  · cases letter
  · cases digit
  · cases quote
  · rcases (tail_of_mark isMark).2 with rfl | ⟨rfl, -⟩
    · rcases second with ⟨others, rfl⟩
      cases ends '/' rfl
    · cases (List.cons_prefix_cons.mp second).1

end Lexemes

/-! ## Documents of separated lexemes -/

/-- A lexeme with a separator behind it.  A number does not exceed the bound. -/
structure Separated where
  text : List Char
  separator : List Char
  lexeme : Lexeme text
  bounded : IsNumber text -> Token.decimalValue text <= 2 ^ 63 - 1
  apart : Separator separator

namespace Separated

/-- The lexeme and the separator, as they are written. -/
def written (item : Separated) : List Char :=
  item.text ++ item.separator

/-- The document of several lexemes with their separators. -/
def document (items : List Separated) : String :=
  String.ofList (items.flatMap written)

/-- The token is the lexeme, where it stands. -/
structure Stands (item : Separated) (position : Source.Position) (token : Token) : Prop where
  proper : token.kind ≠ .eof
  text : token.text = String.ofList item.text
  start : token.span.start = position
  finish : token.span.finish = position.after item.text

/-- The tokens are the lexemes, from a position on. -/
inductive Stand : Source.Position -> List Separated -> List Token -> Prop
  | none {position : Source.Position} : Stand position [] []
  | more {position : Source.Position} {item : Separated} {items : List Separated} {token : Token}
      {tokens : List Token} (first : item.Stands position token)
      (others : Stand (position.after item.written) items tokens) :
      Stand position (item :: items) (token :: tokens)

/-- The lexeme is met and its separator is skipped. -/
theorem exists_token (item : Separated) (position : Source.Position) (rest : List Char) :
    Exists fun token => item.Stands position token ∧
      ofCursor { position, remaining := item.written ++ rest } =
        (ofCursor { position := position.after item.written, remaining := rest }).prepend
          (some token) := by
  have ends := item.apart.ahead rest
  have skipped := item.apart.gap rest
  rcases item with ⟨text, separator, lexeme, bounded, apart⟩
  dsimp only at ends skipped
  rcases lexeme.exists_head with ⟨first, tail, rfl, -⟩
  rcases read_of_longest (lexeme.longest ends) (lexeme.not_comment ends) bounded position with
    ⟨piece, run, isText, isLexeme⟩
  cases content : piece.content with
  | gap => exact absurd content isLexeme
  | lexeme kind value =>
      have isToken : piece.token? position = some _ :=
        Piece.token?_eq_some_iff.mpr ⟨kind, value, content, rfl⟩
      have proper := (Piece.fitting_of_read run).2.2
      rw [Piece.Fitting, content] at proper
      have step := ofCursor_of_read run
      rw [isToken, (List.cons_eq_cons.mp isText).2, List.drop_left, ofCursor_gap skipped, isText,
        ← Source.Position.after_append] at step
      refine ⟨{ kind, text := String.ofList (first :: tail), value,
                span := { start := position, finish := position.after (first :: tail) } },
        ⟨proper, rfl, rfl, rfl⟩, ?_⟩
      rw [written, List.append_assoc]
      exact step

/-- The lexemes are met in turn, and then the end. -/
theorem exists_tokens (items : List Separated) (position : Source.Position) :
    Exists fun tokens => Stand position items tokens ∧
      ofCursor { position, remaining := items.flatMap written } =
        { tokens := tokens ++ [.endMarker (position.after (items.flatMap written))]
          failure := none } := by
  induction items generalizing position with
  | nil => exact ⟨[], .none, ofCursor_nil position⟩
  | cons item items inductionHypothesis =>
      rcases item.exists_token position (items.flatMap written) with ⟨token, first, step⟩
      rcases inductionHypothesis (position.after item.written) with ⟨tokens, others, steps⟩
      refine ⟨token :: tokens, .more first others, ?_⟩
      rw [List.flatMap_cons, step, steps, Source.Position.after_append]
      rfl

namespace Stand

variable {position : Source.Position} {items : List Separated} {tokens : List Token}

theorem proper (stand : Stand position items tokens) :
    forall token, token ∈ tokens -> token.kind ≠ .eof := by
  induction stand with
  | none => simp
  | more first _ inductionHypothesis =>
      exact List.forall_mem_cons.mpr ⟨first.proper, inductionHypothesis⟩

theorem texts (stand : Stand position items tokens) :
    tokens.map Token.text = items.map fun item => String.ofList item.text := by
  induction stand with
  | none => rfl
  | more first _ inductionHypothesis =>
      rw [List.map_cons, List.map_cons, first.text, inductionHypothesis]

/-- The first token stands at the beginning, and the marker does if there is none. -/
theorem head (stand : Stand position items tokens) :
    Exists fun first => Exists fun others =>
      tokens ++ [Token.endMarker (position.after (items.flatMap written))] = first :: others ∧
        first.span.start = position := by
  cases stand with
  | none => exact ⟨_, _, rfl, rfl⟩
  | more first _ => exact ⟨_, _, rfl, first.start⟩

/-- What stands behind the tokens are the separators. -/
theorem gaps {document : String} {passed : List Char}
    (stand : Stand (Source.Position.start.after passed) items tokens)
    (shape : document.toList = passed ++ items.flatMap written) :
    Source.gapsBehind document (tokens ++ [.endMarker (.after .start document.toList)]) =
      items.map fun item => item.separator.utf8Encode := by
  generalize reached : Source.Position.start.after passed = position at stand
  induction stand generalizing passed with
  | none => rfl
  | @more position item items token tokens first others inductionHypothesis =>
      subst reached
      rw [List.flatMap_cons] at shape
      have shapeRest : document.toList = (passed ++ item.written) ++ items.flatMap written := by
        rw [shape, List.append_assoc]
      have later := inductionHypothesis shapeRest (Source.Position.after_append _ _ _)
      rcases others.head with ⟨next, more, atHead, starts⟩
      rw [← Source.Position.after_append, ← Source.Position.after_append, ← shape] at atHead
      rw [atHead] at later
      have within : document.toList =
          (passed ++ item.text) ++ (item.separator ++ items.flatMap written) := by
        rw [shape, written, List.append_assoc, List.append_assoc]
      have slice := Source.slice_eq within
      rw [List.cons_append, atHead, Source.gapsBehind, later, first.finish, starts,
        ← Source.Position.after_append, ← Source.Position.after_append, Separated.written,
        ← List.append_assoc, slice, List.map_cons]

end Stand

end Separated

end Scan

/-- A document that is written as lexemes with separators has these lexemes as its tokens, from
its beginning on, and these separators behind them. -/
theorem tokenize_separated (items : List Scan.Separated) :
    Exists fun tokens => Exists fun marker : Token =>
      tokenize (Scan.Separated.document items) = .ok (tokens ++ [marker]) ∧
        (forall token, token ∈ tokens -> token.kind ≠ .eof) ∧ marker.kind = .eof ∧
        tokens.map Token.text = items.map (fun item => String.ofList item.text) ∧
        ((tokens ++ [marker]).head?.map fun first => first.span.start) = some .start ∧
        Source.gapsBehind (Scan.Separated.document items) (tokens ++ [marker]) =
          items.map fun item => item.separator.utf8Encode := by
  have shape : (Scan.Separated.document items).toList = items.flatMap Scan.Separated.written :=
    String.toList_ofList
  rcases Scan.Separated.exists_tokens items .start with ⟨tokens, stand, scan⟩
  rw [← shape] at scan
  refine ⟨tokens, _, tokenize_eq_ok scan, stand.proper, rfl, stand.texts, ?_, ?_⟩
  · rcases stand.head with ⟨first, others, atHead, starts⟩
    rw [shape, atHead, List.head?_cons, Option.map_some, starts]
  · exact @Scan.Separated.Stand.gaps _ _ _ [] stand shape

/-- A mark that could begin a comment, and comments that could begin other lexemes. -/
def separatedSlash : Scan.Separated where
  text := ['/']
  separator := " // \"é\n//\n".toList
  lexeme := .mark (by decide)
  bounded isNumber := by cases isNumber; contradiction
  apart := .mk (by decide) (@Scan.ClosedGap.comment [' ', '"', 'é'] _ (by decide)
    (@Scan.ClosedGap.comment [] _ (by decide) .none))

def separatedNumber : Scan.Separated where
  text := ['0', '0', '7']
  separator := ['\t']
  lexeme := .number (.mk rfl (List.all_eq_true.mp rfl))
  bounded _ := by decide
  apart := .mk (by decide) .none

theorem tokenize_separated_slash :
    Exists fun tokens => Exists fun marker : Token =>
      tokenize "/ // \"é\n//\n007\t" = .ok (tokens ++ [marker]) ∧
        tokens.map Token.text = ["/", "007"] := by
  rcases tokenize_separated [separatedSlash, separatedNumber] with
    ⟨tokens, marker, scanned, -, -, texts, -⟩
  have written : Scan.Separated.document [separatedSlash, separatedNumber] =
      "/ // \"é\n//\n007\t" := by
    decide
  rw [written] at scanned
  exact ⟨tokens, marker, scanned, texts⟩

end ToyFrontend
