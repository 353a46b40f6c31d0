import ToyFrontend.Proofs.Insertion
import ToyFrontend.Proofs.Outline.Line
import ToyFrontend.Proofs.Place
import ToyFrontend.Proofs.Scan.LineEnd
import ToyFrontend.Proofs.Scan.Misspelling
import ToyFrontend.Proofs.Source.Line

namespace ToyFrontend

/-!
# A snippet points at the character

A snippet has five lines: the cause with its advice, the name of the document, a bar, the
line of the document, and a caret.  Its columns have to agree although nothing computes
them from one another.  The bar stands behind a field as wide as the number of the line,
in the same column as the bar behind the number itself.  The caret stands at the end of a
field whose width is the column of the error without the indentation, and this is where the
character stands in a line that is shown without its indentation.

Whatever the document is, the five lines are five: no text that an error quotes and no
line of a document has a line feed.
-/

/-! ## Columns -/

/-- The first such character stands behind all that is without it. -/
theorem Text.idxOf?_append_cons {character : Char} {front : List Char}
    (absent : character ∉ front) (back : List Char) :
    (front ++ character :: back).idxOf? character = some front.length := by
  induction front with
  | nil => simp [List.idxOf?_cons]
  | cons first front inductionHypothesis =>
      rw [List.mem_cons, not_or] at absent
      simp [List.idxOf?_cons, Ne.symm absent.1, inductionHypothesis absent.2]

/-- A field with a single character at its end. -/
theorem Text.toList_padLeft {text : String} {mark : Char} (single : text.toList = [mark])
    (fill : Char) (width : Nat) :
    (Text.padLeft fill (width + 1) text).toList = List.replicate width fill ++ [mark] := by
  rw [Text.padLeft, String.toList_append, String.toList_ofList, ← String.length_toList, single]
  rfl

/-- Every character has a byte. -/
theorem Source.length_le_utf8ByteSize (text : List Char) :
    text.length <= (String.ofList text).utf8ByteSize := by
  induction text with
  | nil => exact Nat.zero_le _
  | cons character text inductionHypothesis =>
      have width := character.utf8Size_pos
      rw [List.length_cons, String.ofList_cons, String.utf8ByteSize_append,
        String.utf8ByteSize_singleton]
      omega

/-! ## Advice has one line -/

/-- No text that stands in a document as a token has a line feed. -/
theorem Token.oneLine_text {source : String} {tokens : List Token} {token : Token}
    (scanned : tokenize source = .ok tokens) (member : token ∈ tokens) : OneLine token.text := by
  by_cases isMarker : token.kind = .eof
  · rcases (Scan.layout_of_tokenize scanned).marked with ⟨lexemes, rfl, each⟩
    rcases List.mem_append.mp member with early | last
    · exact absurd isMarker (each token early).1
    · have nothing : OneLine "" := by decide
      exact List.mem_singleton.mp last ▸ nothing
  · rcases Scan.exists_read_of_tokenize scanned member isMarker with
      ⟨passed, first, ahead, piece, -, run, isToken⟩
    exact (Scan.recognized_of_read run isToken).longest.lexeme.unbroken

theorem Token.Kind.oneLine_quoted (kind : Token.Kind) : OneLine kind.quoted := by
  cases kind <;> decide

namespace LexicalError

theorem Cause.oneLine_name (cause : Cause) : OneLine cause.name := by
  cases cause <;> decide

/-- Advice quotes a number or an escape, and neither has a line feed. -/
theorem oneLine_of_tip {source : String} {error : LexicalError}
    (failed : tokenize source = .error error) {tip : String} (isTip : error.tip? = some tip) :
    OneLine tip := by
  rcases Scan.exists_arrives_of_failure (tokenize_eq_error_iff.mp failed) with
    ⟨passed, first, ahead, -, -, misspelt⟩
  cases misspelt with
  | stranger => cases isTip
  | @overflow digits rest shape isNumber =>
      cases isTip
      have ofDigits : OneLine (String.ofList digits) := by
        rw [OneLine, String.toList_ofList]
        exact (Scan.Lexeme.number isNumber).unbroken
      simp only [OneLine.append_iff]
      exact ⟨⟨⟨by decide, ofDigits⟩, by decide⟩, OneLine.of_number largestInt⟩
  | unterminated =>
      cases isTip
      decide
  | @badEscape content value rest escaped shape denotes unknown =>
      cases isTip
      have ofEscape : OneLine (String.ofList ['\\', escaped]) := by
        rw [OneLine, String.toList_ofList]
        simp only [List.mem_cons, List.not_mem_nil, or_false, not_or] at unknown ⊢
        exact ⟨by decide, Ne.symm unknown.2.2.2⟩
      simp only [OneLine.append_iff]
      exact ⟨⟨by decide, ofEscape⟩, by decide⟩

end LexicalError

namespace SyntaxError

variable {error : SyntaxError} {tip : String}

theorem Cause.oneLine_name (cause : Cause) : OneLine cause.name := by
  cases cause <;> decide

theorem oneLine_expectedText (error : SyntaxError) : OneLine error.expectedText := by
  apply OneLine.intercalate (by decide)
  intro text member
  rcases List.mem_map.mp member with ⟨kind, -, rfl⟩
  exact kind.oneLine_quoted

theorem oneLine_of_expectationTip (oneLine : OneLine error.text)
    (isTip : error.expectationTip? = some tip) : OneLine tip := by
  have expected := error.oneLine_expectedText
  unfold expectationTip? at isTip
  split at isTip
  next =>
    cases isTip
    exact OneLine.append_iff.mpr ⟨by decide, expected⟩
  next =>
    split at isTip
    next =>
      cases isTip
      simp only [OneLine.append_iff]
      exact ⟨⟨by decide, oneLine⟩, by decide⟩
    next =>
      split at isTip
      next => cases isTip
      next =>
        cases isTip
        simp only [OneLine.append_iff]
        exact ⟨⟨⟨by decide, oneLine⟩, by decide⟩, expected⟩

/-- Advice quotes the token at fault and kinds of tokens. -/
theorem oneLine_of_tip (oneLine : OneLine error.text) (isTip : error.tip? = some tip) :
    OneLine tip := by
  unfold tip? at isTip
  split at isTip
  next =>
    cases isTip
    simp only [OneLine.append_iff]
    exact ⟨⟨by decide, oneLine⟩, by decide⟩
  next =>
    cases isTip
    decide
  next =>
    cases isTip
    simp only [OneLine.append_iff]
    exact ⟨⟨by decide, OneLine.of_number SyntaxTree.nestingLimit⟩, by decide⟩
  all_goals exact oneLine_of_expectationTip oneLine isTip

end SyntaxError

namespace Diagnostic

variable {diagnostic : Diagnostic} {source file : String}

theorem oneLine_of_tip (failed : parse source = .error diagnostic) {tip : String}
    (isTip : diagnostic.tip? = some tip) : OneLine tip := by
  cases diagnostic with
  | lexical error => exact LexicalError.oneLine_of_tip (tokenize_eq_error_of_parse failed) isTip
  | syntactic error =>
      rcases Reading.explained_of_parse failed with ⟨tokens, before, token, scanned, blames, -⟩
      rcases blames.stands with ⟨behind, rfl⟩
      have quotes := Token.oneLine_text scanned (List.mem_append_right before List.mem_cons_self)
      rw [← blames.text] at quotes
      exact SyntaxError.oneLine_of_tip quotes isTip

theorem oneLine_name (diagnostic : Diagnostic) : OneLine diagnostic.name := by
  cases diagnostic with
  | lexical error => exact error.cause.oneLine_name
  | syntactic error => exact error.cause.oneLine_name

theorem oneLine_headline (failed : parse source = .error diagnostic) :
    OneLine diagnostic.headline := by
  unfold headline
  split
  next => exact OneLine.append_iff.mpr ⟨by decide, diagnostic.oneLine_name⟩
  next tip isTip =>
    simp only [OneLine.append_iff]
    exact ⟨⟨⟨⟨by decide, diagnostic.oneLine_name⟩, by decide⟩, oneLine_of_tip failed isTip⟩,
      by decide⟩

/-! ## The parts of a snippet -/

/-- The number of the line, as it is written before the line. -/
def number (diagnostic : Diagnostic) : String :=
  toString diagnostic.position.line

/-- The line of the document that is shown. -/
def line (diagnostic : Diagnostic) (source : String) : List Char :=
  (Source.line? source.toList diagnostic.position.line).getD []

/-- What is shown of the line. -/
def shown (diagnostic : Diagnostic) (source : String) : List Char :=
  Text.trimEnd ((diagnostic.line source).dropWhile isIndent)

/-- The bar, in a field that is two characters wider than the number. -/
def bar (diagnostic : Diagnostic) : String :=
  Text.padLeft ' ' (diagnostic.number.length + 2) "|"

/-- The line with its number and a bar. -/
def quoted (diagnostic : Diagnostic) (source : String) : String :=
  diagnostic.number ++ " | " ++ String.ofList (diagnostic.shown source)

/-- How far the caret stands from the beginning of what is shown: the characters before the
column, without the indentation. -/
def lead (diagnostic : Diagnostic) (source : String) : Nat :=
  diagnostic.position.column - 1 - ((diagnostic.line source).takeWhile isIndent).length

/-- The caret, in a field that ends in the column of the error. -/
def caret (diagnostic : Diagnostic) (source : String) : String :=
  Text.padLeft '-' (diagnostic.lead source + 1) "^"

/-- The bar and the caret behind it. -/
def pointer (diagnostic : Diagnostic) (source : String) : String :=
  diagnostic.bar ++ " " ++ diagnostic.caret source

/-- The lines of a snippet are made of these parts. -/
theorem snippetLines_eq (diagnostic : Diagnostic) (source file : String) :
    diagnostic.snippetLines source file =
      [diagnostic.headline, "-> " ++ file, diagnostic.bar, diagnostic.quoted source,
        diagnostic.pointer source] :=
  rfl

theorem toList_bar :
    diagnostic.bar.toList = List.replicate (diagnostic.number.length + 1) ' ' ++ ['|'] := by
  rw [bar, Text.toList_padLeft (show "|".toList = ['|'] from rfl)]

theorem toList_quoted :
    (diagnostic.quoted source).toList =
      (diagnostic.number.toList ++ [' ']) ++ '|' :: ' ' :: diagnostic.shown source := by
  simp [quoted]

theorem toList_caret :
    (diagnostic.caret source).toList =
      List.replicate (diagnostic.lead source) '-' ++ ['^'] := by
  rw [caret, Text.toList_padLeft (show "^".toList = ['^'] from rfl)]

theorem toList_pointer :
    (diagnostic.pointer source).toList =
      (List.replicate (diagnostic.number.length + 1) ' ' ++ '|' :: ' ' ::
        List.replicate (diagnostic.lead source) '-') ++ ['^'] := by
  rw [pointer, String.toList_append, String.toList_append, toList_bar, toList_caret]
  simp

/-! ## The line -/

section Place

variable {passed ahead : String}

theorem line?_of_counts (shape : source = passed ++ ahead)
    (counts : diagnostic.position.Counts passed) :
    Source.line? source.toList diagnostic.position.line =
      some (Source.withoutReturn
        (Source.lastLine passed.toList ++ Source.firstLine ahead.toList)) := by
  rw [counts.line, Nat.add_comm, Source.line?, shape, String.toList_append,
    Source.getElem?_lines]
  rfl

theorem line_of_counts (shape : source = passed ++ ahead)
    (counts : diagnostic.position.Counts passed) :
    diagnostic.line source = Source.withoutReturn
      (Source.lastLine passed.toList ++ Source.firstLine ahead.toList) := by
  rw [line, line?_of_counts shape counts]
  rfl

theorem column_of_counts (counts : diagnostic.position.Counts passed) :
    diagnostic.position.column = (Source.lastLine passed.toList).length + 1 := by
  rw [counts.column, Source.lastLine, List.length_reverse, Nat.add_comm]

theorem lineFeed_not_mem_shown (shape : source = passed ++ ahead)
    (counts : diagnostic.position.Counts passed) : '\n' ∉ diagnostic.shown source := by
  intro member
  have ofLine := (List.dropWhile_sublist _).subset (Text.trimEnd_subset _ member)
  rw [line_of_counts shape counts] at ofLine
  rcases List.mem_append.mp (Source.subset_withoutReturn _ ofLine) with before | behind
  · exact Source.lineFeed_not_mem_lastLine _ before
  · exact Source.lineFeed_not_mem_firstLine _ behind

/-- The offset of the place divides the document at the place. -/
theorem splitBytes?_of_counts (shape : source = passed ++ ahead)
    (counts : diagnostic.position.Counts passed) :
    Source.splitBytes? diagnostic.position.offset source.toList =
      some (passed.toList, ahead.toList) := by
  rw [counts.offset, ← Source.offset_end, shape, String.toList_append, Source.splitBytes?_after]

end Place

/-! ## The five lines -/

theorem oneLine_bar (diagnostic : Diagnostic) : OneLine diagnostic.bar := by
  rw [OneLine, toList_bar]
  simp

theorem oneLine_pointer (diagnostic : Diagnostic) (source : String) :
    OneLine (diagnostic.pointer source) := by
  rw [OneLine, toList_pointer]
  simp

theorem oneLine_quoted (place : diagnostic.position.Marks source) :
    OneLine (diagnostic.quoted source) := by
  rcases place with ⟨passed, ahead, shape, counts⟩
  have ofNumber : '\n' ∉ diagnostic.number.toList :=
    Scan.not_mem_number rfl diagnostic.position.line
  have ofLine := lineFeed_not_mem_shown shape counts
  rw [OneLine, toList_quoted]
  simp [ofNumber, ofLine]

/-- In each of the three lines the bar stands behind the number of the line and a space, or
behind as many spaces. -/
theorem idxOf?_bar {text : String}
    (among : text ∈ [diagnostic.bar, diagnostic.quoted source, diagnostic.pointer source]) :
    text.toList.idxOf? '|' = some (diagnostic.number.length + 1) := by
  have spaces : '|' ∉ List.replicate (diagnostic.number.length + 1) ' ' := by simp
  have digits : '|' ∉ diagnostic.number.toList := Scan.not_mem_number rfl diagnostic.position.line
  simp only [List.mem_cons, List.not_mem_nil, or_false] at among
  rcases among with rfl | rfl | rfl
  · rw [toList_bar, Text.idxOf?_append_cons spaces, List.length_replicate]
  · rw [toList_quoted, Text.idxOf?_append_cons (by simp [digits]), List.length_append,
      String.length_toList]
    rfl
  · rw [toList_pointer, List.append_assoc, List.cons_append, Text.idxOf?_append_cons spaces,
      List.length_replicate]

theorem idxOf?_caret :
    (diagnostic.pointer source).toList.idxOf? '^' =
      some (diagnostic.number.length + 3 + diagnostic.lead source) := by
  rw [toList_pointer, Text.idxOf?_append_cons (by simp)]
  simp only [List.length_append, List.length_cons, List.length_replicate, Option.some.injEq]
  omega

theorem count_caret : (diagnostic.pointer source).toList.count '^' = 1 := by
  rw [toList_pointer]
  simp [List.count_replicate]

/-- The character at the place is behind the number, the bar between two spaces, and what
is shown of the line before the character. -/
theorem getElem?_quoted (place : diagnostic.position.Marks source) {before behind : List Char}
    {character : Char} (visible : Text.isBlank character = false)
    (stands : Source.splitBytes? diagnostic.position.offset source.toList =
      some (before, character :: behind)) :
    (diagnostic.quoted source).toList[diagnostic.number.length + 3 + diagnostic.lead source]? =
      some character := by
  rcases place with ⟨passed, ahead, shape, counts⟩
  rw [splitBytes?_of_counts shape counts, Option.some.injEq, Prod.mk.injEq] at stands
  have inLine : character ≠ '\n' := by
    rintro rfl
    cases visible
  rcases exists_shown visible (Source.lastLine passed.toList) (Source.firstLine behind) with
    ⟨indent, tail, rest⟩
  have isLine := line_of_counts shape counts
  rw [stands.2, Source.firstLine_cons inLine] at isLine
  rw [← isLine] at indent rest
  -- What stands before the character is divided into the indentation and what is shown of it.
  have divided := congrArg List.length
    (@List.takeWhile_append_dropWhile _ isIndent (Source.lastLine passed.toList))
  rw [List.length_append, ← indent] at divided
  have index : diagnostic.number.length + 3 + diagnostic.lead source =
      (diagnostic.number.toList ++ ' ' :: '|' :: ' ' ::
        (Source.lastLine passed.toList).dropWhile isIndent).length := by
    rw [lead, column_of_counts counts, List.length_append, String.length_toList]
    simp only [List.length_cons]
    omega
  have written : (diagnostic.quoted source).toList =
      (diagnostic.number.toList ++ ' ' :: '|' :: ' ' ::
        (Source.lastLine passed.toList).dropWhile isIndent) ++ character :: tail := by
    rw [toList_quoted, shown, rest]
    simp
  rw [written, index, List.getElem?_append_right (Nat.le_refl _), Nat.sub_self,
    List.getElem?_cons_zero]

/-! ## Widths -/

/-- The field of the caret is not wider than the column. -/
theorem length_caret_le (place : diagnostic.position.Marks source) :
    (diagnostic.caret source).length <= diagnostic.position.column := by
  rcases place with ⟨passed, ahead, shape, counts⟩
  have width : (diagnostic.caret source).length = diagnostic.lead source + 1 := by
    rw [← String.length_toList, toList_caret, List.length_append, List.length_replicate]
    rfl
  rw [width, lead, column_of_counts counts]
  omega

/-- The line feeds of a document are not more than its bytes. -/
theorem line_le (place : diagnostic.position.Marks source) :
    diagnostic.position.line <= source.utf8ByteSize + 1 := by
  rcases place with ⟨passed, ahead, shape, counts⟩
  have lineFeeds : passed.toList.count '\n' <= passed.toList.length := List.count_le_length
  have bytes := Source.length_le_utf8ByteSize passed.toList
  rw [String.ofList_toList] at bytes
  rw [counts.line, shape, String.utf8ByteSize_append]
  omega

theorem length_bar_le (place : diagnostic.position.Marks source)
    (small : source.utf8ByteSize < 2 ^ 64) : diagnostic.bar.length <= 22 := by
  have line := line_le place
  have digits : diagnostic.number.length <= 20 :=
    Nat.repr_length diagnostic.position.line 20 (by decide) (by omega)
  rw [← String.length_toList, toList_bar, List.length_append, List.length_replicate]
  simp only [List.length_cons, List.length_nil]
  omega

/-! ## Snippets -/

/-- What a snippet shows of a diagnostic of a document.  Columns are counted in characters. -/
structure ShownIn (diagnostic : Diagnostic) (source file : String) : Prop where
  /-- There is a place to show: columns are counted from one, and the document has the line. -/
  column : 1 <= diagnostic.position.column
  line : Exists fun line => Source.line? source.toList diagnostic.position.line = some line
  /-- There are five lines, and a line feed ends each. -/
  lines : diagnostic.snippet source file =
    String.join ([diagnostic.headline, "-> " ++ file, diagnostic.bar, diagnostic.quoted source,
      diagnostic.pointer source].map (· ++ "\n"))
  unbroken : forall text, text ∈ [diagnostic.headline, "-> " ++ file, diagnostic.bar,
    diagnostic.quoted source, diagnostic.pointer source] -> OneLine text
  /-- The bars stand one below the other. -/
  aligned : Exists fun column => forall text,
    text ∈ [diagnostic.bar, diagnostic.quoted source, diagnostic.pointer source] ->
      text.toList.idxOf? '|' = some column
  /-- There is one caret, and it stands below the character at the place of the error. -/
  single : (diagnostic.pointer source).toList.count '^' = 1
  points : forall before character behind,
    Source.splitBytes? diagnostic.position.offset source.toList =
        some (before, character :: behind) ->
      Text.isBlank character = false ->
        Exists fun column => (diagnostic.pointer source).toList.idxOf? '^' = some column ∧
          (diagnostic.quoted source).toList[column]? = some character
  /-- No field is wider than a formatter allows, unless the document is out of all bounds. -/
  caretFits : (diagnostic.caret source).length <= 65535
  barFits : source.utf8ByteSize < 2 ^ 64 -> diagnostic.bar.length <= 65535

end Diagnostic

/-- The snippet of an error has five lines, whatever the document is.  The bars are aligned, and
the caret points at the character for which the document is refused. -/
theorem snippet_points_at_character {source file : String} {diagnostic : Diagnostic}
    (failed : parse source = .error diagnostic)
    (narrow : diagnostic.position.column <= 65535) (named : OneLine file) :
    diagnostic.ShownIn source file := by
  have place := marks_of_diagnostic failed
  constructor
  case column =>
    rcases place with ⟨passed, ahead, -, counts⟩
    rw [diagnostic.column_of_counts counts]
    exact Nat.le_add_left 1 _
  case line =>
    rcases place with ⟨passed, ahead, shape, counts⟩
    exact ⟨_, diagnostic.line?_of_counts shape counts⟩
  case lines => rw [Diagnostic.snippet, Diagnostic.snippetLines_eq]
  case unbroken =>
    have path : OneLine ("-> " ++ file) := OneLine.append_iff.mpr ⟨by decide, named⟩
    simp only [List.forall_mem_cons]
    exact ⟨Diagnostic.oneLine_headline failed, path, diagnostic.oneLine_bar,
      Diagnostic.oneLine_quoted place, diagnostic.oneLine_pointer source,
      List.forall_mem_nil _⟩
  case aligned => exact ⟨_, fun text among => Diagnostic.idxOf?_bar among⟩
  case single => exact Diagnostic.count_caret
  case points =>
    intro before character behind stands visible
    exact ⟨_, Diagnostic.idxOf?_caret, Diagnostic.getElem?_quoted place visible stands⟩
  case caretFits => exact Nat.le_trans (Diagnostic.length_caret_le place) narrow
  case barFits =>
    intro small
    exact Nat.le_trans (Diagnostic.length_bar_le place small) (by decide)

/-- A stranger behind wide characters and a tab, in a line that ends in two characters. -/
def strangerDocument : String :=
  "x = 1;\r\n\ty = \"é\" @;\r\n"

def strangerError : LexicalError where
  cause := .unrecognisedCharacter
  text := "@"
  position := ⟨18, 2, 10⟩

theorem snippet_points_at_stranger :
    parse strangerDocument = .error (.lexical strangerError) ∧
      strangerError.position.column <= 65535 ∧ OneLine "final.toy" ∧
      (Diagnostic.lexical strangerError).ShownIn strangerDocument "final.toy" := by
  have refused : tokenize strangerDocument = .error strangerError :=
    tokenize_eq_error_iff.mpr (by decide +kernel)
  have failed : parse strangerDocument = .error (.lexical strangerError) := by
    rw [parse, refused]
  exact ⟨failed, by decide, by decide,
    snippet_points_at_character failed (by decide) (by decide)⟩

example :
    (Diagnostic.lexical strangerError).snippetLines strangerDocument "final.toy" =
      ["Error: UnrecognisedCharacter", "-> final.toy", "  |", "2 | y = \"é\" @;",
        "  | --------^"] := by
  decide +kernel

end ToyFrontend
