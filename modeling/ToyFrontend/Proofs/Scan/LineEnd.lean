import ToyFrontend.Proofs.Scan.Insertion
import ToyFrontend.Proofs.Scan.Refusal

namespace ToyFrontend

/-!
# Lines that end with a carriage return

A text in which every line feed has a carriage return before it is scanned along
with the text itself.  The returns stand in gaps and at the end of comments, and
no line or column counts them.  Both scans meet the same lexemes and come to an
error at the same place.

One error is not the same.  A literal that breaks off behind a backslash is not
terminated; with a return behind it, the backslash begins an escape that is none.
-/

namespace Source

/-- The text with a carriage return before every line feed. -/
def withReturns (text : List Char) : List Char :=
  text.flatMap fun character => if character = '\n' then ['\r', '\n'] else [character]

theorem withReturns_append (first second : List Char) :
    withReturns (first ++ second) = withReturns first ++ withReturns second :=
  List.flatMap_append

theorem withReturns_lineFeed (text : List Char) :
    withReturns ('\n' :: text) = '\r' :: '\n' :: withReturns text :=
  rfl

theorem withReturns_cons {character : Char} (inLine : character ≠ '\n') (text : List Char) :
    withReturns (character :: text) = character :: withReturns text := by
  rw [withReturns, List.flatMap_cons, if_neg inLine]
  rfl

theorem withReturns_of_line {line : List Char} (unbroken : '\n' ∉ line) :
    withReturns line = line := by
  induction line with
  | nil => rfl
  | cons character line inductionHypothesis =>
      rw [List.mem_cons, not_or] at unbroken
      rw [withReturns_cons (Ne.symm unbroken.1), inductionHypothesis unbroken.2]

theorem head?_withReturns {text : List Char} {character : Char}
    (noSpace : Scan.isSpace character = false) :
    (withReturns text).head? = some character ↔ text.head? = some character := by
  cases text with
  | nil => rfl
  | cons first text =>
      by_cases broken : first = '\n'
      · subst broken
        rw [withReturns_lineFeed]
        have notReturn : '\r' ≠ character := fun same => by
          rw [← same] at noSpace
          cases noSpace
        have notLineFeed : '\n' ≠ character := fun same => by
          rw [← same] at noSpace
          cases noSpace
        simp [notReturn, notLineFeed]
      · rw [withReturns_cons broken]
        rfl

theorem takeWhile_withReturns {belongs : Char -> Bool}
    (noSpace : forall character, Scan.isSpace character = true -> belongs character = false)
    (text : List Char) :
    (withReturns text).takeWhile belongs = text.takeWhile belongs := by
  induction text with
  | nil => rfl
  | cons character text inductionHypothesis =>
      by_cases broken : character = '\n'
      · subst broken
        rw [withReturns_lineFeed, List.takeWhile_cons_of_neg (by simp [noSpace '\r' rfl]),
          List.takeWhile_cons_of_neg (by simp [noSpace '\n' rfl])]
      · rw [withReturns_cons broken, List.takeWhile_cons, List.takeWhile_cons, inductionHypothesis]

/-- Of a place, the line and the column. -/
def Position.withoutOffset (position : Position) : Position :=
  { position with offset := 0 }

theorem Position.withoutOffset_eq_iff {first second : Position} :
    first.withoutOffset = second.withoutOffset ↔
      first.line = second.line ∧ first.column = second.column := by
  simp [withoutOffset]

theorem Position.congruent_withoutOffset : Scan.Congruent withoutOffset := by
  intro first second character same
  rcases withoutOffset_eq_iff.mp same with ⟨line, column⟩
  apply withoutOffset_eq_iff.mpr
  unfold next
  split <;> simp [line, column]

/-- A return before a line feed is in no line and in no column. -/
theorem Position.after_withReturns {first second : Position}
    (same : first.withoutOffset = second.withoutOffset) (text : List Char) :
    (first.after text).withoutOffset = (second.after (withReturns text)).withoutOffset := by
  induction text generalizing first second with
  | nil => exact same
  | cons character text inductionHypothesis =>
      by_cases broken : character = '\n'
      · subst broken
        rw [withReturns_lineFeed]
        apply inductionHypothesis
        exact withoutOffset_eq_iff.mpr ⟨congrArg (· + 1) (withoutOffset_eq_iff.mp same).1, rfl⟩
      · rw [withReturns_cons broken]
        exact inductionHypothesis (congruent_withoutOffset _ _ _ same)

theorem Position.along_withoutOffset {first second : Position}
    (same : first.withoutOffset = second.withoutOffset) (stretch : List Char) :
    (first.along stretch).withoutOffset = (second.along stretch).withoutOffset := by
  rcases withoutOffset_eq_iff.mp same with ⟨line, column⟩
  exact withoutOffset_eq_iff.mpr ⟨line, congrArg (· + stretch.length) column⟩

end Source

namespace Text

theorem dropEndWhile_concat {drop : Char -> Bool} {last : Char} (dropped : drop last = true)
    (text : List Char) : dropEndWhile drop (text ++ [last]) = dropEndWhile drop text := by
  simp [dropEndWhile, dropped]

theorem dropEndWhile_of_last {drop : Char -> Bool} {last : Char} (kept : drop last = false)
    (text : List Char) : dropEndWhile drop (text ++ [last]) = text ++ [last] := by
  simp [dropEndWhile, kept]

end Text

namespace Scan

open Source (withReturns withReturns_append withReturns_lineFeed withReturns_cons
  withReturns_of_line head?_withReturns takeWhile_withReturns)
open Source.Position (withoutOffset withoutOffset_eq_iff congruent_withoutOffset
  after_withReturns)
open Text.Quoted (Denotes body_append_of_denotes body_append_of_ending)

/-! ## Pieces -/

theorem Lexeme.unbroken {text : List Char} (lexeme : Lexeme text) : '\n' ∉ text := by
  intro member
  cases lexeme with
  | word isWord =>
      cases isWord with
      | mk starts goesOn =>
          rcases List.mem_cons.mp member with rfl | later
          · cases starts
          · cases goesOn _ later
  | number isNumber =>
      cases isNumber with
      | mk starts goesOn =>
          rcases List.mem_cons.mp member with rfl | later
          · cases starts
          · cases goesOn _ later
  | string isString =>
      cases isString with
      | mk denotes => simp [denotes.unbroken] at member
  | mark isMark =>
      have each : forall mark, mark ∈ marks -> '\n' ∉ mark.toList := by decide
      exact each _ isMark (by rwa [String.toList_ofList])

theorem unbroken_of_read {start : Source.Position} {first : Char} {ahead : List Char}
    {piece : Piece} (run : Piece.read start first ahead = .ok piece)
    (isLexeme : piece.content ≠ .gap) : '\n' ∉ piece.text := by
  cases content : piece.content with
  | gap => exact absurd content isLexeme
  | lexeme kind value =>
      have isToken : piece.token? start = some _ :=
        Piece.token?_eq_some_iff.mpr ⟨kind, value, content, rfl⟩
      have lexeme := (recognized_of_read run isToken).longest.lexeme
      rw [String.toList_ofList] at lexeme
      exact lexeme.unbroken

theorem follows_withReturns (text : List Char) : Follows text (withReturns text) := by
  intro character isHead
  by_cases space : isSpace character = true
  · exact .inl space
  · exact .inr ((head?_withReturns (Bool.eq_false_iff.mpr space)).mp isHead)

/-- A comment takes in the return before its line feed, and a run of spaces has the returns
in it. -/
theorem ofCursor_filler_withReturns {filler rest : List Char} (first : Filler filler rest)
    (position : Source.Position) :
    ofCursor { position, remaining := withReturns filler ++ withReturns rest } =
      ofCursor { position := position.after (withReturns filler),
                 remaining := withReturns rest } := by
  cases first with
  | spaces nonempty blank =>
      apply ofCursor_spaces
      intro character member
      rcases List.mem_flatMap.mp member with ⟨written, among, stands⟩
      split at stands
      next =>
        have returnOrFeed : character = '\r' ∨ character = '\n' := by simpa using stands
        rcases returnOrFeed with rfl | rfl <;> decide
      next => exact List.mem_singleton.mp stands ▸ blank written among
  | @comment line _ unbroken ends =>
      rw [withReturns_of_line (by simp [unbroken])]
      cases rest with
      | nil => exact ofCursor_comment unbroken ends position
      | cons character rest =>
          cases ends character rfl
          have longer : '\n' ∉ line ++ ['\r'] := by simp [unbroken]
          have ends : Ahead (· = '\n') ('\n' :: withReturns rest) := by
            rintro character ⟨⟩
            rfl
          have whole := ofCursor_comment longer ends position
          rw [← List.cons_append, ← List.cons_append, List.append_assoc,
            Source.Position.after_append] at whole
          rw [withReturns_lineFeed, ofCursor_space (show isSpace '\r' = true from rfl)]
          exact whole

/-! ## Errors -/

/-- A literal that breaks off behind a backslash. -/
inductive BreaksOff : List Char -> List Char -> Prop
  | mk {content value : List Char} (denotes : Denotes content value) (rest : List Char) :
      BreaksOff content ('"' :: (content ++ '\\' :: '\n' :: rest))

section WithReturns

variable {start place : Source.Position} {first : Char} {ahead : List Char} {error : LexicalError}

/-- With a return behind it, the backslash begins an escape that is none. -/
theorem BreaksOff.refused {content : List Char} (breaks : BreaksOff content (first :: ahead))
    (start place : Source.Position) :
    Refused start first ahead
        { cause := .unterminatedString
          text := String.ofList ('"' :: content ++ ['\\'])
          position := start } ∧
      Refused place first (withReturns ahead)
        { cause := .invalidEscape
          text := String.ofList ['\\', '\r']
          position := place.along ('"' :: content) } := by
  cases breaks with
  | mk denotes rest =>
      constructor
      · have opened := body_append_of_ending denotes (.backslashLineFeed rest)
        have kept := @Text.dropEndWhile_of_last (· == '\r') '\\' rfl ('"' :: content)
        rw [← kept]
        exact .unterminated rfl opened
      · have bad := body_append_of_ending denotes
          (.badEscape (show '\r' ≠ '\n' by decide) rfl ('\n' :: withReturns rest))
        rw [withReturns_append, withReturns_of_line denotes.unbroken,
          withReturns_cons (by decide), withReturns_lineFeed]
        rw [← List.append_nil ('"' :: content)]
        exact .badEscape rfl bad

/-- Every other literal has the same value, or the same is wrong with it. -/
theorem refused_literal_withReturns (same : start.withoutOffset = place.withoutOffset)
    (proper : forall content, ¬ BreaksOff content ('"' :: ahead)) :
    (Exists fun value => Exists fun written => Text.Quoted.body ahead = .closed value written) ∨
      Exists fun error => Exists fun other =>
        Refused start '"' ahead error ∧ Refused place '"' (withReturns ahead) other ∧
          error.relocate withoutOffset = other.relocate withoutOffset := by
  rcases Text.Quoted.exists_ending ahead with
    ⟨content, value, rest, found, rfl, denotes, ending⟩
  have here := body_append_of_ending denotes ending
  rw [withReturns_append, withReturns_of_line denotes.unbroken]
  cases ending with
  | quote => exact .inl ⟨_, _, here⟩
  | nothing | backslash =>
      refine .inr ⟨_, _, .unterminated rfl here, .unterminated rfl here, ?_⟩
      simp only [LexicalError.relocate, same]
  | lineFeed rest =>
      -- The return is content, up to the line feed, and it is trimmed from the text at fault.
      have single : Denotes ['\r'] ['\r'] := .plain (by decide) .none
      have there := body_append_of_denotes denotes (['\r'] ++ '\n' :: withReturns rest)
      rw [body_append_of_ending single (.lineFeed _)] at there
      refine .inr ⟨_, _, .unterminated rfl here, .unterminated rfl there, ?_⟩
      have trimmed := @Text.dropEndWhile_concat (· == '\r') '\r' rfl ('"' :: content)
      simp only [LexicalError.relocate, same, List.append_nil, ← List.cons_append, trimmed]
  | backslashLineFeed rest => exact absurd (.mk denotes rest) (proper content)
  | badEscape notLineFeed unknown rest =>
      rw [withReturns_cons (by decide), withReturns_cons notLineFeed]
      have there := body_append_of_ending denotes
        (.badEscape notLineFeed unknown (withReturns rest))
      refine .inr ⟨_, _, .badEscape rfl here, .badEscape rfl there, ?_⟩
      simp only [LexicalError.relocate, LexicalError.mk.injEq, true_and]
      exact Source.Position.along_withoutOffset same _

/-- Every other error is the same. -/
theorem Refused.alike (refused : Refused start first ahead error)
    (same : start.withoutOffset = place.withoutOffset)
    (proper : forall content, ¬ BreaksOff content (first :: ahead)) :
    Exists fun other => Refused place first (withReturns ahead) other ∧
      error.relocate withoutOffset = other.relocate withoutOffset := by
  by_cases isQuote : first = '"'
  · subst isQuote
    rcases refused_literal_withReturns same proper with
      ⟨value, written, closed⟩ | ⟨error, other, here, there, alike⟩
    · cases refused with
      | large digit => cases digit
      | unterminated _ opened =>
          rw [closed] at opened
          cases opened
      | badEscape _ bad =>
          rw [closed] at bad
          cases bad
      | stranger _ _ _ noQuote => exact absurd rfl noQuote
    · exact ⟨other, there, refused.unique here ▸ alike⟩
  · cases refused with
    | large digit above =>
        have digits : (withReturns ahead).takeWhile Char.isDigit =
            ahead.takeWhile Char.isDigit :=
          takeWhile_withReturns (fun _ space => (apart_of_isSpace space).2.1) ahead
        refine ⟨_, .large digit (by rwa [digits]), ?_⟩
        simp [LexicalError.relocate, digits, same]
    | unterminated quoted => exact absurd quoted isQuote
    | badEscape quoted => exact absurd quoted isQuote
    | stranger noWord noDigit noSpace noQuote noMark =>
        refine ⟨_, .stranger noWord noDigit noSpace noQuote noMark, ?_⟩
        simp [LexicalError.relocate, same]

theorem Refused.exists_withReturns (refused : Refused start first ahead error)
    (same : start.withoutOffset = place.withoutOffset) :
    Exists fun other => Refused place first (withReturns ahead) other := by
  by_cases broken : Exists fun content => BreaksOff content (first :: ahead)
  · rcases broken with ⟨content, breaks⟩
    exact ⟨_, (breaks.refused start place).2⟩
  · rcases refused.alike same (not_exists.mp broken) with ⟨other, there, -⟩
    exact ⟨other, there⟩

end WithReturns

/-! ## Scans -/

/-- The second scan, whose lines end with returns, meets the tokens of the first one, and it
comes to an end or to the same text that has no piece at its head. -/
inductive Alongside (position place : Source.Position) (text : List Char) : Scan -> Scan -> Prop
  | finished {tokens others : List Token}
      (same : tokens.map (Token.relocate withoutOffset) =
        others.map (Token.relocate withoutOffset)) :
      Alongside position place text { tokens, failure := none }
        { tokens := others, failure := none }
  | stopped {tokens others : List Token} {passed ahead : List Char} {first : Char}
      {error other : LexicalError}
      (same : tokens.map (Token.relocate withoutOffset) =
        others.map (Token.relocate withoutOffset))
      (shape : text = passed ++ first :: ahead)
      (here : Refused (position.after passed) first ahead error)
      (there : Refused (place.after (withReturns passed)) first (withReturns ahead) other) :
      Alongside position place text { tokens, failure := some error }
        { tokens := others, failure := some other }

theorem Alongside.prepend {position place : Source.Position} {front rest : List Char}
    {scan other : Scan}
    (alongside : Alongside (position.after front) (place.after (withReturns front)) rest scan other)
    {token otherToken : Option Token}
    (same : token.map (Token.relocate withoutOffset) =
      otherToken.map (Token.relocate withoutOffset)) :
    Alongside position place (front ++ rest) (scan.prepend token) (other.prepend otherToken) := by
  have joined {tokens others : List Token}
      (sameTokens : tokens.map (Token.relocate withoutOffset) =
        others.map (Token.relocate withoutOffset)) :
      (token.toList ++ tokens).map (Token.relocate withoutOffset) =
        (otherToken.toList ++ others).map (Token.relocate withoutOffset) := by
    rw [List.map_append, List.map_append, sameTokens, ← Option.toList_map, ← Option.toList_map,
      same]
  cases alongside with
  | finished sameTokens => exact .finished (joined sameTokens)
  | @stopped _ _ passed _ _ _ _ sameTokens shape here there =>
      rw [← Source.Position.after_append] at here there
      rw [← withReturns_append] at there
      refine .stopped (joined sameTokens) ?_ here there
      rw [shape, List.append_assoc]

theorem ofCursor_of_refused {position : Source.Position} {first : Char} {ahead : List Char}
    {error : LexicalError} (refused : Refused position first ahead error) :
    ofCursor { position, remaining := first :: ahead } =
      { tokens := [], failure := some error } := by
  rw [ofCursor]
  simp only [read_of_refused refused]

/-- Both scans go from piece to piece together. -/
theorem alongside_ofCursor {cursor : Source.Cursor} {place : Source.Position}
    (same : cursor.position.withoutOffset = place.withoutOffset) :
    Alongside cursor.position place cursor.remaining (ofCursor cursor)
      (ofCursor { position := place, remaining := withReturns cursor.remaining }) := by
  fun_induction ofCursor cursor generalizing place with
  | case1 cursor atEnd =>
      rw [atEnd, show withReturns [] = [] from rfl, ofCursor_nil]
      apply Alongside.finished
      simp [Token.relocate, Token.endMarker, Source.Span.relocate, Source.Span.point, same]
  | case2 cursor first ahead shape error failed =>
      have here := refused_of_read failed
      rcases here.exists_withReturns same with ⟨other, there⟩
      have inLine : first ≠ '\n' := by
        rintro rfl
        rw [read_of_space rfl] at failed
        cases failed
      rw [shape, withReturns_cons inLine, ofCursor_of_refused there]
      exact @Alongside.stopped _ _ _ [] [] [] _ _ _ _ rfl rfl here there
  | case3 cursor first ahead shape piece run inductionHypothesis =>
      have whole := Piece.cons_eq_of_read run
      rcases Piece.fitting_of_read run with ⟨rfl, ⟨rest, split⟩, fitting⟩
      subst split
      rw [List.drop_left] at whole fitting inductionHypothesis ⊢
      have later := inductionHypothesis (after_withReturns same piece.text)
      rw [shape, whole, withReturns_append]
      cases content : piece.content with
      | gap =>
          rw [Piece.Fitting, content] at fitting
          rw [ofCursor_filler_withReturns fitting]
          have noToken (start : Source.Position) : piece.token? start = none := by
            rw [Piece.token?, content]
          rw [noToken]
          exact later.prepend rfl
      | lexeme kind value =>
          have isLexeme : piece.content ≠ .gap := by simp [content]
          have unbroken := unbroken_of_read run isLexeme
          have runOn := read_of_follows run rfl isLexeme (follows_withReturns rest) place
          have step := ofCursor_of_read runOn
          rw [List.drop_left] at step
          have both := later.prepend (congruent_withoutOffset.token? same piece)
          rw [withReturns_of_line unbroken] at both ⊢
          rw [← step] at both
          exact both

end Scan
end ToyFrontend
