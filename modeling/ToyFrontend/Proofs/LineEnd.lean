import ToyFrontend.Proofs.Insertion
import ToyFrontend.Proofs.Scan.LineEnd

namespace ToyFrontend

/-!
# Documents whose lines end with a carriage return

A document may be written with a carriage return before every line feed.  It is
accepted then if it was before, with the same lexemes in the same lines and
columns, and it is read as the same program or refused for the same token.

A document with a lexical error is refused for the same text at the same place,
except for one that breaks off a literal behind a backslash: such a backslash is
part of the text of the unclosed literal, and with the return it is an escape that
does not exist.
-/

open Source.Position (withoutOffset withoutOffset_eq_iff)

/-- The document with a carriage return before every line feed. -/
def Source.crlf (document : String) : String :=
  String.ofList (withReturns document.toList)

theorem alongside_crlf (source : String) :
    Scan.Alongside .start .start source.toList (Scan.ofSource source)
      (Scan.ofSource (Source.crlf source)) := by
  rw [Scan.ofSource, Scan.ofSource, Source.crlf, Source.Cursor.ofText, Source.Cursor.ofText,
    String.toList_ofList]
  exact @Scan.alongside_ofCursor { position := .start, remaining := source.toList } .start rfl

/-- The tokens differ in their offsets only, and so do the programs and the syntax errors. -/
theorem readAlike_crlf (source : String) :
    ((Exists fun tokens => tokenize source = .ok tokens) ↔
        Exists fun others => tokenize (Source.crlf source) = .ok others) ∧
      forall tokens, tokenize source = .ok tokens -> Exists fun others =>
        tokenize (Source.crlf source) = .ok others ∧
          tokens.map (Token.relocate withoutOffset) = others.map (Token.relocate withoutOffset) ∧
          ReadAlike withoutOffset (parse source) (parse (Source.crlf source)) := by
  have alongside := alongside_crlf source
  generalize scan : Scan.ofSource source = first at alongside
  generalize scanOther : Scan.ofSource (Source.crlf source) = second at alongside
  cases alongside with
  | finished same =>
      have scanned := tokenize_eq_ok scan
      have scannedOther := tokenize_eq_ok scanOther
      refine ⟨⟨fun _ => ⟨_, scannedOther⟩, fun _ => ⟨_, scanned⟩⟩, ?_⟩
      intro tokens given
      cases scanned.symm.trans given
      exact ⟨_, scannedOther, same, readAlike_of_tokenize scanned scannedOther same⟩
  | stopped _ _ here there =>
      have failed := tokenize_eq_error_iff.mpr (congrArg Scan.failure scan)
      have failedOther := tokenize_eq_error_iff.mpr (congrArg Scan.failure scanOther)
      simp [failed, failedOther]

/-- A comment and a literal, on two lines. -/
def twoLineDocument : String :=
  "x = // c\n\"a\";"

def twoLineTokens : List Token :=
  [.inFirstLine .identifier "x" 0, .inFirstLine .assignment "=" 2,
    { kind := .stringLiteral, text := "\"a\"", value := some (.string "a"),
      span := { start := ⟨9, 2, 1⟩, finish := ⟨12, 2, 4⟩ } },
    { kind := .semicolon, text := ";", value := none,
      span := { start := ⟨12, 2, 4⟩, finish := ⟨13, 2, 5⟩ } },
    .endMarker ⟨13, 2, 5⟩]

theorem readAlike_crlf_of_twoLineDocument :
    tokenize twoLineDocument = .ok twoLineTokens ∧
      Source.crlf twoLineDocument = "x = // c\r\n\"a\";" ∧
      Exists fun others => tokenize (Source.crlf twoLineDocument) = .ok others ∧
        twoLineTokens.map (Token.relocate withoutOffset) =
          others.map (Token.relocate withoutOffset) ∧
        ReadAlike withoutOffset (parse twoLineDocument) (parse (Source.crlf twoLineDocument)) := by
  have scanned : tokenize twoLineDocument = .ok twoLineTokens :=
    tokenize_eq_ok (by decide +kernel)
  exact ⟨scanned, by decide +kernel, (readAlike_crlf twoLineDocument).2 twoLineTokens scanned⟩

/-! ## Lexical errors -/

/-- The literal at fault is broken off behind a backslash, at the end of its line. -/
def BreaksOffInEscape (source : String) (error : LexicalError) : Prop :=
  error.cause = .unterminatedString ∧
    Exists fun passed => Exists fun content => Exists fun ahead =>
      source.toList = passed ++ ahead ∧ Scan.BreaksOff content ahead ∧
        error.position = .after .start passed

/-- There is one place in a text with a given offset. -/
theorem Source.append_inj_of_after {first second behind other : List Char}
    (same : first ++ behind = second ++ other)
    (place : Position.start.after first = Position.start.after second) :
    first = second ∧ behind = other := by
  have size (text : List Char) :=
    (@Position.Counts.after .start [] Position.counts_start text).offset
  have sameOffset := congrArg Position.offset place
  rw [size, size] at sameOffset
  exact append_inj_of_size same sameOffset

theorem breaksOffInEscape_iff {source : String} {passed ahead : List Char} {first : Char}
    {error : LexicalError} (shape : source.toList = passed ++ first :: ahead)
    (refused : Scan.Refused (.after .start passed) first ahead error) :
    BreaksOffInEscape source error ↔
      Exists fun content => Scan.BreaksOff content (first :: ahead) := by
  constructor
  · rintro ⟨unterminated, before, content, behind, same, breaks, place⟩
    have here : error.position = .after .start passed := by
      cases refused with
      | unterminated => rfl
      | large | badEscape | stranger => cases unterminated
    rw [shape] at same
    rcases Source.append_inj_of_after same (here.symm.trans place) with ⟨-, rfl⟩
    exact ⟨content, breaks⟩
  · rintro ⟨content, breaks⟩
    cases refused.unique (breaks.refused _ .start).1
    exact ⟨rfl, passed, content, first :: ahead, shape, breaks, rfl⟩

/-- An error is the same with returns, unless it is a literal that breaks off in an escape. -/
theorem tokenize_crlf_of_error {source : String} {error : LexicalError}
    (failed : tokenize source = .error error) :
    Exists fun other => tokenize (Source.crlf source) = .error other ∧
      (error.relocate withoutOffset = other.relocate withoutOffset ↔
        ¬ BreaksOffInEscape source error) ∧
      (BreaksOffInEscape source error -> other.cause = .invalidEscape ∧ other.text = "\\\r" ∧
        other.position.line = error.position.line ∧
        other.position.column + 1 = error.position.column + error.text.length) := by
  have alongside := alongside_crlf source
  have failure := tokenize_eq_error_iff.mp failed
  generalize Scan.ofSource source = scan at alongside failure
  generalize scanOther : Scan.ofSource (Source.crlf source) = second at alongside
  cases alongside with
  | finished => cases failure
  | @stopped _ _ passed ahead first _ other _ shape here there =>
      cases failure
      have samePlace := @Source.Position.after_withReturns .start .start rfl passed
      rw [breaksOffInEscape_iff shape here]
      refine ⟨other, tokenize_eq_error_iff.mpr (congrArg Scan.failure scanOther), ?_, ?_⟩
      · constructor
        · rintro same ⟨content, breaks⟩
          cases here.unique (breaks.refused _ .start).1
          cases there.unique (breaks.refused .start _).2
          cases congrArg LexicalError.cause same
        · intro proper
          rcases here.alike samePlace (not_exists.mp proper) with ⟨again, thereAgain, same⟩
          rw [there.unique thereAgain]
          exact same
      · rintro ⟨content, breaks⟩
        cases here.unique (breaks.refused _ .start).1
        cases there.unique (breaks.refused .start _).2
        rcases withoutOffset_eq_iff.mp samePlace with ⟨line, column⟩
        refine ⟨rfl, rfl, line.symm, ?_⟩
        simp only [Source.Position.along, String.length_ofList, List.length_append,
          List.length_cons, List.length_nil, column]
        omega

/-- A literal that is not closed in its line, which is the second one. -/
theorem tokenize_crlf_of_error_in_secondLine :
    tokenize "x\n\"a\n" = .error ⟨.unterminatedString, "\"a", ⟨2, 2, 1⟩⟩ ∧
      Exists fun other => tokenize (Source.crlf "x\n\"a\n") = .error other ∧
        (LexicalError.relocate withoutOffset ⟨.unterminatedString, "\"a", ⟨2, 2, 1⟩⟩ =
            other.relocate withoutOffset ↔
          ¬ BreaksOffInEscape "x\n\"a\n" ⟨.unterminatedString, "\"a", ⟨2, 2, 1⟩⟩) ∧
        (BreaksOffInEscape "x\n\"a\n" ⟨.unterminatedString, "\"a", ⟨2, 2, 1⟩⟩ ->
          other.cause = .invalidEscape ∧ other.text = "\\\r" ∧ other.position.line = 2 ∧
            other.position.column + 1 = 1 + "\"a".length) := by
  have failed : tokenize "x\n\"a\n" = .error ⟨.unterminatedString, "\"a", ⟨2, 2, 1⟩⟩ :=
    tokenize_eq_error_iff.mpr (by decide +kernel)
  exact ⟨failed, tokenize_crlf_of_error failed⟩

/-- With the return, another error is found two columns behind the quote. -/
theorem lexicalError_differs_with_return :
    tokenize "\"a\\\n" = .error ⟨.unterminatedString, "\"a\\", ⟨0, 1, 1⟩⟩ ∧
      tokenize (Source.crlf "\"a\\\n") = .error ⟨.invalidEscape, "\\\r", ⟨2, 1, 3⟩⟩ :=
  ⟨tokenize_eq_error_iff.mpr (by decide +kernel), tokenize_eq_error_iff.mpr (by decide +kernel)⟩

end ToyFrontend
