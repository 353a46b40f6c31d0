import ToyFrontend.Proofs.Scan.Spelling

namespace ToyFrontend

/-!
# A value has one literal

The text of an expression writes a value between quotes, and the scanner reads
what stands between quotes as a value.  Each undoes the other: what is written for
a value is scanned as one token with this value, and no token of a document has a
value that would be written in another way.  So a literal and its value determine
each other, whatever characters the value has.
-/

open SyntaxTree (Expr)

namespace Token

/-- A token that covers the whole of a document. -/
def whole (kind : Kind) (text : String) (value : Option Literal) : Token where
  kind := kind
  text := text
  value := value
  span := { start := .start, finish := .after .start text.toList }

end Token

namespace Scan

open Text.Quoted (encode)

/-- What is written for a value is scanned as one literal. -/
theorem ofCursor_encoded (value : String) :
    ofCursor { position := .start, remaining := encode value.toList } =
      { tokens :=
          [.whole .stringLiteral (String.ofList (encode value.toList)) (some (.string value)),
            .endMarker (.after .start (encode value.toList))]
        failure := none } := by
  have read := read_of_denotes (Text.Quoted.denotes_encoded value.toList) [] .start
  rw [List.append_nil] at read
  rw [encode, ofCursor_of_read read, List.drop_length, ofCursor_nil, Token.whole,
    String.toList_ofList, String.ofList_toList]
  rfl

/-- A token of a literal has the text that is written for its value. -/
theorem Recognized.encoded {ahead : List Char} {token : Token} (recognized : Recognized ahead token)
    (isString : token.kind = .stringLiteral) :
    Exists fun value => token.value = some (.string value) ∧
      String.ofList (encode value.toList) = token.text := by
  have classified := recognized.classified
  rw [isString] at classified
  generalize token.text = text, token.value = given at classified
  cases classified with
  | spelled fixed => cases fixed
  | @string _ value literal =>
      refine ⟨_, rfl, ?_⟩
      generalize shape : text.toList = characters at literal
      cases literal with
      | mk denotes =>
          rw [← @String.ofList_toList text, shape, denotes.eq_encoded, String.toList_ofList]
          rfl

end Scan

theorem SyntaxTree.Expr.text_stringLiteral (value : String) (span : Source.Span) :
    (Expr.stringLiteral value span).text = String.ofList (Text.Quoted.encode value.toList) := by
  rw [Expr.text]

/-- The text of every string value is a document of one literal with this value, which
covers the whole text.  And every literal of a document has the text of its value. -/
theorem literals_are_texts_of_values :
    (forall (value : String) (span : Source.Span),
      tokenize (Expr.stringLiteral value span).text =
          .ok [.whole .stringLiteral (Expr.stringLiteral value span).text (some (.string value)),
            .endMarker (.after .start (Expr.stringLiteral value span).text.toList)] ∧
        (Source.Position.after .start (Expr.stringLiteral value span).text.toList).offset =
          (Expr.stringLiteral value span).text.utf8ByteSize) ∧
    (forall (source : String) (tokens : List Token) (token : Token),
      tokenize source = .ok tokens -> token ∈ tokens -> token.kind = .stringLiteral ->
        Exists fun value => token.value = some (.string value) ∧
          forall span, (Expr.stringLiteral value span).text = token.text) := by
  constructor
  · intro value span
    refine ⟨?_, Source.offset_end _⟩
    rw [Expr.text_stringLiteral]
    apply tokenize_eq_ok
    rw [Scan.ofSource, Source.Cursor.ofText, String.toList_ofList]
    exact Scan.ofCursor_encoded value
  · intro source tokens token scanned member isString
    rcases Scan.exists_read_of_tokenize scanned member (by rw [isString]; decide) with
      ⟨passed, first, ahead, piece, -, run, isToken⟩
    rcases (Scan.recognized_of_read run isToken).encoded isString with ⟨value, hasValue, written⟩
    refine ⟨value, hasValue, fun span => ?_⟩
    rw [Expr.text_stringLiteral, written]

/-- Backslashes before quotes, a return, a wide character, a line feed that is written as an
escape, and a backslash at the end. -/
def knottedLiteral : Token :=
  .whole .stringLiteral "\"\\\\\\\"\ré\\n\\\\\"" (some (.string "\\\"\ré\n\\"))

def knottedTokens : List Token :=
  [knottedLiteral, .endMarker ⟨13, 1, 13⟩]

theorem knottedLiteral_is_text_of_value :
    tokenize knottedLiteral.text = .ok knottedTokens ∧ knottedLiteral ∈ knottedTokens ∧
      knottedLiteral.kind = .stringLiteral ∧
      Exists fun value => knottedLiteral.value = some (.string value) ∧
        forall span, (Expr.stringLiteral value span).text = knottedLiteral.text := by
  have scanned : tokenize knottedLiteral.text = .ok knottedTokens :=
    tokenize_eq_ok (by decide +kernel)
  exact ⟨scanned, List.mem_cons_self, rfl,
    literals_are_texts_of_values.2 _ _ _ scanned List.mem_cons_self rfl⟩

end ToyFrontend
