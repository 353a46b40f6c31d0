import ToyFrontend.Proofs.Concatenation
import ToyFrontend.Proofs.Scan.Insertion
import ToyFrontend.Proofs.Source.Split

namespace ToyFrontend

/-!
# Layout does not matter

Spaces and comments may be put before any token of a document, the end marker
included.  The document has the same lexemes then, and since no reader looks at a
place, it is read as the same program or refused for the same token.

Documents are compared by what is kept of their places.  Here nothing is kept; the
comparison itself leaves open how much is.
-/

/-! ## Documents that are read alike -/

open SyntaxTree (Program)

/-- Two documents are read as the same program, or refused with the same syntax error, as far
as places are kept. -/
inductive ReadAlike (keep : Source.Position -> Source.Position) :
    Except Diagnostic Program -> Except Diagnostic Program -> Prop
  | accepted {program other : Program} (same : program.relocate keep = other.relocate keep) :
      ReadAlike keep (.ok program) (.ok other)
  | refused {error other : SyntaxError} (same : error.relocate keep = other.relocate keep) :
      ReadAlike keep (.error (.syntactic error)) (.error (.syntactic other))

/-- Reading depends on a token by what is kept of it. -/
theorem readAlike_of_tokenize {keep : Source.Position -> Source.Position} {first second : String}
    {tokens others : List Token} (scanned : tokenize first = .ok tokens)
    (scannedOther : tokenize second = .ok others)
    (same : tokens.map (Token.relocate keep) = others.map (Token.relocate keep)) :
    ReadAlike keep (parse first) (parse second) := by
  rcases (Scan.layout_of_tokenize scanned).marked with ⟨lexemes, marked, -⟩
  rcases (Scan.layout_of_tokenize scannedOther).marked with ⟨lexemesOther, markedOther, -⟩
  subst marked
  subst markedOther
  have kept := parseTokens_relocate keep lexemes
    (show (Token.endMarker (Source.Position.start.after first.toList)).kind = .eof from rfl)
  have keptOther := parseTokens_relocate keep lexemesOther
    (show (Token.endMarker (Source.Position.start.after second.toList)).kind = .eof from rfl)
  rw [same, keptOther] at kept
  generalize lexemes ++ [Token.endMarker _] = tokens at scanned kept
  generalize lexemesOther ++ [Token.endMarker _] = others at scannedOther kept
  cases given : parseTokens tokens with
  | ok program =>
      cases givenOther : parseTokens others with
      | ok other =>
          rw [given, givenOther] at kept
          rw [parse_eq_ok_iff.mpr ⟨_, scanned, given⟩,
            parse_eq_ok_iff.mpr ⟨_, scannedOther, givenOther⟩]
          exact .accepted (Except.ok.inj kept).symm
      | error error =>
          rw [given, givenOther] at kept
          cases kept
  | error error =>
      cases givenOther : parseTokens others with
      | ok other =>
          rw [given, givenOther] at kept
          cases kept
      | error other =>
          rw [given, givenOther] at kept
          rw [parse_eq_error scanned given, parse_eq_error scannedOther givenOther]
          exact .refused (Except.error.inj kept).symm

/-! ## Insertion at an offset -/

namespace Source

/-- The document with a text put in behind so many of its bytes, if a character ends there. -/
def insert? (document : String) (offset : Nat) (text : String) : Option String :=
  (splitBytes? offset document.toList).map fun (before, behind) =>
    String.ofList (before ++ (text.toList ++ behind))

/-- The offset of a place divides the document at this place. -/
theorem splitBytes?_after (before behind : List Char) :
    splitBytes? (Position.start.after before).offset (before ++ behind) =
      some (before, behind) := by
  have counts := @Position.Counts.after .start [] Position.counts_start before
  exact splitBytes?_eq_some_iff.mpr ⟨rfl, counts.offset.symm⟩

end Source

/-- What a token says, apart from its place. -/
def Token.content (token : Token) : Token.Kind × String × Option Literal :=
  (token.kind, token.text, token.value)

/-- More room before a token changes no token and nothing that is read, except for places.
Spaces may be inserted, and comments that are apart from what stands before them. -/
theorem readAlike_of_insertion {source trivia : String} {tokens : List Token} {token : Token}
    (scanned : tokenize source = .ok tokens) (member : token ∈ tokens)
    (isTrivia : Scan.Trivia trivia.toList) :
    Exists fun longer => Exists fun others =>
      Source.insert? source token.span.start.offset trivia = some longer ∧
        tokenize longer = .ok others ∧
        others.map Token.content = tokens.map Token.content ∧
        ReadAlike Scan.nowhere (parse source) (parse longer) := by
  have scan : Scan.ofCursor { position := .start, remaining := source.toList } = _ :=
    ofSource_of_tokenize scanned
  have room := Scan.hasRoom_of_mem (congrArg Scan.failure scan) (by rwa [scan])
  rcases room with ⟨before, behind, shape, starts, inserts⟩
  have same := inserts trivia.toList isTrivia .start
  rw [scan] at same
  have finished := congrArg Scan.failure same
  have kept : List.map _ _ = List.map _ _ := congrArg Scan.tokens same
  have scannedLonger : tokenize (String.ofList (before ++ (trivia.toList ++ behind))) =
      .ok (Scan.ofCursor
        { position := .start, remaining := before ++ (trivia.toList ++ behind) }).tokens := by
    apply tokenize_eq_ok
    rw [Scan.ofSource, Source.Cursor.ofText, String.toList_ofList]
    exact congrArg (Scan.mk _) finished
  refine ⟨_, _, ?_, scannedLonger, ?_, readAlike_of_tokenize scanned scannedLonger kept.symm⟩
  · rw [Source.insert?, starts, shape, Source.splitBytes?_after]
    rfl
  · have contents := congrArg (List.map Token.content) kept
    rwa [List.map_map, List.map_map] at contents

/-- A slash before a name, and a comment that nothing ends. -/
def slashedDocument : String :=
  "x = a/b; // c"

def slashedTokens : List Token :=
  [.inFirstLine .identifier "x" 0, .inFirstLine .assignment "=" 2, .inFirstLine .identifier "a" 4,
    .inFirstLine .slash "/" 5, .inFirstLine .identifier "b" 6, .inFirstLine .semicolon ";" 7,
    .endMarker ⟨13, 1, 14⟩]

theorem readAlike_of_insertion_into_slashedDocument :
    tokenize slashedDocument = .ok slashedTokens ∧
      .inFirstLine .identifier "b" 6 ∈ slashedTokens ∧ Scan.Trivia " // d\n".toList ∧
      Source.insert? slashedDocument 6 " // d\n" = some "x = a/ // d\nb; // c" ∧
      Exists fun longer => Exists fun others =>
        Source.insert? slashedDocument 6 " // d\n" = some longer ∧
          tokenize longer = .ok others ∧
          others.map Token.content = slashedTokens.map Token.content ∧
          ReadAlike Scan.nowhere (parse slashedDocument) (parse longer) := by
  have scanned : tokenize slashedDocument = .ok slashedTokens :=
    tokenize_eq_ok (by decide +kernel)
  have member : .inFirstLine .identifier "b" 6 ∈ slashedTokens := by decide
  have isTrivia : Scan.Trivia " // d\n".toList :=
    @Scan.Trivia.comment [' '] [' ', 'd'] (by simp) (by simp) (by simp)
  exact ⟨scanned, member, isTrivia, by decide +kernel,
    readAlike_of_insertion scanned member isTrivia⟩

end ToyFrontend
