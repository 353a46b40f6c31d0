import ToyFrontend.Proofs.Place
import ToyFrontend.Proofs.Reading.Program
import ToyFrontend.Proofs.Reading.Relocation
import ToyFrontend.Proofs.Scan.Continuation

namespace ToyFrontend

/-!
# Documents below one another

Two documents with a line feed between them are read as the statements of the
first and then those of the second, which stand further down.  The scan begins
afresh behind the line feed, and no statement goes on with the first token of
another: derivations of statements may be put behind one another as they are.
-/

/-! ## Places further down -/

namespace Source.Position

/-- Where a place comes to lie when a text and a line feed are put before it. -/
def below (text : String) (position : Position) : Position where
  offset := position.offset + (text.utf8ByteSize + 1)
  line := position.line + (text.toList.count '\n' + 1)
  column := position.column

theorem next_below (text : String) (position : Position) (character : Char) :
    (position.next character).below text = (position.below text).next character := by
  unfold next
  split <;> simp [below] <;> omega

/-- The beginning comes to lie behind the line feed. -/
theorem start_below (text : String) :
    start.below text = (start.after text.toList).next '\n' := by
  have counts := @Counts.after start [] counts_start text.toList
  rw [List.nil_append, String.ofList_toList] at counts
  have oneByte : '\n'.utf8Size = 1 := rfl
  rw [next, if_pos rfl, counts.offset, counts.line, oneByte]
  simp [below, start, Nat.add_assoc]

end Source.Position

/-! ## Scanning and reading one document after the other -/

theorem ofSource_of_tokenize {source : String} {tokens : List Token}
    (scanned : tokenize source = .ok tokens) :
    Scan.ofSource source = { tokens, failure := none } := by
  unfold tokenize Scan.result at scanned
  split at scanned
  next finished =>
    cases scanned
    rw [← finished]
  next => cases scanned

theorem tokenize_append {first second : String} {tokens others : List Token}
    (scanned : tokenize first = .ok tokens) (scannedOther : tokenize second = .ok others) :
    tokenize (first ++ "\n" ++ second) =
      .ok (tokens.dropLast ++ others.map (Token.relocate (Source.Position.below first))) := by
  have scan : Scan.ofCursor { position := .start, remaining := first.toList } = _ :=
    ofSource_of_tokenize scanned
  have scanOther : Scan.ofCursor { position := .start, remaining := second.toList } = _ :=
    ofSource_of_tokenize scannedOther
  have further := Scan.ofCursor_relocate (Source.Position.next_below first)
    (congrArg Scan.failure scanOther)
  have whole := Scan.ofCursor_append_lineFeed (congrArg Scan.failure scan) second.toList
  dsimp only at further
  rw [← Source.Position.start_below, further, scan, scanOther] at whole
  apply tokenize_eq_ok
  rw [Scan.ofSource, Source.Cursor.ofText, String.toList_append, String.toList_append,
    List.append_assoc]
  exact whole

theorem Phrase.Repeated.append {Item : Type} {item : List Token -> Item -> Prop}
    {tokens rest : List Token} {values others : List Item} (spelled : Repeated item tokens values)
    (behind : Repeated item rest others) : Repeated item (tokens ++ rest) (values ++ others) := by
  induction spelled with
  | none => exact behind
  | more spelled _ inductionHypothesis =>
      rw [List.append_assoc]
      exact .more spelled inductionHypothesis

open SyntaxTree (Program Stmt)

/-- Tokens behind those of a program are read on, without the marker between them. -/
theorem parseTokens_append {lexemes others : List Token} {marker last : Token}
    {program other : Program} (proper : forall token, token ∈ lexemes -> token.kind ≠ .eof)
    (properOther : forall token, token ∈ others -> token.kind ≠ .eof)
    (ends : marker.kind = .eof) (endsLast : last.kind = .eof)
    (accepted : parseTokens (lexemes ++ [marker]) = .ok program)
    (acceptedOther : parseTokens (others ++ [last]) = .ok other) :
    parseTokens (lexemes ++ (others ++ [last])) =
      .ok { body := program.body ++ other.body, span := other.span } := by
  have spelled := ((Reading.parseTokens_marked_iff proper ends).mp accepted).1
  rcases (Reading.parseTokens_marked_iff properOther endsLast).mp acceptedOther with
    ⟨spelledOther, span⟩
  have properBoth : forall token, token ∈ lexemes ++ others -> token.kind ≠ .eof :=
    List.forall_mem_append.mpr ⟨proper, properOther⟩
  rw [← List.append_assoc]
  exact (Reading.parseTokens_marked_iff properBoth endsLast).mpr
    ⟨spelled.append spelledOther, span⟩

/-- Two documents with a line feed between them are read one after the other.  The
statements of the first keep their places.  Those of the second come to lie further down,
by the bytes and the lines before them, and the program ends where the marker of the second
document comes to lie. -/
theorem parse_append {first second : String} {program other : Program}
    (accepted : parse first = .ok program) (acceptedOther : parse second = .ok other) :
    Exists fun lexemes => Exists fun marker =>
      tokenize second = .ok (lexemes ++ [marker]) ∧ marker.kind = .eof ∧
        parse (first ++ "\n" ++ second) = .ok
          { body := program.body ++
              other.body.map (Stmt.relocate (Source.Position.below first))
            span := { start := .start, finish := marker.span.finish.below first } } := by
  rcases parse_eq_ok_iff.mp accepted with ⟨tokens, scanned, given⟩
  rcases parse_eq_ok_iff.mp acceptedOther with ⟨others, scannedOther, givenOther⟩
  rcases (Scan.layout_of_tokenize scanned).marked with ⟨lexemes, rfl, each⟩
  rcases (Scan.layout_of_tokenize scannedOther).marked with ⟨lexemesOther, rfl, eachOther⟩
  have proper := fun token member => (each token member).1
  have properOther := fun token member => (eachOther token member).1
  have properMoved : forall token,
      token ∈ lexemesOther.map (Token.relocate (Source.Position.below first)) ->
        token.kind ≠ .eof :=
    List.forall_mem_map.mpr properOther
  have ends : (Token.endMarker (Source.Position.start.after second.toList)).kind = .eof := rfl
  -- The second document is read where it comes to lie, and then behind the first.
  have further := parseTokens_relocate (Source.Position.below first) lexemesOther ends
  rw [givenOther, List.map_append, List.map_singleton] at further
  have whole := parseTokens_append proper properMoved rfl rfl given further
  have span := ((Reading.parseTokens_marked_iff properOther ends).mp givenOther).2
  refine ⟨lexemesOther, _, scannedOther, ends, parse_eq_ok_iff.mpr
    ⟨_, tokenize_append scanned scannedOther, ?_⟩⟩
  rw [List.dropLast_concat, List.map_append, List.map_singleton, whole, Program.relocate, span]
  rfl

/-- A conditional that could go on, and a comment without a line feed behind it. -/
def openConditional : String :=
  "if (a) \x7b\x7d // é"

def printedLiteral : String :=
  "print(\"é\");"

theorem parse_append_of_openConditional :
    Exists fun program => Exists fun other => parse openConditional = .ok program ∧
      parse printedLiteral = .ok other ∧
      Source.Position.start.below openConditional = ⟨16, 2, 1⟩ ∧
      Exists fun lexemes => Exists fun marker =>
        tokenize printedLiteral = .ok (lexemes ++ [marker]) ∧ marker.kind = .eof ∧
          parse (openConditional ++ "\n" ++ printedLiteral) = .ok
            { body := program.body ++
                other.body.map (Stmt.relocate (Source.Position.below openConditional))
              span :=
                { start := .start, finish := marker.span.finish.below openConditional } } := by
  have isRead : (parse openConditional).isOk = true := by decide +kernel
  have isReadOther : (parse printedLiteral).isOk = true := by decide +kernel
  rcases exists_of_parse_isOk isRead with ⟨program, accepted⟩
  rcases exists_of_parse_isOk isReadOther with ⟨other, acceptedOther⟩
  exact ⟨program, other, accepted, acceptedOther, by decide, parse_append accepted acceptedOther⟩

end ToyFrontend
