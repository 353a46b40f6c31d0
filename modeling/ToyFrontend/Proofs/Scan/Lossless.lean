import ToyFrontend.Proofs.Scan.Layout

namespace ToyFrontend

namespace Source

/-- The bytes of a document between two offsets. -/
def slice (document : String) (start finish : Nat) : ByteArray :=
  document.toByteArray.extract start finish

theorem Position.offset_after (position : Position) (text : List Char) :
    (position.after text).offset = position.offset + text.utf8Encode.size := by
  induction text generalizing position with
  | nil => simp
  | cons character text inductionHypothesis =>
      have next : (position.next character).offset = position.offset + character.utf8Size := by
        unfold Position.next
        split <;> rfl
      have first : (character :: text).utf8Encode.size =
          character.utf8Size + text.utf8Encode.size := by
        rw [← String.toByteArray_ofList, String.size_toByteArray, String.ofList_cons,
          String.utf8ByteSize_append, String.utf8ByteSize_singleton, ← String.size_toByteArray,
          String.toByteArray_ofList]
      rw [Position.after_cons, inductionHypothesis, next, first, Nat.add_assoc]

theorem Position.offset_le_after (position : Position) (text : List Char) :
    position.offset <= (position.after text).offset := by
  rw [offset_after]
  exact Nat.le_add_right _ _

/-- Along one line both ways of counting agree. -/
theorem Position.along_eq_after (position : Position) {stretch : List Char}
    (sameLine : '\n' ∉ stretch) : position.along stretch = position.after stretch := by
  induction stretch generalizing position with
  | nil => rfl
  | cons character stretch inductionHypothesis =>
      rw [List.mem_cons, not_or] at sameLine
      rcases sameLine with ⟨notLineFeed, later⟩
      rw [Position.after_cons, ← inductionHypothesis _ later, Position.next,
        if_neg (Ne.symm notLineFeed)]
      simp [Position.along, String.ofList_cons, Nat.add_assoc, Nat.add_comm 1]

theorem toByteArray_eq (document : String) :
    document.toByteArray = document.toList.utf8Encode := by
  rw [← String.toByteArray_ofList, String.ofList_toList]

/-- A stretch of the document, between the places before and behind it. -/
theorem slice_eq {document : String} {passed text rest : List Char}
    (shape : document.toList = passed ++ (text ++ rest)) :
    slice document (Position.start.after passed).offset
      (Position.start.after (passed ++ text)).offset = text.utf8Encode := by
  have reached : (Position.start.after passed).offset = passed.utf8Encode.size := by
    rw [Position.offset_after]
    exact Nat.zero_add _
  rw [slice, toByteArray_eq, shape, List.utf8Encode_append, List.utf8Encode_append,
    Position.after_append, Position.offset_after (Position.start.after passed), reached]
  calc
    _ = (text.utf8Encode ++ rest.utf8Encode).extract 0 text.utf8Encode.size :=
      ByteArray.extract_append_size_add (i := 0)
    _ = text.utf8Encode := ByteArray.extract_append_eq_left rfl

theorem offset_end (document : String) :
    (Position.start.after document.toList).offset = document.utf8ByteSize := by
  rw [Position.offset_after, ← toByteArray_eq, String.size_toByteArray]
  exact Nat.zero_add _

theorem slice_end {document : String} {passed rest : List Char}
    (shape : document.toList = passed ++ rest) :
    slice document (Position.start.after passed).offset document.utf8ByteSize =
      rest.utf8Encode := by
  rw [← offset_end, shape]
  exact slice_eq (shape.trans (by rw [List.append_nil]))

end Source

namespace Scan

/-!
# Scanning loses nothing

The tokens of a document and the document itself determine each other, apart from
what stands in the gaps.  Everything here is said in bytes, because the spans of
tokens count bytes: the text of a token is the slice of the document under its
span, the slices between the spans are gaps, and texts and gaps in turn are the
document.
-/

/-- The slice of a document between two offsets is a gap, before what follows it there. -/
def IsGap (document : String) (start finish : Nat) : Prop :=
  Exists fun gap => Exists fun rest => Gap gap rest ∧
    Source.slice document start finish = gap.utf8Encode ∧
    Source.slice document finish document.utf8ByteSize = rest.utf8Encode

/-- The texts of the tokens, with the slices of the document between their spans put
back, from an offset on. -/
def rebuild (document : String) : Nat -> List Token -> ByteArray
  | offset, [] => Source.slice document offset document.utf8ByteSize
  | offset, token :: tokens =>
      Source.slice document offset token.span.start.offset ++
        (token.text.toByteArray ++ rebuild document token.span.finish.offset tokens)

/-- The tokens keep the whole of a document. -/
structure Lossless (document : String) (tokens : List Token) : Prop where
  /-- The text of a token is what its span covers. -/
  texts : forall token, token ∈ tokens -> token.text.toByteArray =
    Source.slice document token.span.start.offset token.span.finish.offset
  directed : forall token, token ∈ tokens ->
    token.span.start.offset <= token.span.finish.offset
  disjoint : tokens.Pairwise fun first second =>
    first.span.finish.offset <= second.span.start.offset
  /-- Before each token, as far as the one before it, there is only a gap. -/
  gaps : forall before token behind, tokens = before ++ token :: behind ->
    IsGap document (Token.endOf before).offset token.span.start.offset
  gapBehind : IsGap document (Token.endOf tokens).offset document.utf8ByteSize
  /-- Only the last token is an end marker, and it covers nothing. -/
  marked : Exists fun lexemes => Exists fun marker => tokens = lexemes ++ [marker] ∧
    (forall token, token ∈ lexemes -> token.kind ≠ .eof ∧ token.text ≠ "") ∧
    marker.kind = .eof ∧ marker.text = "" ∧
    marker.span.start.offset = document.utf8ByteSize ∧
    marker.span.finish.offset = document.utf8ByteSize
  rebuilt : rebuild document 0 tokens = document.toByteArray

namespace Layout

/-- From each token on there is a layout again, of what lies behind the last token. -/
theorem split {position : Source.Position} {remaining : List Char} {tokens before : List Token}
    {token : Token} {behind : List Token} (layout : Layout position remaining tokens)
    (shape : tokens = before ++ token :: behind) :
    Exists fun passed => Exists fun ahead => remaining = passed ++ ahead ∧
      (before.getLast?.map fun last => last.span.finish).getD position = position.after passed ∧
      Layout (position.after passed) ahead (token :: behind) := by
  induction before generalizing position remaining tokens with
  | nil => exact ⟨[], remaining, rfl, rfl, by simpa [shape] using layout⟩
  | cons first before inductionHypothesis =>
      cases layout with
      | finish => simp at shape
      | @lexeme _ gap text rest _ _ skipped nonempty proper written starts finishes others =>
          rcases List.cons_eq_cons.mp shape with ⟨rfl, later⟩
          rcases inductionHypothesis others later with ⟨passed, ahead, rfl, ends, later⟩
          rw [← Source.Position.after_append] at ends later
          refine ⟨gap ++ text ++ passed, ahead, by simp, ?_, later⟩
          rw [← ends, ← finishes, List.getLast?_cons]
          cases before.getLast? <;> rfl

/-- The tokens of a layout lie behind its beginning, in order. -/
theorem ordered {position : Source.Position} {remaining : List Char} {tokens : List Token}
    (layout : Layout position remaining tokens) :
    (forall token, token ∈ tokens -> position.offset <= token.span.start.offset) ∧
      tokens.Pairwise fun first second =>
        first.span.finish.offset <= second.span.start.offset := by
  induction layout with
  | finish skipped =>
      refine ⟨?_, List.pairwise_singleton _ _⟩
      intro token only
      cases List.mem_singleton.mp only
      exact Source.Position.offset_le_after _ _
  | lexeme skipped nonempty proper written starts finishes others inductionHypothesis =>
      rcases inductionHypothesis with ⟨behind, pairwise⟩
      refine ⟨?_, List.pairwise_cons.mpr ⟨?_, pairwise⟩⟩
      · intro token member
        rcases List.mem_cons.mp member with rfl | later
        · rw [starts]
          exact Source.Position.offset_le_after _ _
        · exact Nat.le_trans (Source.Position.offset_le_after _ _) (behind token later)
      · intro token later
        rw [finishes]
        exact behind token later

variable {document : String} {passed : List Char}

theorem isGap {gap rest : List Char} (skipped : Gap gap rest)
    (shape : document.toList = passed ++ (gap ++ rest)) :
    IsGap document (Source.Position.start.after passed).offset
      (Source.Position.start.after (passed ++ gap)).offset :=
  ⟨gap, rest, skipped, Source.slice_eq shape,
    Source.slice_end (shape.trans (List.append_assoc _ _ _).symm)⟩

/-- The first token of a layout, as the document has it. -/
theorem first_eq {ahead : List Char} {token : Token} {behind : List Token}
    (layout : Layout (Source.Position.start.after passed) ahead (token :: behind))
    (shape : document.toList = passed ++ ahead) :
    token.text.toByteArray =
        Source.slice document token.span.start.offset token.span.finish.offset ∧
      token.span.start.offset <= token.span.finish.offset ∧
      IsGap document (Source.Position.start.after passed).offset token.span.start.offset := by
  cases layout with
  | finish skipped =>
      rw [← Source.Position.after_append]
      refine ⟨ByteArray.extract_same.symm, Nat.le_refl _, ?_⟩
      exact isGap skipped (by rw [shape, List.append_nil])
  | @lexeme _ gap text rest _ _ skipped nonempty proper written starts finishes others =>
      rw [← Source.Position.after_append] at starts finishes
      rw [starts, finishes, written, String.toByteArray_ofList]
      refine ⟨?_, ?_, isGap skipped shape⟩
      · rw [← List.append_assoc]
        exact (Source.slice_eq (by rw [shape, List.append_assoc])).symm
      · rw [← List.append_assoc, Source.Position.after_append _ (passed ++ gap)]
        exact Source.Position.offset_le_after _ _

/-- What the tokens of a layout cover, with the gaps between them, is the text. -/
theorem rebuild_eq {remaining : List Char} {tokens : List Token}
    (layout : Layout (Source.Position.start.after passed) remaining tokens)
    (shape : document.toList = passed ++ remaining) :
    rebuild document (Source.Position.start.after passed).offset tokens =
      remaining.utf8Encode := by
  generalize reached : Source.Position.start.after passed = position at layout
  induction layout generalizing passed with
  | @finish position gap skipped =>
      have atEnd : position.after gap = Source.Position.start.after document.toList := by
        rw [← reached, ← Source.Position.after_append, shape]
      change Source.slice document _ (position.after gap).offset ++
        (ByteArray.empty ++ Source.slice document (position.after gap).offset _) = _
      rw [atEnd, Source.offset_end, ← reached, Source.slice_end shape, Source.slice,
        ByteArray.extract_same, ByteArray.append_empty, ByteArray.append_empty]
  | @lexeme position gap text rest token tokens skipped nonempty proper written starts finishes
      others inductionHypothesis =>
      rw [← reached, ← Source.Position.after_append] at starts
      have shapeRest : document.toList = (passed ++ (gap ++ text)) ++ rest := by
        rw [shape]
        simp
      have rebuilt := inductionHypothesis shapeRest (by rw [Source.Position.after_append, reached])
      rw [rebuild, starts, finishes, rebuilt, ← reached, Source.slice_eq shape, written,
        String.toByteArray_ofList, List.utf8Encode_append, List.utf8Encode_append]

end Layout

theorem lossless_of_layout {document : String} {tokens : List Token}
    (layout : Layout .start document.toList tokens) : Lossless document tokens := by
  -- Every token begins a layout of what lies ahead of it.
  have located {before behind : List Token} {token : Token}
      (shape : tokens = before ++ token :: behind) :
      Exists fun passed => Exists fun ahead => document.toList = passed ++ ahead ∧
        Token.endOf before = Source.Position.start.after passed ∧
        Layout (Source.Position.start.after passed) ahead (token :: behind) := by
    rcases layout.split shape with ⟨passed, ahead, same, ends, later⟩
    refine ⟨passed, ahead, same, ?_, later⟩
    rw [← ends, Token.endOf]
    cases before.getLast? <;> rfl
  rcases layout.marked with ⟨lexemes, marked, each⟩
  have atEnd := Source.offset_end document
  refine ⟨?_, ?_, layout.ordered.2, ?_, ?_, ?_, ?_⟩
  · intro token member
    rcases List.append_of_mem member with ⟨before, behind, shape⟩
    rcases located shape with ⟨passed, ahead, same, -, later⟩
    exact (later.first_eq same).1
  · intro token member
    rcases List.append_of_mem member with ⟨before, behind, shape⟩
    rcases located shape with ⟨passed, ahead, same, -, later⟩
    exact (later.first_eq same).2.1
  · intro before token behind shape
    rcases located shape with ⟨passed, ahead, same, ends, later⟩
    rw [ends]
    exact (later.first_eq same).2.2
  · have ends : Token.endOf tokens = Source.Position.start.after document.toList := by
      rw [marked, Token.endOf, List.getLast?_concat]
      rfl
    have nothing := @Layout.isGap document document.toList [] [] .none (by simp)
    rw [List.append_nil, atEnd] at nothing
    rwa [ends, atEnd]
  · exact ⟨lexemes, _, marked, each, rfl, rfl, atEnd, atEnd⟩
  · rw [Source.toByteArray_eq]
    exact @Layout.rebuild_eq document [] _ _ layout rfl

end Scan

/-- Scanning keeps every byte of a document: the texts of the tokens are the slices
under their spans, only spaces and comments stand between them, and both together
are the document. -/
theorem lossless_of_tokenize {source : String} {tokens : List Token}
    (scanned : tokenize source = .ok tokens) : Scan.Lossless source tokens :=
  Scan.lossless_of_layout (Scan.layout_of_tokenize scanned)

/-- A document with wide characters in a literal and in a comment. -/
def accentedDocument : String :=
  "x=\"é\" //é\n"

def accentedTokens : List Token :=
  [{ kind := .identifier
     text := "x"
     value := none
     span := { start := ⟨0, 1, 1⟩, finish := ⟨1, 1, 2⟩ } },
    { kind := .assignment
      text := "="
      value := none
      span := { start := ⟨1, 1, 2⟩, finish := ⟨2, 1, 3⟩ } },
    { kind := .stringLiteral
      text := "\"é\""
      value := some (.string "é")
      span := { start := ⟨2, 1, 3⟩, finish := ⟨6, 1, 6⟩ } },
    .endMarker ⟨12, 2, 1⟩]

theorem lossless_of_accentedDocument :
    tokenize accentedDocument = .ok accentedTokens ∧
      Scan.Lossless accentedDocument accentedTokens := by
  have scanned : tokenize accentedDocument = .ok accentedTokens :=
    tokenize_eq_ok (by decide +kernel)
  exact ⟨scanned, lossless_of_tokenize scanned⟩

end ToyFrontend
