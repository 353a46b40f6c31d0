import ToyFrontend.Proofs.Report.Agreement
import ToyFrontend.Proofs.Scan.Misspelling

namespace ToyFrontend

/-!
# Blank documents and the scanner

A document with blank characters only is not analysed, and blank is meant in the
sense of Unicode.  The scanner has a narrower class, and it was not asked.  Of the
twenty-five blank characters it passes four.  The others are no letters, digits or
marks, so the first of them is refused.

A blank document is therefore either vacant, with no lexeme and an empty program, or
it is one that the scanner could not have passed.
-/

namespace Text

/-- No character is blank between the space and U+0085, so none of a range that lies there. -/
theorem not_isBlank_of_between {first last character : Char}
    (atLeast : first.val <= character.val) (atMost : character.val <= last.val)
    (above : 0x0020 < first.toNat) (below : last.toNat < 0x0085) : isBlank character = false := by
  have behindSpace : 0x0020 < character.toNat := Nat.lt_of_lt_of_le above atLeast
  have beforeNextLine : character.toNat < 0x0085 := Nat.lt_of_le_of_lt atMost below
  simp only [isBlank, Bool.or_eq_false_iff, Bool.and_eq_false_iff, decide_eq_false_iff_not,
    beq_eq_false_iff_ne]
  omega

theorem not_isBlank_of_isAlpha {character : Char} (letter : character.isAlpha = true) :
    isBlank character = false := by
  rcases Bool.or_eq_true_iff.mp letter with upper | lower
  · rcases of_decide_eq_true upper with ⟨atLeast, atMost⟩
    exact not_isBlank_of_between atLeast atMost (by decide) (by decide)
  · rcases Bool.and_eq_true_iff.mp lower with ⟨atLeast, atMost⟩
    exact not_isBlank_of_between (of_decide_eq_true atLeast) (of_decide_eq_true atMost) (by decide)
      (by decide)

theorem not_isBlank_of_isDigit {character : Char} (digit : character.isDigit = true) :
    isBlank character = false := by
  rcases Bool.and_eq_true_iff.mp digit with ⟨atLeast, atMost⟩
  exact not_isBlank_of_between (of_decide_eq_true atLeast) (of_decide_eq_true atMost) (by decide)
    (by decide)

end Text

namespace Scan

/-- The refusal of a character that begins no lexeme. -/
def refusal (character : Char) (place : Source.Position) : LexicalError where
  cause := .unrecognisedCharacter
  text := String.ofList [character]
  position := place

/-- No lexeme begins with a blank character, and it can be passed only if it is a space. -/
theorem misspelt_of_blank {first : Char} (blank : Text.isBlank first = true)
    (noSpace : first ∉ [' ', '\t', '\r', '\n']) (place : Source.Position) (ahead : List Char) :
    Misspelt place first ahead (refusal first place) := by
  refine .stranger ?_ ?_ ?_
  · cases letter : first.isAlpha with
    | false => rfl
    | true => exact absurd (blank.symm.trans (Text.not_isBlank_of_isAlpha letter)) (by decide)
  · cases digit : first.isDigit with
    | false => rfl
    | true => exact absurd (blank.symm.trans (Text.not_isBlank_of_isDigit digit)) (by decide)
  · intro isMark
    have marks : (['_', ' ', '\t', '\r', '\n', '"', '{', '}', '(', ')', '=', '!', '<', '>', ';',
        ',', '+', '-', '/', '*'].all fun mark => !Text.isBlank mark || isSpace mark) = true := by
      decide
    have passed := List.all_eq_true.mp marks first isMark
    rw [blank] at passed
    exact noSpace (isSpace_iff.mp passed)

end Scan

namespace Report

/-- A document of spaces: the scanner finds only the end of it, and the parser an empty
program. -/
structure Vacant (source : String) : Prop where
  spaces : forall character, character ∈ source.toList -> character ∈ [' ', '\t', '\r', '\n']
  tokens : tokenize source = .ok [.endMarker (.after .start source.toList)]
  program : parse source = .ok
    { body := [], span := { start := .start, finish := .after .start source.toList } }

/-- A document is refused for the first of its characters that is no space, and this one is
blank as well. -/
structure RefusedBehind (source : String) (before : List Char) (stranger : Char)
    (behind : List Char) : Prop where
  shape : source.toList = before ++ stranger :: behind
  spaces : forall character, character ∈ before -> character ∈ [' ', '\t', '\r', '\n']
  noSpace : stranger ∉ [' ', '\t', '\r', '\n']
  blank : Text.isBlank stranger = true
  tokens : tokenize source = .error (Scan.refusal stranger (.after .start before))
  program : parse source = .error (.lexical (Scan.refusal stranger (.after .start before)))

variable {source : String}

theorem empty_ofSource :
    (Analysis.ofSource source).status = .empty ↔ Text.isAllBlank source.toList = true := by
  cases written : Text.isAllBlank source.toList with
  | true => simp [Command.ofSource_of_blank written, Analysis.status]
  | false =>
      have keeps := keeps_ofSource written
      generalize Analysis.ofSource source = analysis at keeps
      cases keeps <;> simp [Analysis.status]

theorem vacant_of_spaces
    (spaces : forall character, character ∈ source.toList -> character ∈ [' ', '\t', '\r', '\n']) :
    Vacant source := by
  have scanned : tokenize source = .ok [.endMarker (.after .start source.toList)] := by
    apply tokenize_eq_ok
    have scan := Scan.ofCursor_spaces spaces .start []
    rwa [List.append_nil, Scan.ofCursor_nil] at scan
  refine ⟨spaces, scanned, ?_⟩
  rw [parse, scanned]
  rfl

theorem refused_of_stranger {before behind : List Char} {stranger : Char}
    (shape : source.toList = before ++ stranger :: behind)
    (spaces : forall character, character ∈ before -> character ∈ [' ', '\t', '\r', '\n'])
    (noSpace : stranger ∉ [' ', '\t', '\r', '\n']) (blank : Text.isBlank stranger = true) :
    RefusedBehind source before stranger behind := by
  have failed : tokenize source = .error (Scan.refusal stranger (.after .start before)) := by
    rw [tokenize_eq_error_iff, Scan.ofSource, Source.Cursor.ofText, shape,
      Scan.ofCursor_spaces spaces]
    exact Scan.failure_of_misspelt (Scan.misspelt_of_blank blank noSpace _ _)
  exact ⟨shape, spaces, noSpace, blank, failed, by rw [parse, failed]⟩

end Report

/-- What a blank document is to the scanner and the parser: nothing if it is made of spaces,
and otherwise misspelt at the first other character. -/
theorem vacant_or_refused_of_empty {source : String}
    (empty : (Report.Analysis.ofSource source).status = .empty) :
    Report.Vacant source ∨
      Exists fun before => Exists fun stranger => Exists fun behind =>
        Report.RefusedBehind source before stranger behind := by
  have blank := List.all_eq_true.mp (Report.empty_ofSource.mp empty)
  cases found : source.toList.find? fun character => !Scan.isSpace character with
  | none =>
      refine .inl (Report.vacant_of_spaces fun character member => ?_)
      have space := List.find?_eq_none.mp found character member
      exact Scan.isSpace_iff.mp (by simpa using space)
  | some stranger =>
      rcases List.find?_eq_some_iff_append.mp found with ⟨strange, before, behind, shape, passed⟩
      have isBlank : Text.isBlank stranger = true := blank stranger (by simp [shape])
      refine .inr ⟨before, stranger, behind, Report.refused_of_stranger shape ?_ ?_ isBlank⟩
      · intro character member
        exact Scan.isSpace_iff.mp (by simpa using passed character member)
      · rw [← Scan.isSpace_iff]
        simpa using strange

/-- A tabulator is passed, and a space that does not break is not. -/
theorem refused_of_empty_with_unbreakable_space :
    (Report.Analysis.ofSource "\t\u00a0").status = .empty ∧
      Exists fun before => Exists fun stranger => Exists fun behind =>
        Report.RefusedBehind "\t\u00a0" before stranger behind := by
  have empty : (Report.Analysis.ofSource "\t\u00a0").status = .empty := by decide
  refine ⟨empty, (vacant_or_refused_of_empty empty).resolve_left fun vacant => ?_⟩
  exact absurd (vacant.spaces '\u00a0' (by decide)) (by decide)

/-- A document can be blank without being vacant. -/
theorem unbreakable_space_is_empty_and_refused :
    (Report.Analysis.ofSource "\u00a0").status = .empty ∧
      (forall place, tokenize "\u00a0" ≠ .ok [.endMarker place]) ∧
      forall program, parse "\u00a0" ≠ .ok program := by
  have refused : Report.RefusedBehind "\u00a0" [] '\u00a0' [] :=
    Report.refused_of_stranger rfl (by simp) (by decide) (by decide)
  refine ⟨by decide, fun place => ?_, fun program => ?_⟩
  · rw [refused.tokens]
    rintro ⟨⟩
  · rw [refused.program]
    rintro ⟨⟩

end ToyFrontend
