import ToyFrontend.Diagnostic.Snippet
import Mathlib.Data.List.Induction

namespace ToyFrontend

/-!
# The line of a place

A place divides a text in two.  The line at the place is what stands before it behind
the last line feed, and what stands behind it before the next one; so the length of the
first part is the column of the place, and its line feeds number the line.

A snippet shows this line without the return at its end, without indentation and
without blanks at its end.  A character that is not blank survives all three, and what
stands before it is shortened by the indentation only.
-/

namespace Source

/-- What stands behind the last line feed of a text. -/
def lastLine (text : List Char) : List Char :=
  (text.reverse.takeWhile (· != '\n')).reverse

/-- What stands before the first line feed of a text. -/
def firstLine (text : List Char) : List Char :=
  text.takeWhile (· != '\n')

theorem firstLine_cons {character : Char} (inLine : character ≠ '\n') (text : List Char) :
    firstLine (character :: text) = character :: firstLine text :=
  List.takeWhile_cons_of_pos (bne_iff_ne.mpr inLine)

theorem lastLine_concat {character : Char} (inLine : character ≠ '\n') (text : List Char) :
    lastLine (text ++ [character]) = lastLine text ++ [character] := by
  simp [lastLine, inLine]

theorem lines_lineFeed (text : List Char) : lines ('\n' :: text) = [] :: lines text :=
  rfl

theorem lines_cons {character : Char} (inLine : character ≠ '\n') {text line : List Char}
    {rest : List (List Char)} (shape : lines text = line :: rest) :
    lines (character :: text) = (character :: line) :: rest := by
  rw [lines, if_neg inLine, shape]

theorem lines_append_lineFeed (front behind : List Char) :
    lines (front ++ '\n' :: behind) = lines front ++ lines behind := by
  induction front with
  | nil => rfl
  | cons character front inductionHypothesis =>
      by_cases isLineFeed : character = '\n'
      · rw [isLineFeed, List.cons_append, lines_lineFeed, lines_lineFeed, inductionHypothesis]
        rfl
      · rcases List.exists_cons_of_ne_nil (lines_ne_nil front) with ⟨line, rest, shape⟩
        rw [shape] at inductionHypothesis
        rw [lines_cons isLineFeed shape, List.cons_append,
          lines_cons isLineFeed inductionHypothesis]
        rfl

theorem length_lines (text : List Char) : (lines text).length = text.count '\n' + 1 := by
  induction text with
  | nil => rfl
  | cons character text inductionHypothesis =>
      by_cases isLineFeed : character = '\n'
      · rw [isLineFeed, lines_lineFeed, List.length_cons, inductionHypothesis, List.count_cons_self]
      · rcases List.exists_cons_of_ne_nil (lines_ne_nil text) with ⟨line, rest, shape⟩
        rw [List.count_cons_of_ne isLineFeed, ← inductionHypothesis, shape,
          lines_cons isLineFeed shape]
        rfl

theorem head?_lines (text : List Char) : (lines text).head? = some (firstLine text) := by
  induction text with
  | nil => rfl
  | cons character text inductionHypothesis =>
      by_cases isLineFeed : character = '\n'
      · rw [isLineFeed]
        rfl
      · rcases List.exists_cons_of_ne_nil (lines_ne_nil text) with ⟨line, rest, shape⟩
        rw [shape, List.head?_cons, Option.some.injEq] at inductionHypothesis
        rw [lines_cons isLineFeed shape, inductionHypothesis, firstLine_cons isLineFeed,
          List.head?_cons]

/-- The line at a place is numbered by the line feeds before the place. -/
theorem getElem?_lines (passed ahead : List Char) :
    (lines (passed ++ ahead))[passed.count '\n']? = some (lastLine passed ++ firstLine ahead) := by
  induction passed using List.reverseRecOn generalizing ahead with
  | nil => rw [List.nil_append, List.count_nil, ← List.head?_eq_getElem?, head?_lines]; rfl
  | append_singleton passed character inductionHypothesis =>
      rw [List.append_assoc, List.singleton_append, List.count_append]
      by_cases isLineFeed : character = '\n'
      · subst isLineFeed
        have begins : lastLine (passed ++ ['\n']) = [] := by simp [lastLine]
        rw [lines_append_lineFeed, List.count_singleton_self, ← length_lines,
          List.getElem?_append_right (Nat.le_refl _), Nat.sub_self, ← List.head?_eq_getElem?,
          head?_lines, begins, List.nil_append]
      · rw [List.count_cons_of_ne isLineFeed, List.count_nil, Nat.add_zero, inductionHypothesis,
          lastLine_concat isLineFeed, firstLine_cons isLineFeed, List.append_assoc,
          List.singleton_append]

theorem lineFeed_not_mem_lastLine (text : List Char) : '\n' ∉ lastLine text := by
  intro member
  cases List.all_eq_true.mp List.all_takeWhile _ (List.mem_reverse.mp member)

theorem lineFeed_not_mem_firstLine (text : List Char) : '\n' ∉ firstLine text := by
  intro member
  cases List.all_eq_true.mp List.all_takeWhile _ member

theorem subset_withoutReturn (line : List Char) : withoutReturn line ⊆ line := by
  unfold withoutReturn
  split
  next => exact List.dropLast_subset line
  next => exact List.Subset.refl line

/-- Only the last character of a line can be a return that is removed. -/
theorem withoutReturn_append_cons {character : Char} (kept : character ≠ '\r')
    (front rest : List Char) :
    withoutReturn (front ++ character :: rest) = front ++ character :: withoutReturn rest := by
  rcases List.eq_nil_or_concat rest with rfl | ⟨others, last, rfl⟩
  · rw [withoutReturn, if_neg (by simpa using kept)]
    rfl
  · rw [List.concat_eq_append, ← List.cons_append, ← List.append_assoc, withoutReturn,
      withoutReturn, List.getLast?_concat, List.getLast?_concat, List.dropLast_concat,
      List.dropLast_concat]
    split
    next => rfl
    next => rw [List.append_assoc, List.cons_append]

end Source

namespace Text

section Runs

variable {belongs : Char -> Bool} {character : Char}

/-- A run at the beginning does not go past a character that does not belong to it. -/
theorem takeWhile_append_cons (stops : belongs character = false) (front rest : List Char) :
    (front ++ character :: rest).takeWhile belongs = front.takeWhile belongs := by
  induction front with
  | nil => exact List.takeWhile_cons_of_neg (by rw [stops]; decide)
  | cons first front inductionHypothesis =>
      rw [List.cons_append, List.takeWhile_cons, List.takeWhile_cons, inductionHypothesis]

theorem dropWhile_append_cons (stops : belongs character = false) (front rest : List Char) :
    (front ++ character :: rest).dropWhile belongs =
      front.dropWhile belongs ++ character :: rest := by
  induction front with
  | nil => exact List.dropWhile_cons_of_neg (by rw [stops]; decide)
  | cons first front inductionHypothesis =>
      rw [List.cons_append, List.dropWhile_cons, List.dropWhile_cons, inductionHypothesis]
      split <;> rfl

end Runs

theorem trimEnd_subset (text : List Char) : trimEnd text ⊆ text := by
  intro character member
  have kept := (List.dropWhile_sublist isBlank).subset (List.mem_reverse.mp member)
  exact List.mem_reverse.mp kept

theorem trimEnd_append_cons {character : Char} (visible : isBlank character = false)
    (front rest : List Char) :
    trimEnd (front ++ character :: rest) = front ++ character :: trimEnd rest := by
  rw [trimEnd, dropEndWhile, List.reverse_append, List.reverse_cons, List.append_assoc,
    List.singleton_append, dropWhile_append_cons visible]
  simp [trimEnd, dropEndWhile]

end Text

namespace Diagnostic

/-- Indentation is blank. -/
theorem not_isIndent_of_visible {character : Char} (visible : Text.isBlank character = false) :
    isIndent character = false := by
  apply Bool.eq_false_iff.mpr
  intro indents
  rcases Bool.or_eq_true_iff.mp indents with space | tab
  · rw [beq_iff_eq.mp space] at visible
    cases visible
  · rw [beq_iff_eq.mp tab] at visible
    cases visible

/-- What is shown of a line with a visible character: before the character only indentation
is missing. -/
theorem exists_shown {character : Char} (visible : Text.isBlank character = false)
    (before behind : List Char) :
    (Source.withoutReturn (before ++ character :: behind)).takeWhile isIndent =
        before.takeWhile isIndent ∧
      Exists fun tail =>
        Text.trimEnd
            ((Source.withoutReturn (before ++ character :: behind)).dropWhile isIndent) =
          before.dropWhile isIndent ++ character :: tail := by
  have notIndent := not_isIndent_of_visible visible
  have notReturn : character ≠ '\r' := by
    rintro rfl
    cases visible
  rw [Source.withoutReturn_append_cons notReturn, Text.takeWhile_append_cons notIndent,
    Text.dropWhile_append_cons notIndent, Text.trimEnd_append_cons visible]
  exact ⟨rfl, _, rfl⟩

end Diagnostic

end ToyFrontend
