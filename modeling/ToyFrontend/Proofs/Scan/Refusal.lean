import ToyFrontend.Proofs.Scan.Longest

namespace ToyFrontend
namespace Scan

/-!
# Where a scan stops

A text has no piece at its head for one of four reasons: a number is too large, a
literal is not closed in its line, a backslash in a literal begins no escape, or
nothing begins with the character that stands there.  `Refused` names the reasons
with the error that each of them makes, and a piece is read wherever none applies.
-/

theorem symbol?_eq_none_iff {first : Char} {ahead : List Char} :
    Piece.symbol? first ahead = none ↔ first ∉ markStarts := by
  constructor
  · intro missing
    have joins {alone joined : Token.Kind} : (if ahead.head? = some '=' then
        some (joined, ['=']) else some (alone, [])) ≠ (none : Option (Token.Kind × List Char)) := by
      split <;> simp
    unfold Piece.symbol? at missing
    extract_lets at missing
    split at missing
    case h_5 | h_6 | h_7 | h_8 => exact absurd missing joins
    case h_15 => simp_all [markStarts]
    all_goals cases missing
  · intro stranger
    unfold Piece.symbol?
    extract_lets
    split
    case h_15 => rfl
    all_goals exact absurd (by decide) stranger

/-- Why there is no piece at the head of a text, and the error that says so. -/
inductive Refused (start : Source.Position) (first : Char) (ahead : List Char) :
    LexicalError -> Prop
  | large (digit : first.isDigit = true)
      (above : largestInt < decimal (first :: ahead.takeWhile Char.isDigit)) :
      Refused start first ahead
        { cause := .integerOverflow
          text := String.ofList (first :: ahead.takeWhile Char.isDigit)
          position := start }
  | unterminated {written : List Char} (isQuote : first = '"')
      (opened : Text.Quoted.body ahead = .unterminated written) :
      Refused start first ahead
        { cause := .unterminatedString
          text := String.ofList (Text.dropEndWhile (· == '\r') ('"' :: written))
          position := start }
  | badEscape {before : List Char} {escaped : Char} (isQuote : first = '"')
      (bad : Text.Quoted.body ahead = .badEscape before escaped) :
      Refused start first ahead
        { cause := .invalidEscape
          text := String.ofList ['\\', escaped]
          position := start.along ('"' :: before) }
  | stranger (noWord : isWordStart first = false) (noDigit : first.isDigit = false)
      (noSpace : isSpace first = false) (noQuote : first ≠ '"') (noMark : first ∉ markStarts) :
      Refused start first ahead
        { cause := .unrecognisedCharacter
          text := String.ofList [first]
          position := start }

theorem refused_of_read {start : Source.Position} {first : Char} {ahead : List Char}
    {error : LexicalError} (failed : Piece.read start first ahead = .error error) :
    Refused start first ahead error := by
  unfold Piece.read at failed
  split at failed
  next => cases failed
  next noWord =>
    split at failed
    next digit =>
      unfold Piece.number at failed
      dsimp only at failed
      split at failed
      next => cases failed
      next above =>
        cases failed
        exact .large digit (Nat.lt_of_not_le above)
    next noDigit =>
      split at failed
      next => cases failed
      next noSpace =>
        split at failed
        next isQuote =>
          unfold Piece.string at failed
          split at failed
          next => cases failed
          next opened =>
            cases failed
            exact .unterminated isQuote opened
          next bad =>
            cases failed
            exact .badEscape isQuote bad
        next noQuote =>
          split at failed
          next => cases failed
          next =>
            split at failed
            next => cases failed
            next missing =>
              cases failed
              exact .stranger (Bool.eq_false_iff.mpr noWord) (Bool.eq_false_iff.mpr noDigit)
                (Bool.eq_false_iff.mpr noSpace) noQuote (symbol?_eq_none_iff.mp missing)

theorem read_of_refused {start : Source.Position} {first : Char} {ahead : List Char}
    {error : LexicalError} (refused : Refused start first ahead error) :
    Piece.read start first ahead = .error error := by
  cases refused with
  | large digit above =>
      have noWord : ¬ isWordStart first = true := fun starts => by
        rw [not_isDigit_of_isWordStart starts] at digit
        cases digit
      rw [Piece.read, if_neg noWord, if_pos digit, Piece.number, if_neg (Nat.not_le_of_gt above)]
  | unterminated isQuote opened =>
      subst isQuote
      have run : Piece.read start '"' ahead = Piece.string start ahead := rfl
      rw [run, Piece.string, opened]
  | badEscape isQuote bad =>
      subst isQuote
      have run : Piece.read start '"' ahead = Piece.string start ahead := rfl
      rw [run, Piece.string, bad]
  | stranger noWord noDigit noSpace noQuote noMark =>
      have noSlash : first ≠ '/' := by
        rintro rfl
        exact noMark (by decide)
      have missing : Piece.symbol? first ahead = none := symbol?_eq_none_iff.mpr noMark
      simp [Piece.read, noWord, noDigit, noSpace, noQuote, noSlash, missing]

theorem Refused.unique {start : Source.Position} {first : Char} {ahead : List Char}
    {error other : LexicalError} (refused : Refused start first ahead error)
    (again : Refused start first ahead other) : error = other := by
  have failed := read_of_refused refused
  rw [read_of_refused again] at failed
  exact (Except.error.inj failed).symm

end Scan
end ToyFrontend
