namespace ToyFrontend
namespace Text

/-!
Blank characters in the sense of the Unicode property `White_Space`.  Two
decisions of the library rest on this class: whether a document holds anything
to analyse, and where the visible part of a quoted source line ends.  The
scanner has a narrower class of its own, since only four of these characters
may stand between two lexemes.
-/

/-- The twenty-five characters with the Unicode property `White_Space`. -/
def isBlank (character : Char) : Bool :=
  let code := character.toNat
  (0x0009 <= code && code <= 0x000D) || code == 0x0020 || code == 0x0085 ||
    code == 0x00A0 || code == 0x1680 || (0x2000 <= code && code <= 0x200A) ||
    code == 0x2028 || code == 0x2029 || code == 0x202F || code == 0x205F ||
    code == 0x3000

/-- Every blank known to the core library is blank here too. -/
theorem isBlank_of_isWhitespace {character : Char}
    (isWhitespace : character.isWhitespace = true) : isBlank character = true := by
  simp only [Char.isWhitespace, Bool.or_eq_true, decide_eq_true_eq] at isWhitespace
  rcases isWhitespace with ((rfl | rfl) | rfl) | rfl <;> decide

/-- A text is blank when it has blank characters only. -/
def isAllBlank (text : List Char) : Bool :=
  text.all isBlank

/-- Drop the longest run at the end of a list whose members satisfy `drop`. -/
def dropEndWhile (drop : Char -> Bool) (text : List Char) : List Char :=
  (text.reverse.dropWhile drop).reverse

/-- Drop the blanks at the end of a text. -/
def trimEnd (text : List Char) : List Char :=
  dropEndWhile isBlank text

end Text
end ToyFrontend
