import Mathlib.Data.Nat.Digits.Defs
import ToyFrontend.Proofs.Scan.Lossless

namespace ToyFrontend

namespace Scan

/-!
# Every token is the longest lexeme at its place

The scanner decides by the first character and tries what begins with it in a
fixed order.  The lexemes of the language are defined here without an order: a
word, a run of digits, a string literal or one of eighteen marks.  No two of these
classes share a first character, and within its class the scanner takes as much as
it can, so what it takes is the longest lexeme that stands there.

`Token.Classified` says what kind and value a text calls for.  A word may be
reserved; only its whole text decides on that.
-/

/-- The spellings of operators and of punctuation. -/
def marks : List String :=
  ["\x7b", "\x7d", "(", ")", "=", "==", "!", "!=", "<", "<=", ">", ">=", ";", ",", "+", "-", "/",
    "*"]

example : marks.length = 18 := rfl

/-- A word: the shape of an identifier or of a keyword. -/
inductive IsWord : List Char -> Prop
  | mk {first : Char} {tail : List Char} (starts : isWordStart first = true)
      (goesOn : forall character, character ∈ tail -> isWordPart character = true) :
      IsWord (first :: tail)

/-- A run of digits. -/
inductive IsNumber : List Char -> Prop
  | mk {first : Char} {tail : List Char} (starts : first.isDigit = true)
      (goesOn : forall character, character ∈ tail -> character.isDigit = true) :
      IsNumber (first :: tail)

/-- A complete string literal and its value. -/
inductive IsString : List Char -> List Char -> Prop
  | mk {content value : List Char} (denotes : Text.Quoted.Denotes content value) :
      IsString ('"' :: (content ++ ['"'])) value

/-- A text that may stand as a token. -/
inductive Lexeme (text : List Char) : Prop
  | word (isWord : IsWord text)
  | number (isNumber : IsNumber text)
  | string {value : List Char} (isString : IsString text value)
  | mark (isMark : String.ofList text ∈ marks)

/-- Of all lexemes at the head of what lies ahead, the text is the longest. -/
structure LongestLexeme (ahead text : List Char) : Prop where
  lexeme : Lexeme text
  stands : text <+: ahead
  longest : forall other, Lexeme other -> other <+: ahead -> other.length <= text.length

end Scan

namespace Token

/-- The number that digits denote in the decimal system, the last one being the units. -/
def decimalValue (digits : List Char) : Nat :=
  Nat.ofDigits 10 (digits.map fun digit => digit.toNat - '0'.toNat).reverse

/-- The words that are reserved, with the kind of each. -/
def reservedWords : List (String × Kind) :=
  [("function", .functionWord), ("if", .ifWord), ("else", .elseWord), ("while", .whileWord),
    ("var", .varWord), ("int", .intWord), ("string", .stringWord), ("bool", .boolWord),
    ("return", .returnWord), ("print", .printWord), ("true", .boolLiteral),
    ("false", .boolLiteral)]

/-- The kind and the value that a text calls for. -/
inductive Classified : Kind -> String -> Option Literal -> Prop
  /-- A kind with a fixed spelling has nothing else to tell. -/
  | spelled {kind : Kind} {text : String} (fixed : kind.spelling? = some text) :
      Classified kind text none
  | truth (value : Bool) : Classified .boolLiteral (Literal.boolText value) (some (.bool value))
  | identifier {text : String} (isWord : Scan.IsWord text.toList)
      (unreserved : forall kind, (text, kind) ∉ reservedWords) : Classified .identifier text none
  | integer {text : String} (isNumber : Scan.IsNumber text.toList) :
      Classified .intLiteral text (some (.int (decimalValue text.toList)))
  | string {text : String} {value : List Char} (isString : Scan.IsString text.toList value) :
      Classified .stringLiteral text (some (.string (String.ofList value)))

/-- The scanner's table has the reserved words and no others. -/
theorem Kind.ofReserved?_eq_some_iff {text : String} {kind : Kind} :
    ofReserved? text = some kind ↔ (text, kind) ∈ reservedWords := by
  constructor
  · intro reserved
    unfold ofReserved? at reserved
    split at reserved <;> cases reserved <;> decide
  · intro listed
    have found : forall entry, entry ∈ reservedWords -> ofReserved? entry.1 = some entry.2 := by
      simp only [reservedWords, List.forall_mem_cons, List.not_mem_nil, false_imp_iff,
        implies_true, and_true]
      decide
    exact found (text, kind) listed

theorem Kind.ofReserved?_eq_none_iff {text : String} :
    ofReserved? text = none ↔ forall kind, (text, kind) ∉ reservedWords := by
  simp only [Option.eq_none_iff_forall_ne_some, ne_eq, ofReserved?_eq_some_iff]

end Token

namespace Scan

/-! ## Classes of lexemes -/

/-- The characters that begin a mark. -/
def markStarts : List Char :=
  ['{', '}', '(', ')', '=', '!', '<', '>', ';', ',', '+', '-', '/', '*']

theorem not_isDigit_of_isWordStart {character : Char} (starts : isWordStart character = true) :
    character.isDigit = false := by
  apply Bool.eq_false_iff.mpr
  intro digit
  have withinDigits := Bool.and_eq_true_iff.mp digit
  rcases Bool.or_eq_true_iff.mp starts with letter | underscore
  · rcases Bool.or_eq_true_iff.mp letter with upper | lower
    · have withinUpper := of_decide_eq_true upper
      grind
    · have withinLower := Bool.and_eq_true_iff.mp lower
      grind
  · rw [beq_iff_eq.mp underscore] at digit
    cases digit

/-- No word, number or string literal begins like a mark. -/
theorem of_mem_markStarts {character : Char} (starts : character ∈ markStarts) :
    isWordStart character = false ∧ character.isDigit = false ∧ character ≠ '"' := by
  simp only [markStarts, List.mem_cons, List.not_mem_nil, or_false] at starts
  rcases starts with rfl | rfl | rfl | rfl | rfl | rfl | rfl | rfl | rfl | rfl | rfl | rfl | rfl |
    rfl <;> decide

/-- A mark has one character, or an equality sign behind one of four. -/
theorem tail_of_mark {first : Char} {tail : List Char}
    (isMark : String.ofList (first :: tail) ∈ marks) :
    first ∈ markStarts ∧ (tail = [] ∨ tail = ['='] ∧ first ∈ ['=', '!', '<', '>']) := by
  have shapes : forall mark, mark ∈ marks ->
      mark.toList ∈ markStarts.map (fun single => [single]) ++
        ['=', '!', '<', '>'].map (fun single => [single, '=']) := by
    decide
  have shape := shapes _ isMark
  rw [String.toList_ofList] at shape
  rcases List.mem_append.mp shape with alone | joined
  · rcases List.mem_map.mp alone with ⟨_, starts, ⟨⟩⟩
    exact ⟨starts, .inl rfl⟩
  · rcases List.mem_map.mp joined with ⟨_, among, ⟨⟩⟩
    have starts : forall character, character ∈ ['=', '!', '<', '>'] ->
        character ∈ markStarts := by
      simp [markStarts]
    exact ⟨starts _ among, .inr ⟨rfl, among⟩⟩

/-- What a lexeme can be is decided by the first character ahead. -/
theorem Lexeme.of_isPrefix {first : Char} {ahead other : List Char} (lexeme : Lexeme other)
    (stands : other <+: first :: ahead) :
    Exists fun tail => other = first :: tail ∧ tail <+: ahead ∧
      (isWordStart first = true ∧ (forall character, character ∈ tail ->
          isWordPart character = true) ∨
        first.isDigit = true ∧ (forall character, character ∈ tail ->
          character.isDigit = true) ∨
        first = '"' ∧ (Exists fun content => Exists fun value => tail = content ++ ['"'] ∧
          Text.Quoted.Denotes content value) ∨
        String.ofList (first :: tail) ∈ marks) := by
  rcases List.prefix_cons_iff.mp stands with rfl | ⟨tail, rfl, standsTail⟩
  · exfalso
    cases lexeme with
    | word isWord => cases isWord
    | number isNumber => cases isNumber
    | string isString => cases isString
    | mark isMark => exact absurd isMark (by decide)
  · refine ⟨tail, rfl, standsTail, ?_⟩
    cases lexeme with
    | word isWord =>
        cases isWord with
        | mk starts goesOn => exact .inl ⟨starts, goesOn⟩
    | number isNumber =>
        cases isNumber with
        | mk starts goesOn => exact .inr (.inl ⟨starts, goesOn⟩)
    | string isString =>
        cases isString with
        | mk denotes => exact .inr (.inr (.inl ⟨rfl, _, _, rfl, denotes⟩))
    | mark isMark => exact .inr (.inr (.inr isMark))

/-- A run of some class extends as far as its class does. -/
theorem length_le_takeWhile {belongs : Char -> Bool} {run ahead : List Char}
    (all : forall character, character ∈ run -> belongs character = true)
    (stands : run <+: ahead) : run.length <= (ahead.takeWhile belongs).length := by
  rcases stands with ⟨rest, rfl⟩
  rw [List.takeWhile_append_of_pos all, List.length_append]
  exact Nat.le_add_right _ _

theorem of_mem_takeWhile {belongs : Char -> Bool} {ahead : List Char} :
    forall character, character ∈ ahead.takeWhile belongs -> belongs character = true :=
  List.all_eq_true.mp List.all_takeWhile

theorem longest_word {first : Char} (starts : isWordStart first = true) (ahead : List Char) :
    LongestLexeme (first :: ahead) (first :: ahead.takeWhile isWordPart) where
  lexeme := .word (.mk starts of_mem_takeWhile)
  stands := List.cons_prefix_cons.mpr ⟨rfl, List.takeWhile_prefix _⟩
  longest := by
    intro other lexeme standsOther
    rcases lexeme.of_isPrefix standsOther with
      ⟨tail, rfl, standsTail, ⟨-, goesOn⟩ | ⟨digit, -⟩ | ⟨rfl, -⟩ | isMark⟩
    · exact Nat.succ_le_succ (length_le_takeWhile goesOn standsTail)
    · rw [not_isDigit_of_isWordStart starts] at digit
      cases digit
    · cases starts
    · rw [(of_mem_markStarts (tail_of_mark isMark).1).1] at starts
      cases starts

theorem longest_number {first : Char} (starts : first.isDigit = true) (ahead : List Char) :
    LongestLexeme (first :: ahead) (first :: ahead.takeWhile Char.isDigit) where
  lexeme := .number (.mk starts of_mem_takeWhile)
  stands := List.cons_prefix_cons.mpr ⟨rfl, List.takeWhile_prefix _⟩
  longest := by
    intro other lexeme standsOther
    rcases lexeme.of_isPrefix standsOther with
      ⟨tail, rfl, standsTail, ⟨letter, -⟩ | ⟨-, goesOn⟩ | ⟨rfl, -⟩ | isMark⟩
    · rw [not_isDigit_of_isWordStart letter] at starts
      cases starts
    · exact Nat.succ_le_succ (length_le_takeWhile goesOn standsTail)
    · cases starts
    · rw [(of_mem_markStarts (tail_of_mark isMark).1).2.1] at starts
      cases starts

/-- A literal ends with the first quote that is not escaped, so there is only one. -/
theorem longest_string {ahead value written : List Char}
    (closed : Text.Quoted.body ahead = .closed value written) :
    IsString ('"' :: written) value ∧ LongestLexeme ('"' :: ahead) ('"' :: written) := by
  rcases Text.Quoted.denotes_of_body closed with ⟨content, rfl, denotes⟩
  refine ⟨.mk denotes, .string (.mk denotes), ?_, ?_⟩
  · exact List.cons_prefix_cons.mpr ⟨rfl, Text.Quoted.written_isPrefix closed⟩
  · intro other lexeme standsOther
    rcases lexeme.of_isPrefix standsOther with
      ⟨tail, rfl, standsTail, ⟨letter, -⟩ | ⟨digit, -⟩ | ⟨-, inner, innerValue, rfl, denotesInner⟩ |
        isMark⟩
    · cases letter
    · cases digit
    · rcases standsTail with ⟨rest, rfl⟩
      rw [List.append_assoc, List.singleton_append,
        Text.Quoted.body_of_denotes denotesInner] at closed
      rw [(Text.Quoted.Body.closed.inj closed).2]
    · exact absurd rfl (of_mem_markStarts (tail_of_mark isMark).1).2.2

/-- The spelling that is found is that of its kind, and an equality sign that could be
joined to it has been. -/
theorem mark_of_symbol? {first : Char} {ahead tail : List Char} {kind : Token.Kind}
    (found : Piece.symbol? first ahead = some (kind, tail)) :
    kind.spelling? = some (String.ofList (first :: tail)) ∧
      String.ofList (first :: tail) ∈ marks ∧
      (tail = [] -> first ∈ ['=', '!', '<', '>'] -> ahead.head? ≠ some '=') := by
  have joins (alone joined : Token.Kind)
      (spelledAlone : alone.spelling? = some (String.ofList [first]) ∧
        String.ofList [first] ∈ marks)
      (spelledJoined : joined.spelling? = some (String.ofList [first, '=']) ∧
        String.ofList [first, '='] ∈ marks)
      (found : (if ahead.head? = some '=' then some (joined, ['=']) else some (alone, [])) =
        some (kind, tail)) :
      kind.spelling? = some (String.ofList (first :: tail)) ∧
        String.ofList (first :: tail) ∈ marks ∧
        (tail = [] -> first ∈ ['=', '!', '<', '>'] -> ahead.head? ≠ some '=') := by
    split at found
    next =>
      cases found
      exact ⟨spelledJoined.1, spelledJoined.2, fun impossible => by cases impossible⟩
    next single =>
      cases found
      exact ⟨spelledAlone.1, spelledAlone.2, fun _ _ => single⟩
  unfold Piece.symbol? at found
  extract_lets orWithEquals at found
  split at found
  case h_5 => exact joins .assignment .equals (by decide) (by decide) found
  case h_6 => exact joins .not .notEquals (by decide) (by decide) found
  case h_7 => exact joins .less .lessEquals (by decide) (by decide) found
  case h_8 => exact joins .greater .greaterEquals (by decide) (by decide) found
  case h_15 => cases found
  all_goals
    cases found
    exact ⟨rfl, by decide, fun _ among => absurd among (by decide)⟩

theorem longest_mark {first : Char} {ahead tail : List Char} {kind : Token.Kind}
    (found : Piece.symbol? first ahead = some (kind, tail)) :
    LongestLexeme (first :: ahead) (first :: tail) := by
  rcases mark_of_symbol? found with ⟨-, isMark, single⟩
  rcases of_mem_markStarts (tail_of_mark isMark).1 with ⟨noWord, noDigit, noQuote⟩
  refine ⟨.mark isMark, ?_, ?_⟩
  · exact List.cons_prefix_cons.mpr ⟨rfl, (Piece.isPrefix_of_symbol? found).1⟩
  · intro other lexeme standsOther
    rcases lexeme.of_isPrefix standsOther with
      ⟨otherTail, rfl, standsTail, ⟨letter, -⟩ | ⟨digit, -⟩ | ⟨quote, -⟩ | isOther⟩
    · exact absurd (letter.symm.trans noWord) (by decide)
    · exact absurd (digit.symm.trans noDigit) (by decide)
    · exact absurd quote noQuote
    · rcases (tail_of_mark isOther).2 with rfl | ⟨rfl, among⟩
      · exact Nat.succ_le_succ (Nat.zero_le _)
      · rcases (tail_of_mark isMark).2 with rfl | ⟨rfl, -⟩
        · rcases standsTail with ⟨rest, rfl⟩
          exact absurd rfl (single rfl among)
        · exact Nat.le_refl _

/-! ## What a text calls for -/

/-- Reading the digits from the left gives the number that they denote. -/
theorem decimal_eq_decimalValue (digits : List Char) :
    decimal digits = Token.decimalValue digits := by
  rw [Token.decimalValue, Nat.ofDigits_eq_foldr, List.foldr_reverse, List.foldl_map, decimal]
  simp only [Nat.cast_id, Nat.add_comm]

theorem classified_number {digits : List Char} (isNumber : IsNumber digits) :
    Token.Classified .intLiteral (String.ofList digits) (some (.int (decimal digits))) := by
  rw [← @String.toList_ofList digits] at isNumber
  have classified := Token.Classified.integer isNumber
  rwa [String.toList_ofList, ← decimal_eq_decimalValue] at classified

theorem isWord_of_reserved {text : String} {kind : Token.Kind}
    (reserved : Token.Kind.ofReserved? text = some kind) : IsWord text.toList := by
  unfold Token.Kind.ofReserved? at reserved
  split at reserved <;> cases reserved <;> exact .mk (by decide) (List.all_eq_true.mp (by decide))

/-- A reserved word is its kind's spelling or a truth value. -/
theorem spelling?_of_reserved {text : String} {kind : Token.Kind}
    (reserved : Token.Kind.ofReserved? text = some kind) (keyword : kind ≠ .boolLiteral) :
    kind.spelling? = some text := by
  unfold Token.Kind.ofReserved? at reserved
  split at reserved <;> cases reserved <;> first | rfl | exact absurd rfl keyword

theorem boolText_of_reserved {text : String}
    (reserved : Token.Kind.ofReserved? text = some .boolLiteral) :
    text = Literal.boolText (text == "true") := by
  unfold Token.Kind.ofReserved? at reserved
  split at reserved <;> cases reserved <;> rfl

/-- A word is a name unless it is reserved. -/
theorem classified_of_ofWord {word : List Char} (isWord : IsWord word) {kind : Token.Kind}
    {value : Option Literal} (content : Piece.ofWord (String.ofList word) = .lexeme kind value) :
    Token.Classified kind (String.ofList word) value ∧
      forall reserved, (String.ofList word, reserved) ∈ Token.reservedWords ->
        kind = reserved := by
  simp only [← Token.Kind.ofReserved?_eq_some_iff]
  unfold Piece.ofWord at content
  split at content
  next isTruth =>
    cases content
    have truth := Token.Classified.truth (String.ofList word == "true")
    rw [← boolText_of_reserved isTruth] at truth
    exact ⟨truth, fun reserved found => Option.some.inj (isTruth.symm.trans found)⟩
  next keyword isKeyword =>
    cases content
    exact ⟨.spelled (spelling?_of_reserved isKeyword keyword),
      fun reserved found => Option.some.inj (isKeyword.symm.trans found)⟩
  next unreserved =>
    cases content
    refine ⟨.identifier (by rwa [String.toList_ofList]) ?_, ?_⟩
    · exact Token.Kind.ofReserved?_eq_none_iff.mp unreserved
    · intro reserved found
      exact absurd (found.symm.trans unreserved) (by simp)

/-- Only what begins like a word is reserved. -/
theorem unreserved {first : Char} (noWord : isWordStart first = false) (tail : List Char)
    (kind : Token.Kind) : (String.ofList (first :: tail), kind) ∉ Token.reservedWords := by
  intro listed
  have isWord := isWord_of_reserved (Token.Kind.ofReserved?_eq_some_iff.mpr listed)
  rw [String.toList_ofList] at isWord
  cases isWord with
  | mk starts => exact absurd (starts.symm.trans noWord) (by decide)

/-! ## Tokens where they stand -/

/-- The token is what stands at the head of the text ahead. -/
structure Recognized (ahead : List Char) (token : Token) : Prop where
  longest : LongestLexeme ahead token.text.toList
  notComment : ¬ ['/', '/'] <+: ahead
  classified : Token.Classified token.kind token.text token.value
  reserved : forall kind, (token.text, kind) ∈ Token.reservedWords -> token.kind = kind

theorem not_comment_of_ne {first : Char} (different : first ≠ '/') (ahead : List Char) :
    ¬ ['/', '/'] <+: first :: ahead :=
  fun comment => different (List.cons_prefix_cons.mp comment).1.symm

/-- What begins unlike a word need not be compared with the reserved words. -/
theorem recognized_of_unreserved {first : Char} {ahead tail : List Char} {token : Token}
    (noWord : isWordStart first = false) (written : token.text = String.ofList (first :: tail))
    (longest : LongestLexeme (first :: ahead) (first :: tail))
    (notComment : ¬ ['/', '/'] <+: first :: ahead)
    (classified : Token.Classified token.kind token.text token.value) :
    Recognized (first :: ahead) token where
  longest := by rwa [written, String.toList_ofList]
  notComment := notComment
  classified := classified
  reserved kind listed := by
    rw [written] at listed
    exact absurd listed (unreserved noWord tail kind)

theorem Piece.token?_eq_some_iff {piece : Piece} {start : Source.Position} {token : Token} :
    piece.token? start = some token ↔ Exists fun kind => Exists fun value =>
      piece.content = .lexeme kind value ∧ token =
        { kind, text := String.ofList piece.text, value,
          span := { start, finish := start.after piece.text } } := by
  unfold Piece.token?
  cases piece.content with
  | gap => simp
  | lexeme kind value => simp [eq_comm]

theorem recognized_of_number {start : Source.Position} {first : Char} {ahead : List Char}
    {piece : Piece} {token : Token} (noWord : isWordStart first = false)
    (starts : first.isDigit = true) (run : Piece.number start first ahead = .ok piece)
    (isToken : piece.token? start = some token) : Recognized (first :: ahead) token := by
  rcases Piece.token?_eq_some_iff.mp isToken with ⟨kind, value, content, rfl⟩
  unfold Piece.number at run
  dsimp only at run
  split at run
  next =>
    cases run
    cases content
    apply recognized_of_unreserved noWord rfl (longest_number starts ahead)
      (not_comment_of_ne ?_ _) (classified_number (.mk starts of_mem_takeWhile))
    rintro rfl
    cases starts
  next => cases run

theorem recognized_of_string {start : Source.Position} {ahead : List Char} {piece : Piece}
    {token : Token} (run : Piece.string start ahead = .ok piece)
    (isToken : piece.token? start = some token) : Recognized ('"' :: ahead) token := by
  rcases Piece.token?_eq_some_iff.mp isToken with ⟨kind, value, content, rfl⟩
  unfold Piece.string at run
  split at run
  next closed =>
    cases run
    cases content
    rcases longest_string closed with ⟨isString, longest⟩
    apply recognized_of_unreserved (by decide) rfl longest (not_comment_of_ne (by decide) _)
    exact .string (by rwa [String.toList_ofList])
  next => cases run
  next => cases run

/-- A piece that is a lexeme is the longest one, and its token is what the text calls for. -/
theorem recognized_of_read {start : Source.Position} {first : Char} {ahead : List Char}
    {piece : Piece} {token : Token} (run : Piece.read start first ahead = .ok piece)
    (isToken : piece.token? start = some token) : Recognized (first :: ahead) token := by
  rcases Piece.token?_eq_some_iff.mp isToken with ⟨kind, value, content, rfl⟩
  unfold Piece.read at run
  split at run
  next starts =>
    cases run
    rcases classified_of_ofWord (.mk starts of_mem_takeWhile) content with
      ⟨classified, reserved⟩
    refine ⟨?_, not_comment_of_ne ?_ _, classified, reserved⟩
    · rw [String.toList_ofList]
      exact longest_word starts ahead
    · rintro rfl
      cases starts
  have noWord : isWordStart first = false := Bool.eq_false_iff.mpr ‹_›
  split at run
  next starts => exact recognized_of_number noWord starts run isToken
  split at run
  next =>
    cases run
    cases content
  split at run
  next isQuote =>
    subst isQuote
    exact recognized_of_string run isToken
  split at run
  next =>
    cases run
    cases content
  next noComment =>
    split at run
    next found =>
      cases run
      cases content
      apply recognized_of_unreserved noWord rfl (longest_mark found)
      · rintro ⟨rest, same⟩
        rcases List.cons_eq_cons.mp same with ⟨rfl, rfl⟩
        exact noComment rfl
      · exact .spelled (mark_of_symbol? found).1
    next => cases run

end Scan

/-- Every token but the marker is the longest lexeme at its place, which is no comment, and
has the kind and the value that its text calls for. -/
theorem longest_of_tokenize {source : String} {tokens : List Token} {token : Token}
    (scanned : tokenize source = .ok tokens) (member : token ∈ tokens)
    (proper : token.kind ≠ .eof) :
    Exists fun ahead =>
      Source.slice source token.span.start.offset source.utf8ByteSize = ahead.utf8Encode ∧
        Scan.Recognized ahead token := by
  unfold tokenize Scan.result at scanned
  split at scanned
  next =>
    cases scanned
    rcases Scan.exists_read_of_mem member proper with
      ⟨passed, first, ahead, piece, shape, run, isToken⟩
    refine ⟨first :: ahead, ?_, Scan.recognized_of_read run isToken⟩
    rcases Scan.Piece.token?_eq_some_iff.mp isToken with ⟨kind, value, -, rfl⟩
    exact Source.slice_end shape
  next => cases scanned

/-- A document without a space: a word that begins like a keyword, an operator that begins
like another, and slashes and a quote inside a literal. -/
def crowdedDocument : String :=
  "if1<=007\"\\\"//\"//\""

def crowdedLiteral : Token where
  kind := .stringLiteral
  text := "\"\\\"//\""
  value := some (.string "\"//")
  span := { start := ⟨8, 1, 9⟩, finish := ⟨14, 1, 15⟩ }

def crowdedTokens : List Token :=
  [{ kind := .identifier
     text := "if1"
     value := none
     span := { start := ⟨0, 1, 1⟩, finish := ⟨3, 1, 4⟩ } },
    { kind := .lessEquals
      text := "<="
      value := none
      span := { start := ⟨3, 1, 4⟩, finish := ⟨5, 1, 6⟩ } },
    { kind := .intLiteral
      text := "007"
      value := some (.int 7)
      span := { start := ⟨5, 1, 6⟩, finish := ⟨8, 1, 9⟩ } },
    crowdedLiteral,
    .endMarker ⟨17, 1, 18⟩]

theorem longest_of_crowdedLiteral :
    tokenize crowdedDocument = .ok crowdedTokens ∧ crowdedLiteral ∈ crowdedTokens ∧
      crowdedLiteral.kind ≠ .eof ∧ Exists fun ahead =>
        Source.slice crowdedDocument crowdedLiteral.span.start.offset
            crowdedDocument.utf8ByteSize = ahead.utf8Encode ∧
          Scan.Recognized ahead crowdedLiteral := by
  have scanned : tokenize crowdedDocument = .ok crowdedTokens :=
    tokenize_eq_ok (by decide +kernel)
  have member : crowdedLiteral ∈ crowdedTokens := by decide
  exact ⟨scanned, member, by decide, longest_of_tokenize scanned member (by decide)⟩

end ToyFrontend
