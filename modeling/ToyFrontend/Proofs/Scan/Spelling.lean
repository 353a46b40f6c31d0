import ToyFrontend.Proofs.Scan.Longest
import ToyFrontend.Proofs.Words

namespace ToyFrontend

namespace Scan

/-!
# Texts that are scanned as given words

A text that was written for some words has to be scanned as these words again.
Whether it is depends on what stands behind each lexeme: a word goes on with
letters and digits, and some marks go on with an equality sign or a slash.
`Spells` says that a text is scanned as given words before every rest that begins
in a harmless way, and its lemmas put such texts behind one another.  Spaces may
be added anywhere between them.

There is at most one list of words that a text spells, since a scan is a function.
-/

/-- The scan with more tokens at its beginning. -/
def behind (tokens : List Token) (scan : Scan) : Scan :=
  { scan with tokens := tokens ++ scan.tokens }

/-- Nothing stands ahead, or a character as described. -/
def Ahead (follow : Char -> Prop) (rest : List Char) : Prop :=
  forall character, rest.head? = some character -> follow character

/-- No word and no number goes on with the character. -/
def EndsWord (character : Char) : Prop :=
  isWordPart character = false

/-- No mark goes on with the character. -/
def EndsMark (character : Char) : Prop :=
  character ∉ ['=', '/']

/-- No lexeme goes on with the character. -/
def EndsLexeme (character : Char) : Prop :=
  EndsWord character ∧ EndsMark character

instance (character : Char) : Decidable (EndsWord character) :=
  inferInstanceAs (Decidable (isWordPart character = false))

instance (character : Char) : Decidable (EndsMark character) :=
  inferInstanceAs (Decidable (character ∉ ['=', '/']))

instance (character : Char) : Decidable (EndsLexeme character) :=
  inferInstanceAs (Decidable (isWordPart character = false ∧ character ∉ ['=', '/']))

/-- The text is scanned as these words before every rest that begins as described. -/
def Spells (follow : Char -> Prop) (text : List Char) (words : List Word) : Prop :=
  forall (position : Source.Position) (rest : List Char), Ahead follow rest ->
    Exists fun tokens => tokens.map Token.word = words ∧
      (forall token, token ∈ tokens -> token.kind ≠ .eof) ∧
      ofCursor { position, remaining := text ++ rest } =
        (ofCursor { position := position.after text, remaining := rest }).behind tokens

/-! ## One step of a scan -/

theorem ofCursor_nil (position : Source.Position) :
    ofCursor { position, remaining := [] } =
      { tokens := [Token.endMarker position], failure := none } := by
  rw [ofCursor]

theorem ofCursor_of_read {position : Source.Position} {first : Char} {ahead : List Char}
    {piece : Piece} (run : Piece.read position first ahead = .ok piece) :
    ofCursor { position, remaining := first :: ahead } =
      (ofCursor { position := position.after piece.text,
                  remaining := ahead.drop piece.tail.length }).prepend
        (piece.token? position) := by
  rw [ofCursor]
  simp only [run]

theorem read_of_space {first : Char} (space : isSpace first = true) (start : Source.Position)
    (ahead : List Char) :
    Piece.read start first ahead =
      .ok { first, tail := ahead.takeWhile isSpace, content := .gap } := by
  have among : first ∈ [' ', '\t', '\r', '\n'] := by
    simpa [isSpace, or_assoc] using space
  have noLexeme : isWordStart first = false ∧ first.isDigit = false := by
    simp only [List.mem_cons, List.not_mem_nil, or_false] at among
    rcases among with rfl | rfl | rfl | rfl <;> decide
  rw [Piece.read, noLexeme.1, noLexeme.2, space]
  rfl

/-- A space may be passed alone, since the spaces behind it are passed anyway. -/
theorem ofCursor_space {first : Char} (space : isSpace first = true) (position : Source.Position)
    (ahead : List Char) :
    ofCursor { position, remaining := first :: ahead } =
      ofCursor { position := position.next first, remaining := ahead } := by
  rw [ofCursor_of_read (read_of_space space position ahead)]
  cases ahead with
  | nil => rfl
  | cons second ahead =>
      by_cases more : isSpace second = true
      · rw [ofCursor_of_read (read_of_space more _ ahead)]
        simp [Piece.text, Piece.token?, more]
      · simp [Piece.text, Piece.token?, more]
        rfl

/-! ## Putting texts together -/

section Composition

variable {follow others : Char -> Prop} {text rest : List Char} {words more : List Word}

theorem Spells.mono (spells : Spells follow text words)
    (weaker : forall character, others character -> follow character) :
    Spells others text words :=
  fun position rest ahead => spells position rest fun character isHead =>
    weaker character (ahead character isHead)

/-- Two texts, of which the second begins in a way that is harmless to the first. -/
theorem Spells.append (first : Spells follow text words) (second : Spells others rest more)
    (harmless : forall ahead, Ahead others ahead -> Ahead follow (rest ++ ahead)) :
    Spells others (text ++ rest) (words ++ more) := by
  intro position ahead allowed
  rcases first position (rest ++ ahead) (harmless ahead allowed) with
    ⟨early, ofEarly, properEarly, scanEarly⟩
  rcases second (position.after text) ahead allowed with ⟨late, ofLate, properLate, scanLate⟩
  refine ⟨early ++ late, by rw [List.map_append, ofEarly, ofLate], ?_, ?_⟩
  · intro token member
    exact (List.mem_append.mp member).elim (properEarly token) (properLate token)
  · rw [List.append_assoc, scanEarly, scanLate, Source.Position.after_append]
    simp [behind]

/-- A text with a first character that is harmless to the text before it. -/
theorem Spells.append_cons {character : Char} (first : Spells follow text words)
    (second : Spells others (character :: rest) more) (harmless : follow character) :
    Spells others (text ++ character :: rest) (words ++ more) := by
  apply first.append second
  rintro ahead _ head ⟨⟩
  exact harmless

theorem Spells.space (spells : Spells follow text words) : Spells follow (' ' :: text) words := by
  intro position ahead allowed
  rcases spells (position.next ' ') ahead allowed with ⟨tokens, ofTokens, proper, scan⟩
  refine ⟨tokens, ofTokens, proper, ?_⟩
  rw [List.cons_append, ofCursor_space rfl, scan]
  rfl

/-- A text spells only one list of words. -/
theorem Spells.unique (first : Spells follow text words) (second : Spells others text more) :
    words = more := by
  have atEnd {follow : Char -> Prop} : Ahead follow [] := by
    rintro character ⟨⟩
  rcases first .start [] atEnd with ⟨tokens, rfl, -, scan⟩
  rcases second .start [] atEnd with ⟨others, rfl, -, scanOthers⟩
  have same := congrArg Scan.tokens (scan.symm.trans scanOthers)
  rw [List.append_cancel_right same]

end Composition

/-! ## Lexemes -/

/-- What is read as one lexeme before every admissible rest spells its word. -/
theorem spells_of_read {follow : Char -> Prop} {first : Char} {tail : List Char}
    {kind : Token.Kind} {value : Option Literal} {word : Word}
    (read : forall start rest, Ahead follow rest -> Piece.read start first (tail ++ rest) =
      .ok { first, tail, content := .lexeme kind value })
    (proper : kind ≠ .eof)
    (means : forall span, Token.word { kind, text := String.ofList (first :: tail), value, span } =
      word) :
    Spells follow (first :: tail) [word] := by
  intro position rest allowed
  have step := ofCursor_of_read (read position rest allowed)
  rw [List.drop_left] at step
  refine ⟨_, ?_, ?_, step⟩
  · exact congrArg (fun word => [word]) (means _)
  · intro token only
    rw [List.mem_singleton.mp only]
    exact proper

theorem takeWhile_append_of_ahead {belongs : Char -> Bool} {run rest : List Char}
    (all : forall character, character ∈ run -> belongs character = true)
    (ends : Ahead (belongs · = false) rest) : (run ++ rest).takeWhile belongs = run := by
  rw [List.takeWhile_append_of_pos all]
  cases rest with
  | nil => rw [List.takeWhile_nil, List.append_nil]
  | cons character rest =>
      rw [List.takeWhile_cons_of_neg (by rw [ends character rfl]; decide), List.append_nil]

theorem read_of_word {first : Char} {tail rest : List Char} (starts : isWordStart first = true)
    (goesOn : forall character, character ∈ tail -> isWordPart character = true)
    (ends : Ahead EndsWord rest) (start : Source.Position) :
    Piece.read start first (tail ++ rest) =
      .ok { first, tail, content := Piece.ofWord (String.ofList (first :: tail)) } := by
  rw [Piece.read, if_pos starts, Piece.word, takeWhile_append_of_ahead goesOn ends]

/-- A word spells what it means. -/
theorem spells_word {text : String} {kind : Token.Kind} {value : Option Literal} {word : Word}
    (isWord : IsWord text.toList) (content : Piece.ofWord text = .lexeme kind value)
    (proper : kind ≠ .eof) (means : forall span, Token.word { kind, text, value, span } = word) :
    Spells EndsWord text.toList [word] := by
  generalize shape : text.toList = characters at isWord
  have whole : text = String.ofList characters := by rw [← shape, String.ofList_toList]
  subst whole
  cases isWord with
  | mk starts goesOn =>
      apply spells_of_read _ proper means
      intro start rest ends
      rw [read_of_word starts goesOn ends, content]

/-- The text of a number is a run of digits that denotes it. -/
theorem exists_digits (value : Nat) :
    Exists fun first => Exists fun tail => (toString (value : Int)).toList = first :: tail ∧
      first.isDigit = true ∧ (forall character, character ∈ tail -> character.isDigit = true) ∧
      decimal (first :: tail) = value := by
  have digits : (toString (value : Int)).toList = Nat.toDigits 10 value := Nat.toList_repr
  have denotes : decimal (Nat.toDigits 10 value) = value := by
    have read := @Nat.ofDigitChars_ten_toDigits value
    rwa [Nat.ofDigitChars_eq_foldl] at read
  have each : forall character, character ∈ Nat.toDigits 10 value -> character.isDigit = true :=
    fun character member => Nat.isDigit_of_mem_toDigits (by decide) (by decide) member
  rw [digits]
  cases shape : Nat.toDigits 10 value with
  | nil => exact absurd shape Nat.toDigits_ne_nil
  | cons first tail =>
      rw [shape] at denotes each
      exact ⟨first, tail, rfl, each first List.mem_cons_self,
        fun character later => each character (List.mem_cons_of_mem first later), denotes⟩

/-- Nothing but digits is in the text of a number. -/
theorem not_mem_number {character : Char} (notDigit : character.isDigit = false) (value : Nat) :
    character ∉ (toString (value : Int)).toList := by
  intro member
  rcases exists_digits value with ⟨first, tail, shape, starts, goesOn, -⟩
  have isDigit : character.isDigit = true := by
    rcases List.mem_cons.mp (shape ▸ member) with rfl | later
    · exact starts
    · exact goesOn _ later
  rw [notDigit] at isDigit
  cases isDigit

/-- The digits of a number spell it, if it does not exceed the bound. -/
theorem spells_number {value : Nat} (bounded : value <= largestInt) :
    Spells EndsWord (toString (value : Int)).toList [.literal (.int value)] := by
  rcases exists_digits value with ⟨first, tail, shape, starts, goesOn, denotes⟩
  rw [shape]
  apply spells_of_read _ (by decide) fun _ => rfl
  intro start rest ends
  have noWord : isWordStart first = false := by
    cases letter : isWordStart first with
    | false => rfl
    | true =>
        rw [not_isDigit_of_isWordStart letter] at starts
        cases starts
  have run : (tail ++ rest).takeWhile Char.isDigit = tail := by
    apply takeWhile_append_of_ahead goesOn
    intro character isHead
    have notPart := ends character isHead
    simp only [EndsWord, isWordPart, Char.isAlphanum, Bool.or_eq_false_iff] at notPart
    exact notPart.1.2
  rw [Piece.read, noWord, starts]
  simp [Piece.number, run, denotes, bounded]

/-- Content between quotes is read as a literal, whatever stands behind it. -/
theorem read_of_denotes {content value : List Char} (denotes : Text.Quoted.Denotes content value)
    (rest : List Char) (start : Source.Position) :
    Piece.read start '"' (content ++ ['"'] ++ rest) =
      .ok { first := '"', tail := content ++ ['"'],
            content := .lexeme .stringLiteral (some (.string (String.ofList value))) } := by
  rw [List.append_assoc, List.singleton_append, Piece.read, if_neg (by decide), if_neg (by decide),
    if_neg (by decide), if_pos rfl, Piece.string, Text.Quoted.body_of_denotes denotes rest]

/-- A literal spells its value, whatever stands behind it. -/
theorem spells_string (value : String) :
    Spells (fun _ => True) (Text.Quoted.encode value.toList) [.literal (.string value)] := by
  apply spells_of_read _ (by decide) fun _ => rfl
  intro start rest _
  rw [read_of_denotes (Text.Quoted.denotes_encoded value.toList) rest start, String.ofList_toList]

/-- A mark is found where no character behind it goes on with it. -/
theorem exists_symbol? {first : Char} {tail rest : List Char}
    (isMark : String.ofList (first :: tail) ∈ marks) (ends : Ahead EndsMark rest) :
    Exists fun kind => Piece.symbol? first (tail ++ rest) = some (kind, tail) := by
  have alone : rest.head? ≠ some '=' := fun isHead => ends '=' isHead (by decide)
  rcases tail_of_mark isMark with ⟨starts, rfl | ⟨rfl, joins⟩⟩
  · simp only [markStarts, List.mem_cons, List.not_mem_nil, or_false] at starts
    rcases starts with rfl | rfl | rfl | rfl | rfl | rfl | rfl | rfl | rfl | rfl | rfl | rfl | rfl |
      rfl <;> simp [Piece.symbol?, alone]
  · simp only [List.mem_cons, List.not_mem_nil, or_false] at joins
    rcases joins with rfl | rfl | rfl | rfl <;> exact ⟨_, rfl⟩

/-- No two kinds have the same spelling. -/
theorem kind_eq_of_spelling? {first second : Token.Kind} {text : String}
    (ofFirst : first.spelling? = some text) (ofSecond : second.spelling? = some text) :
    first = second := by
  have distinct : forall kind, kind ∈ Token.Kind.all -> forall other, other ∈ Token.Kind.all ->
      kind.spelling? = other.spelling? -> kind.spelling?.isSome = true -> kind = other := by
    decide +kernel
  exact distinct first first.mem_all second second.mem_all (ofFirst.trans ofSecond.symm)
    (by rw [ofFirst]; rfl)

theorem not_isSpace_of_mem_markStarts {character : Char} (starts : character ∈ markStarts) :
    isSpace character = false := by
  have none : markStarts.all (!isSpace ·) = true := by decide
  simpa using List.all_eq_true.mp none character starts

theorem read_of_mark {first : Char} {tail rest : List Char} {kind : Token.Kind}
    (spelled : kind.spelling? = some (String.ofList (first :: tail)))
    (isMark : String.ofList (first :: tail) ∈ marks) (ends : Ahead EndsMark rest)
    (start : Source.Position) :
    Piece.read start first (tail ++ rest) =
      .ok { first, tail, content := .lexeme kind none } := by
  rcases exists_symbol? isMark ends with ⟨found, isFound⟩
  cases kind_eq_of_spelling? (mark_of_symbol? isFound).1 spelled
  have starts := (tail_of_mark isMark).1
  rcases of_mem_markStarts starts with ⟨noWord, noDigit, noQuote⟩
  have noSpace := not_isSpace_of_mem_markStarts starts
  have noComment : ¬ (first = '/' && (tail ++ rest).head? = some '/') = true := by
    intro both
    have isHead := of_decide_eq_true (Bool.and_eq_true_iff.mp both).2
    rcases (tail_of_mark isMark).2 with rfl | ⟨rfl, -⟩
    · exact ends '/' isHead (by decide)
    · cases isHead
  rw [Piece.read, if_neg (Bool.eq_false_iff.mp noWord), if_neg (Bool.eq_false_iff.mp noDigit),
    if_neg (Bool.eq_false_iff.mp noSpace), if_neg noQuote, if_neg noComment, isFound]

theorem spells_mark {kind : Token.Kind} {text : String} (spelled : kind.spelling? = some text)
    (isMark : text ∈ marks) : Spells EndsMark text.toList [.plain kind] := by
  have means (span : Source.Span) : Token.word { kind, text, value := none, span } = .plain kind :=
    Token.word_eq_plain rfl (by rw [spelled]; rfl)
  cases shape : text.toList with
  | nil =>
      cases String.toList_eq_nil_iff.mp shape
      exact absurd isMark (by decide)
  | cons first tail =>
      have whole : text = String.ofList (first :: tail) := by rw [← shape, String.ofList_toList]
      subst whole
      apply spells_of_read _ _ means
      · intro start rest ends
        exact read_of_mark spelled isMark ends start
      · rintro rfl
        cases spelled

/-! ## Written texts -/

/-- The text spells these words before what begins as described, and it may itself stand
behind a mark. -/
structure Written (follow : Char -> Prop) (text : List Char) (words : List Word) : Prop where
  begins : Exists fun first => Exists fun rest => text = first :: rest ∧ EndsMark first
  spells : Spells follow text words

/-- A word that may stand for something of the program's own. -/
structure IsName (name : String) : Prop where
  isWord : IsWord name.toList
  unreserved : forall kind, (name, kind) ∉ Token.reservedWords

section Composition

variable {follow others : Char -> Prop} {text rest : List Char} {words more : List Word}

theorem Written.mono (written : Written follow text words)
    (weaker : forall character, others character -> follow character) :
    Written others text words :=
  ⟨written.begins, written.spells.mono weaker⟩

theorem Written.append_cons {character : Char} (written : Written follow text words)
    (spells : Spells others (character :: rest) more) (harmless : follow character) :
    Written others (text ++ character :: rest) (words ++ more) where
  begins := by
    rcases written.begins with ⟨first, tail, rfl, isFirst⟩
    exact ⟨first, _, rfl, isFirst⟩
  spells := written.spells.append_cons spells harmless

/-- A written text behind a mark. -/
theorem Written.behind_mark (written : Written others text more) {mark : List Char}
    (isMark : Spells EndsMark mark words) : Spells others (mark ++ text) (words ++ more) := by
  have spells := written.spells
  rcases written.begins with ⟨first, tail, rfl, harmless⟩
  exact isMark.append_cons spells harmless

theorem spells_openParen : Spells EndsMark ['('] [.plain .openParen] :=
  @spells_mark .openParen "(" rfl (by decide)

theorem spells_closeParen : Spells EndsMark [')'] [.plain .closeParen] :=
  @spells_mark .closeParen ")" rfl (by decide)

theorem spells_comma : Spells EndsMark [','] [.plain .comma] :=
  @spells_mark .comma "," rfl (by decide)

/-- A written text between parentheses. -/
theorem Written.parenthesised (written : Written EndsLexeme text words) :
    Written EndsMark ('(' :: (text ++ [')'])) (Word.parenthesised words) where
  begins := ⟨'(', _, rfl, by decide⟩
  spells := (written.append_cons spells_closeParen (by decide)).behind_mark spells_openParen

end Composition

/-- No mark goes on with a character of a class that has neither of two. -/
theorem endsMark_of_belongs {belongs : Char -> Bool} {character : Char}
    (noEquals : belongs '=' = false) (noSlash : belongs '/' = false)
    (member : belongs character = true) : EndsMark character := by
  intro isMark
  simp only [List.mem_cons, List.not_mem_nil, or_false] at isMark
  rcases isMark with rfl | rfl
  · rw [noEquals] at member
    cases member
  · rw [noSlash] at member
    cases member

theorem written_word {text : String} {kind : Token.Kind} {value : Option Literal} {word : Word}
    (isWord : IsWord text.toList) (content : Piece.ofWord text = .lexeme kind value)
    (proper : kind ≠ .eof) (means : forall span, Token.word { kind, text, value, span } = word) :
    Written EndsWord text.toList [word] where
  begins := by
    generalize text.toList = characters at isWord
    cases isWord with
    | mk starts => exact ⟨_, _, rfl, endsMark_of_belongs rfl rfl starts⟩
  spells := spells_word isWord content proper means

theorem written_name {name : String} (isName : IsName name) :
    Written EndsWord name.toList [.named name] := by
  have unreserved := Token.Kind.ofReserved?_eq_none_iff.mpr isName.unreserved
  exact written_word isName.isWord (by rw [Piece.ofWord, unreserved]) (by decide) fun _ => rfl

theorem written_keyword {text : String} {kind : Token.Kind} (isWord : IsWord text.toList)
    (content : Piece.ofWord text = .lexeme kind none) (fixed : kind.spelling?.isSome) :
    Written EndsWord text.toList [.plain kind] := by
  apply written_word isWord content
  · rintro rfl
    cases fixed
  · exact fun _ => Token.word_eq_plain rfl fixed

theorem written_truth (value : Bool) :
    Written EndsWord (Literal.boolText value).toList [.literal (.bool value)] := by
  cases value with
  | false =>
      exact written_word (.mk (by decide) (List.all_eq_true.mp (by decide))) rfl (by decide)
        fun _ => rfl
  | true =>
      exact written_word (.mk (by decide) (List.all_eq_true.mp (by decide))) rfl (by decide)
        fun _ => rfl

theorem written_number {value : Nat} (bounded : value <= largestInt) :
    Written EndsWord (toString (value : Int)).toList [.literal (.int value)] where
  begins := by
    rcases exists_digits value with ⟨first, tail, shape, starts, -⟩
    exact ⟨first, tail, shape, endsMark_of_belongs rfl rfl starts⟩
  spells := spells_number bounded

theorem written_string (value : String) :
    Written (fun _ => True) (Text.Quoted.encode value.toList) [.literal (.string value)] where
  begins := ⟨'"', _, rfl, by decide⟩
  spells := spells_string value

section Lists

variable {Item : Type} {text : Item -> String} {words : Item -> List Word} {items : List Item}

/-- Written items with a comma and a space between each two. -/
theorem written_separated (nonempty : items ≠ [])
    (each : forall item, item ∈ items -> Written EndsLexeme (text item).toList (words item)) :
    Written EndsLexeme (", ".intercalate (items.map text)).toList
      (Word.separated (items.map words)) := by
  induction items with
  | nil => exact absurd rfl nonempty
  | cons first rest inductionHypothesis =>
      have ofFirst := each first List.mem_cons_self
      by_cases last : rest = []
      · subst last
        simpa [Word.separated] using ofFirst
      · have ofRest := inductionHypothesis last fun item later =>
          each item (List.mem_cons_of_mem first later)
        have moreTexts : rest.map text ≠ [] := by simpa using last
        have moreWords : rest.map words ≠ [] := by simpa using last
        rw [List.map_cons, List.map_cons, String.intercalate_cons_of_ne_nil moreTexts,
          Word.separated_cons moreWords, String.toList_append, String.toList_append,
          List.append_assoc]
        have behindComma := spells_comma.append_cons ofRest.spells.space (by decide)
        exact ofFirst.append_cons behindComma (by decide)

/-- A name with a list of items between parentheses behind it. -/
theorem written_listing {name : String} (isName : IsName name)
    (each : forall item, item ∈ items -> Written EndsLexeme (text item).toList (words item)) :
    Written EndsMark (name ++ "(" ++ ", ".intercalate (items.map text) ++ ")").toList
      (.named name :: Word.parenthesised (Word.separated (items.map words))) := by
  have listed : Spells EndsMark ('(' :: ((", ".intercalate (items.map text)).toList ++ [')']))
      (Word.parenthesised (Word.separated (items.map words))) := by
    by_cases none : items = []
    · subst none
      exact spells_openParen.append_cons spells_closeParen (by decide)
    · exact (written_separated none each).parenthesised.spells
  rw [String.toList_append, String.toList_append, String.toList_append, List.append_assoc,
    List.append_assoc]
  exact (written_name isName).append_cons listed (by decide)

end Lists

end Scan

/-- A document that spells some words has tokens with these words, and a marker behind them. -/
theorem exists_tokenize_of_spells {follow : Char -> Prop} {source : String} {words : List Word}
    (spells : Scan.Spells follow source.toList words) :
    Exists fun tokens => tokenize source = .ok tokens ∧
      (Token.beforeEnd tokens).map Token.word = words := by
  rcases spells .start [] (by rintro character ⟨⟩) with ⟨lexemes, ofLexemes, proper, scan⟩
  rw [List.append_nil, Scan.ofCursor_nil] at scan
  refine ⟨_, tokenize_eq_ok scan, ?_⟩
  rw [Token.beforeEnd_append proper rfl, ofLexemes]

end ToyFrontend
