import ToyFrontend.Proofs.Scan.Continuation

namespace ToyFrontend
namespace Scan

/-!
# More room before a token

A gap is skipped, and what may be put into a gap makes a gap again.  There is one
gap that does not simply grow: a comment that nothing ends takes in what is put
behind it, up to the first line feed there.

A lexeme is told by its own characters and the one behind it.  That one may be
replaced by a space, since no lexeme goes on with a space.  So a scan finds the
same lexemes before and behind the place where something was put in, and only
their places differ.
-/

/-! ## Gaps are skipped -/

theorem isSpace_iff {character : Char} :
    isSpace character = true ↔ character ∈ [' ', '\t', '\r', '\n'] := by
  simp [isSpace, or_assoc]

/-- No word, number or mark goes on with a space. -/
theorem apart_of_isSpace {character : Char} (space : isSpace character = true) :
    isWordPart character = false ∧ character.isDigit = false ∧ character ≠ '/' ∧
      character ≠ '=' := by
  have among := isSpace_iff.mp space
  simp only [List.mem_cons, List.not_mem_nil, or_false] at among
  rcases among with rfl | rfl | rfl | rfl <;> decide

theorem ofCursor_spaces {run : List Char}
    (blank : forall character, character ∈ run -> character ∈ [' ', '\t', '\r', '\n'])
    (position : Source.Position) (rest : List Char) :
    ofCursor { position, remaining := run ++ rest } =
      ofCursor { position := position.after run, remaining := rest } := by
  induction run generalizing position with
  | nil => rfl
  | cons character run inductionHypothesis =>
      have space := isSpace_iff.mpr (blank character List.mem_cons_self)
      rw [List.cons_append, ofCursor_space space, inductionHypothesis
        (fun other later => blank other (List.mem_cons_of_mem character later))]
      rfl

theorem read_of_comment {line rest : List Char} (unbroken : '\n' ∉ line)
    (ends : Ahead (· = '\n') rest) (position : Source.Position) :
    Piece.read position '/' ('/' :: line ++ rest) =
      .ok { first := '/', tail := '/' :: line, content := .gap } := by
  have all : forall character, character ∈ '/' :: line -> (character != '\n') = true := by
    intro character member
    rcases List.mem_cons.mp member with rfl | later
    · rfl
    · exact bne_iff_ne.mpr fun same => unbroken (same ▸ later)
  have stops : Ahead ((· != '\n') · = false) rest := by
    intro character isHead
    simp [ends character isHead]
  rw [Piece.read, takeWhile_append_of_ahead all stops]
  rfl

theorem ofCursor_comment {line rest : List Char} (unbroken : '\n' ∉ line)
    (ends : Ahead (· = '\n') rest) (position : Source.Position) :
    ofCursor { position, remaining := '/' :: '/' :: line ++ rest } =
      ofCursor { position := position.after ('/' :: '/' :: line), remaining := rest } := by
  rw [List.cons_append, ofCursor_of_read (read_of_comment unbroken ends position), List.drop_left]
  rfl

/-- Whatever stands in a gap, a scan goes on behind it. -/
theorem ofCursor_gap {gap rest : List Char} (skipped : Gap gap rest) (position : Source.Position) :
    ofCursor { position, remaining := gap ++ rest } =
      ofCursor { position := position.after gap, remaining := rest } := by
  induction skipped generalizing position with
  | none => rfl
  | @more filler others rest first _ inductionHypothesis =>
      rw [List.append_assoc, Source.Position.after_append, ← inductionHypothesis]
      cases first with
      | spaces _ blank => exact ofCursor_spaces blank position (others ++ rest)
      | comment unbroken ends => exact ofCursor_comment unbroken ends position

/-- Only the first character behind a gap has a part in it. -/
theorem Gap.before {gap rest other : List Char} (skipped : Gap gap rest)
    (same : other.head? = rest.head?) : Gap gap other := by
  induction skipped with
  | none => exact .none
  | @more filler others rest first _ inductionHypothesis =>
      refine .more ?_ (inductionHypothesis same)
      cases first with
      | spaces nonempty blank => exact .spaces nonempty blank
      | comment unbroken ends =>
          apply Filler.comment unbroken
          rwa [List.head?_append, same, ← List.head?_append]

/-- A scan that succeeds skips a gap and comes to the end or to a lexeme. -/
theorem exists_lexeme {cursor : Source.Cursor} (finished : (ofCursor cursor).failure = none) :
    Exists fun gap => Exists fun rest => cursor.remaining = gap ++ rest ∧ Gap gap rest ∧
      (rest = [] ∨ Exists fun piece : Piece => Exists fun others =>
        rest = piece.text ++ others ∧
          Piece.read (cursor.position.after gap) piece.first (piece.tail ++ others) = .ok piece ∧
          piece.content ≠ .gap) := by
  fun_induction ofCursor cursor with
  | case1 cursor atEnd => exact ⟨[], [], atEnd, .none, .inl rfl⟩
  | case2 => cases finished
  | case3 cursor first ahead shape piece run inductionHypothesis =>
      have whole := Piece.cons_eq_of_read run
      rcases Piece.fitting_of_read run with ⟨isFirst, stands, fitting⟩
      by_cases isGap : piece.content = .gap
      · rcases inductionHypothesis finished with ⟨gap, rest, same, skipped, comesTo⟩
        dsimp only at same comesTo
        rw [Piece.Fitting, isGap, same] at fitting
        rw [← Source.Position.after_append] at comesTo
        refine ⟨piece.text ++ gap, rest, ?_, .more fitting skipped, comesTo⟩
        rw [shape, whole, same, List.append_assoc]
      · refine ⟨[], first :: ahead, shape, .none, .inr ⟨piece, _, whole, ?_, isGap⟩⟩
        rcases stands with ⟨others, rfl⟩
        rw [List.drop_left, isFirst]
        exact run

/-! ## What may be inserted -/

/-- Text without a token that stands apart from what is before it: spaces, or spaces with a
whole comment behind them, up to its line feed. -/
inductive Trivia : List Char -> Prop
  | spaces {run : List Char} (nonempty : run ≠ [])
      (blank : forall character, character ∈ run -> character ∈ [' ', '\t', '\r', '\n']) :
      Trivia run
  | comment {run line : List Char} (nonempty : run ≠ [])
      (blank : forall character, character ∈ run -> character ∈ [' ', '\t', '\r', '\n'])
      (unbroken : '\n' ∉ line) : Trivia (run ++ '/' :: '/' :: line ++ ['\n'])

theorem gap_of_spaces {run : List Char}
    (blank : forall character, character ∈ run -> character ∈ [' ', '\t', '\r', '\n'])
    (rest : List Char) : Gap run rest := by
  by_cases nonempty : run = []
  · subst nonempty
    exact .none
  · rw [← List.append_nil run]
    exact .more (.spaces nonempty blank) .none

theorem gap_lineFeed (rest : List Char) : Gap ['\n'] rest :=
  gap_of_spaces (by simp) rest

theorem Trivia.gap {text : List Char} (trivia : Trivia text) (rest : List Char) :
    Gap text rest := by
  cases trivia with
  | spaces nonempty blank => exact gap_of_spaces blank rest
  | @comment run line nonempty blank unbroken =>
      rw [List.append_assoc]
      refine .more (.spaces nonempty blank) (.more (.comment unbroken ?_) (gap_lineFeed rest))
      simp

theorem Trivia.exists_head {text : List Char} (trivia : Trivia text) :
    Exists fun character => Exists fun rest => text = character :: rest ∧
      isSpace character = true := by
  have first {run : List Char} (nonempty : run ≠ [])
      (blank : forall character, character ∈ run -> character ∈ [' ', '\t', '\r', '\n']) :
      Exists fun character => Exists fun rest => run = character :: rest ∧
        isSpace character = true := by
    rcases List.exists_cons_of_ne_nil nonempty with ⟨character, rest, rfl⟩
    exact ⟨character, rest, rfl, isSpace_iff.mpr (blank character List.mem_cons_self)⟩
  cases trivia with
  | spaces nonempty blank => exact first nonempty blank
  | comment nonempty blank =>
      rcases first nonempty blank with ⟨character, rest, rfl, space⟩
      exact ⟨character, _, rfl, space⟩

/-- Up to the first line feed, if there is one, what may be inserted stays in a line, and
from there on it may be skipped. -/
theorem Trivia.exists_line {text : List Char} (trivia : Trivia text) (rest : List Char) :
    Exists fun line => Exists fun others => text = line ++ others ∧ '\n' ∉ line ∧
      Gap others rest ∧ (others = [] ∨ others.head? = some '\n') := by
  have divide {run : List Char} : ('\n' ∉ run) ∨ Exists fun line => Exists fun others =>
      run = line ++ '\n' :: others ∧ '\n' ∉ line := by
    by_cases broken : '\n' ∈ run
    · rcases List.eq_append_cons_of_mem broken with ⟨line, others, same, unbroken⟩
      exact .inr ⟨line, others, same, unbroken⟩
    · exact .inl broken
  cases trivia with
  | spaces nonempty blank =>
      rcases @divide text with unbroken | ⟨line, others, rfl, unbroken⟩
      · exact ⟨text, [], by simp, unbroken, .none, .inl rfl⟩
      · refine ⟨line, '\n' :: others, rfl, unbroken, gap_of_spaces ?_ rest, .inr rfl⟩
        exact fun character later => blank character (List.mem_append_right line later)
  | @comment run behind nonempty blank unbrokenBehind =>
      rcases @divide run with unbroken | ⟨line, others, rfl, unbroken⟩
      · refine ⟨run ++ '/' :: '/' :: behind, ['\n'], rfl, ?_, gap_lineFeed rest, .inr rfl⟩
        simp [unbroken, unbrokenBehind]
      · have later : Trivia ('\n' :: others ++ '/' :: '/' :: behind ++ ['\n']) :=
          .comment (List.cons_ne_nil _ _)
            (fun character later => blank character (List.mem_append_right line later))
            unbrokenBehind
        exact ⟨line, _, by simp, unbroken, later.gap rest, .inr rfl⟩

/-- A gap with more in it is a gap. -/
theorem Gap.insert {gap rest text : List Char} (skipped : Gap gap rest) (trivia : Trivia text) :
    Gap (gap ++ text) rest := by
  induction skipped with
  | none => exact trivia.gap _
  | @more filler others rest first skipped inductionHypothesis =>
      cases first with
      | spaces nonempty blank =>
          rw [List.append_assoc]
          exact .more (.spaces nonempty blank) inductionHypothesis
      | @comment line _ unbroken ends =>
          cases others with
          | cons character others =>
              rw [List.append_assoc]
              exact .more (.comment unbroken ends) inductionHypothesis
          | nil =>
              -- The comment takes in what is inserted, up to its first line feed.
              rcases trivia.exists_line rest with ⟨more, behind, rfl, same, later, starts⟩
              have longer : Filler ('/' :: '/' :: (line ++ more)) (behind ++ rest) := by
                apply Filler.comment (by simp [unbroken, same])
                rcases starts with rfl | starts
                · exact ends
                · simp [List.head?_append, starts]
              have whole := Gap.more longer later
              simpa using whole

/-! ## Lexemes before another rest -/

/-- What begins the second text is a space, or it begins the first one too. -/
def Follows (rest other : List Char) : Prop :=
  forall character, other.head? = some character ->
    isSpace character = true ∨ rest.head? = some character

theorem Follows.behind {rest other : List Char} (follows : Follows rest other)
    (tail : List Char) : Follows (tail ++ rest) (tail ++ other) := by
  cases tail with
  | nil => exact follows
  | cons first tail => exact fun character isHead => .inr isHead

theorem Follows.head {rest other : List Char} (follows : Follows rest other) {character : Char}
    (noSpace : isSpace character = false) (isHead : other.head? = some character) :
    rest.head? = some character := by
  rcases follows character isHead with space | same
  · rw [space] at noSpace
    cases noSpace
  · exact same

theorem takeWhile_of_follows {belongs : Char -> Bool} {tail rest other : List Char}
    (noSpace : forall character, isSpace character = true -> belongs character = false)
    (follows : Follows rest other) (run : (tail ++ rest).takeWhile belongs = tail) :
    (tail ++ other).takeWhile belongs = tail := by
  have all : forall character, character ∈ tail -> belongs character = true := by
    rw [← run]
    exact of_mem_takeWhile
  apply takeWhile_append_of_ahead all
  intro character isHead
  rcases follows character isHead with space | same
  · exact noSpace character space
  · rcases List.head?_eq_some_iff.mp same with ⟨others, rfl⟩
    rw [List.takeWhile_append_of_pos all, List.takeWhile_cons] at run
    split at run
    next => simp at run
    next stops => exact Bool.eq_false_iff.mpr stops

theorem symbol?_of_follows {first : Char} {tail rest other : List Char} {kind : Token.Kind}
    (follows : Follows rest other)
    (found : Piece.symbol? first (tail ++ rest) = some (kind, tail)) :
    Piece.symbol? first (tail ++ other) = some (kind, tail) := by
  have joins (alone joined : Token.Kind)
      (found : (if (tail ++ rest).head? = some '=' then some (joined, ['=']) else
        some (alone, [])) = some (kind, tail)) :
      (if (tail ++ other).head? = some '=' then some (joined, ['=']) else some (alone, [])) =
        some (kind, tail) := by
    split at found
    next =>
      cases found
      rfl
    next single =>
      cases found
      exact if_neg fun isHead => single (follows.head (by decide) isHead)
  unfold Piece.symbol? at found ⊢
  extract_lets at found ⊢
  split at found
  case h_5 => exact joins .assignment .equals found
  case h_6 => exact joins .not .notEquals found
  case h_7 => exact joins .less .lessEquals found
  case h_8 => exact joins .greater .greaterEquals found
  case h_15 => cases found
  all_goals exact found

/-- A lexeme is read before every rest that begins with a space or as before. -/
theorem read_of_follows {start : Source.Position} {first : Char} {tail rest other : List Char}
    {piece : Piece} (run : Piece.read start first (tail ++ rest) = .ok piece)
    (same : piece.tail = tail) (isLexeme : piece.content ≠ .gap) (follows : Follows rest other)
    (place : Source.Position) : Piece.read place first (tail ++ other) = .ok piece := by
  have run := read_of_read run place
  unfold Piece.read at run ⊢
  by_cases starts : isWordStart first = true
  · rw [if_pos starts] at run ⊢
    cases run
    have whole := takeWhile_of_follows (fun _ space => (apart_of_isSpace space).1) follows same
    rw [Piece.word, Piece.word, whole, show (tail ++ rest).takeWhile isWordPart = tail from same]
  rw [if_neg starts] at run ⊢
  by_cases digit : first.isDigit = true
  · rw [if_pos digit, Piece.number] at run ⊢
    have tailRun : (tail ++ rest).takeWhile Char.isDigit = tail := by
      split at run
      next =>
        cases run
        exact same
      next => cases run
    have whole := takeWhile_of_follows (fun _ space => (apart_of_isSpace space).2.1) follows tailRun
    rw [whole]
    rw [tailRun] at run
    exact run
  rw [if_neg digit] at run ⊢
  by_cases space : isSpace first = true
  · rw [if_pos space] at run
    cases run
    exact absurd rfl isLexeme
  rw [if_neg space] at run ⊢
  by_cases isQuote : first = '"'
  · rw [if_pos isQuote] at run ⊢
    unfold Piece.string at run ⊢
    split at run
    next value written closed =>
      cases run
      cases same
      rcases Text.Quoted.denotes_of_body closed with ⟨content, rfl, denotes⟩
      rw [List.append_assoc, List.singleton_append, Text.Quoted.body_of_denotes denotes]
    next => cases run
    next => cases run
  rw [if_neg isQuote] at run ⊢
  by_cases comment : (first = '/' && (tail ++ rest).head? = some '/') = true
  · rw [if_pos comment] at run
    cases run
    exact absurd rfl isLexeme
  have noComment : ¬ (first = '/' && (tail ++ other).head? = some '/') = true := by
    intro both
    apply comment
    simp only [Bool.and_eq_true, decide_eq_true_eq] at both ⊢
    exact ⟨both.1, (follows.behind tail).head (by decide) both.2⟩
  rw [if_neg comment] at run
  rw [if_neg noComment]
  split at run
  next kind symbolTail found =>
    cases run
    cases same
    rw [symbol?_of_follows follows found]
  next => cases run

/-! ## Places that are only partly kept -/

/-- What is kept of two places decides what is kept of the places behind one more
character. -/
def Congruent (keep : Source.Position -> Source.Position) : Prop :=
  forall first second character, keep first = keep second ->
    keep (first.next character) = keep (second.next character)

section Congruent

variable {keep : Source.Position -> Source.Position} (congruent : Congruent keep)
  {first second : Source.Position}

include congruent

theorem Congruent.after (same : keep first = keep second) (text : List Char) :
    keep (first.after text) = keep (second.after text) := by
  induction text generalizing first second with
  | nil => exact same
  | cons character text inductionHypothesis =>
      exact inductionHypothesis (congruent first second character same)

theorem Congruent.token? (same : keep first = keep second) (piece : Piece) :
    (piece.token? first).map (Token.relocate keep) =
      (piece.token? second).map (Token.relocate keep) := by
  unfold Piece.token?
  cases piece.content with
  | gap => rfl
  | lexeme kind value =>
      simp only [Option.map_some, Token.relocate, Source.Span.relocate, same,
        congruent.after same]

end Congruent

theorem relocate_prepend (keep : Source.Position -> Source.Position) (token : Option Token)
    (scan : Scan) :
    (scan.prepend token).relocate keep =
      (scan.relocate keep).prepend (token.map (Token.relocate keep)) := by
  cases token <;> rfl

/-- A text is scanned alike from places of which the same is kept. -/
theorem ofCursor_of_congruent {keep : Source.Position -> Source.Position}
    (congruent : Congruent keep) {cursor : Source.Cursor}
    (finished : (ofCursor cursor).failure = none) {other : Source.Position}
    (same : keep cursor.position = keep other) :
    (ofCursor { cursor with position := other }).relocate keep =
      (ofCursor cursor).relocate keep := by
  fun_induction ofCursor cursor generalizing other with
  | case1 cursor atEnd =>
      rcases cursor with ⟨position, remaining⟩
      cases atEnd
      dsimp only at same ⊢
      rw [ofCursor_nil]
      simp [relocate, Token.relocate, Token.endMarker, Source.Span.relocate, Source.Span.point,
        same]
  | case2 => cases finished
  | case3 cursor first ahead shape piece run inductionHypothesis =>
      rcases cursor with ⟨position, remaining⟩
      cases shape
      dsimp only at same run ⊢
      have later := inductionHypothesis finished (congruent.after same piece.text)
      rw [ofCursor_of_read (read_of_read run other), relocate_prepend, relocate_prepend, later,
        congruent.token? same]

/-! ## Insertion -/

/-- The place that everything is put to where places do not count. -/
def nowhere (_ : Source.Position) : Source.Position :=
  .start

theorem congruent_nowhere : Congruent nowhere :=
  fun _ _ _ _ => rfl

theorem Trivia.follows {text : List Char} (trivia : Trivia text) (rest : List Char) :
    Follows rest (text ++ rest) := by
  rcases trivia.exists_head with ⟨first, others, rfl, space⟩
  rintro character ⟨⟩
  exact .inl space

/-- Behind a gap a lexeme is met, and the scan goes on behind it. -/
theorem ofCursor_of_lexeme {position : Source.Position} {gap rest : List Char} {piece : Piece}
    (skipped : Gap gap (piece.text ++ rest))
    (run : Piece.read (position.after gap) piece.first (piece.tail ++ rest) = .ok piece) :
    ofCursor { position, remaining := gap ++ (piece.text ++ rest) } =
      (ofCursor { position := position.after (gap ++ piece.text), remaining := rest }).prepend
        (piece.token? (position.after gap)) := by
  have step := ofCursor_of_read run
  rw [List.drop_left] at step
  rw [ofCursor_gap skipped, Source.Position.after_append]
  exact step

/-- The token begins at a place of the text where more may be inserted: a scan finds the same
lexemes then. -/
def HasRoom (position : Source.Position) (text : List Char) (token : Token) : Prop :=
  Exists fun before => Exists fun behind => text = before ++ behind ∧
    token.span.start = position.after before ∧
    forall inserted, Trivia inserted -> forall other,
      (ofCursor { position := other, remaining := before ++ (inserted ++ behind) }).relocate
          nowhere =
        (ofCursor { position, remaining := text }).relocate nowhere

/-- Before the first token the gap grows. -/
theorem hasRoom_behind_gap {position : Source.Position} {gap rest : List Char} {token : Token}
    (skipped : Gap gap rest)
    (finished : (ofCursor { position, remaining := gap ++ rest }).failure = none)
    (starts : token.span.start = position.after gap) : HasRoom position (gap ++ rest) token := by
  refine ⟨gap, rest, rfl, starts, ?_⟩
  intro inserted trivia other
  rw [ofCursor_gap skipped] at finished ⊢
  rw [← List.append_assoc, ofCursor_gap (skipped.insert trivia)]
  exact ofCursor_of_congruent congruent_nowhere finished rfl

/-- What is inserted behind a lexeme leaves the lexeme as it is. -/
theorem HasRoom.behind_lexeme {position : Source.Position} {gap rest : List Char} {token : Token}
    {piece : Piece} (room : HasRoom (position.after (gap ++ piece.text)) rest token)
    (skipped : Gap gap (piece.text ++ rest))
    (run : Piece.read (position.after gap) piece.first (piece.tail ++ rest) = .ok piece)
    (isLexeme : piece.content ≠ .gap) : HasRoom position (gap ++ (piece.text ++ rest)) token := by
  rcases room with ⟨before, behind, rfl, starts, inserts⟩
  refine ⟨gap ++ (piece.text ++ before), behind, by simp, ?_, ?_⟩
  · rw [starts, ← Source.Position.after_append, List.append_assoc]
  · intro inserted trivia other
    have follows := (trivia.follows behind).behind before
    have runOn := read_of_follows run rfl isLexeme follows (other.after gap)
    have skippedOn : Gap gap (piece.text ++ (before ++ (inserted ++ behind))) :=
      skipped.before rfl
    have samePlace : nowhere (other.after gap) = nowhere (position.after gap) := rfl
    rw [ofCursor_of_lexeme skipped run, List.append_assoc, List.append_assoc,
      ofCursor_of_lexeme skippedOn runOn, relocate_prepend, relocate_prepend,
      inserts inserted trivia, congruent_nowhere.token? samePlace]

theorem hasRoom_of_mem {position : Source.Position} {text : List Char} {token : Token}
    (finished : (ofCursor { position, remaining := text }).failure = none)
    (member : token ∈ (ofCursor { position, remaining := text }).tokens) :
    HasRoom position text token := by
  -- The run goes from lexeme to lexeme, so it is on the length of the text.
  induction size : text.length using Nat.strongRecOn generalizing text position with
  | _ length inductionHypothesis =>
      subst size
      rcases exists_lexeme finished with ⟨gap, rest, shape, skipped, comesTo⟩
      replace shape : text = gap ++ rest := shape
      subst shape
      rcases comesTo with rfl | ⟨piece, rest, rfl, run, isLexeme⟩
      · apply hasRoom_behind_gap skipped finished
        rw [ofCursor_gap skipped, ofCursor_nil] at member
        rw [List.mem_singleton.mp member]
        rfl
      · have step := ofCursor_of_lexeme skipped run
        rw [step] at member
        rcases List.mem_append.mp member with own | later
        · apply hasRoom_behind_gap skipped finished
          unfold Piece.token? at own
          split at own
          next => cases own
          next =>
            rw [List.mem_singleton.mp own]
        · have shorter : rest.length < (gap ++ (piece.text ++ rest)).length := by
            simp only [List.length_append, Piece.text, List.length_cons]
            omega
          rw [step] at finished
          exact (inductionHypothesis _ shorter finished later rfl).behind_lexeme skipped run
            isLexeme

end Scan
end ToyFrontend
