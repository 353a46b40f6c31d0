import ToyFrontend.Proofs.Blame.Operand
import ToyFrontend.Proofs.Blame.Statement
import ToyFrontend.Proofs.Reading.Locality
import ToyFrontend.Proofs.Scan.Layout

namespace ToyFrontend

/-!
# What a syntax error says

A document is refused for one token.  Three things are true of it: whatever stands
behind the token, the refusal is the same; the tokens before it could have been
the beginning of a program; and they still could with a token of an expected kind
in its place.

The third has one exception.  Behind an operator that awaits its operand a second
one is listed among the expected kinds, and no program has one there.
-/

/-- The tokens have the words that some well-formed program begins with, however deep
its nesting may be. -/
def Viable (tokens : List Token) : Prop :=
  Exists fun program : SyntaxTree.Program => program.WellFormed ∧
    tokens.map Token.word <+: program.words

/-- The error is about this token of a list, which stands behind the tokens `before`. -/
structure SyntaxError.Blames (error : SyntaxError) (tokens before : List Token)
    (token : Token) : Prop where
  stands : Exists fun behind => tokens = before ++ token :: behind
  found : error.found = token.kind
  text : error.text = token.text
  position : error.position = token.span.start

/-- The last token is an operator that awaits its operand: an operand could have stood
in its place. -/
def AwaitsOperand (tokens : List Token) : Prop :=
  Exists fun before => Exists fun operator : Token => tokens = before ++ [operator] ∧
    (SyntaxTree.UnaryOperator.ofKind? operator.kind).isSome ∧
      forall operand : Token, operand.kind ∈ Token.Kind.primaryStart -> operand.Coherent ->
        Viable (before ++ [operand])

theorem Viable.leads {tokens : List Token} (viable : Viable tokens) :
    Exists fun reached => Word.Stage.ready.Leads (tokens.map Token.word) reached := by
  rcases viable with ⟨program, wellFormed, begins⟩
  exact (SyntaxTree.Program.leads_words wellFormed).of_isPrefix begins

theorem mem_of_unaryOperator {kind : Token.Kind}
    (isOperator : (SyntaxTree.UnaryOperator.ofKind? kind).isSome) : kind ∈ [.dash, .not] := by
  cases kind with
  | dash => decide
  | not => decide
  | _ => cases isOperator

/-- Behind an operator that awaits its operand no other such operator can stand. -/
theorem AwaitsOperand.not_viable {tokens : List Token} (awaits : AwaitsOperand tokens)
    {next : Token} (isOperator : (SyntaxTree.UnaryOperator.ofKind? next.kind).isSome) :
    ¬ Viable (tokens ++ [next]) := by
  rcases awaits with ⟨before, operator, rfl, awaits, possible⟩
  intro viable
  rcases viable.leads with ⟨last, doubled⟩
  rcases (possible (.sample .intLiteral) (by decide) (Token.coherent_sample _)).leads with
    ⟨reached, single⟩
  rw [List.append_assoc, List.map_append] at doubled
  rw [List.map_append] at single
  exact Word.Stage.Leads.not_doubled rfl single (mem_of_unaryOperator awaits)
    (mem_of_unaryOperator isOperator) doubled

namespace Phrase

open SyntaxTree

theorem keepsWords_writtenTop : KeepsWords WrittenTop Stmt.words := by
  intro tokens statement spelled
  cases spelled with
  | function spelled => exact keepsWords_function (fun _ _ body => body.words) spelled
  | statement spelled =>
      exact keepsWords_statement (fun _ _ inner => inner.words) (fun _ _ body => body.words)
        spelled

theorem ensures_writtenTop :
    Ensures WrittenTop (fun statement => statement.Regular ∧
      forall inner, inner ∈ statement.nested -> Plain inner) := by
  intro tokens statement spelled
  cases spelled with
  | function spelled => exact ensures_function (fun _ _ body => body.plain) spelled
  | statement spelled =>
      have plain := ensures_statement (fun _ _ inner => inner.regular) (fun _ _ body => body.plain)
        spelled
      exact ⟨plain.1.1, plain.2⟩

/-- What begins a list of statements at the top begins a program. -/
theorem viable_of_extends {begun : List Token} (begins : Extends (Repeated WrittenTop) begun) :
    Viable begun := by
  rcases begins with ⟨rest, body, spelled⟩
  have tops := ensures_repeated ensures_writtenTop spelled
  refine ⟨{ body := body, span := .point .start }, ⟨?_, ?_⟩, rest.map Token.word, ?_⟩
  · intro statement member
    rcases Stmt.mem_ofList.mp member with ⟨outer, listed, same | inside⟩
    · exact same ▸ (tops outer listed).1
    · exact ((tops outer listed).2 statement inside).1
  · exact fun statement listed inner inside => ((tops statement listed).2 inner inside).2
  · rw [← List.map_append]
    exact keepsWords_repeated keepsWords_writtenTop spelled

theorem viable_of_admits {begun : List Token} {kind : Token.Kind}
    (admits : Admits (Repeated WrittenTop) begun kind) {next : Token} (isKind : next.kind = kind)
    (coherent : next.Coherent) : Viable (begun ++ [next]) :=
  viable_of_extends (admits isKind coherent)

theorem awaitsOperand_of_behindOperator {begun : List Token}
    (behind : BehindOperator (Repeated WrittenTop) begun) : AwaitsOperand begun := by
  rcases behind with ⟨before, operator, rfl, isOperator, admits⟩
  exact ⟨before, operator, rfl, isOperator,
    fun operand listed coherent => viable_of_admits (admits operand.kind listed) rfl coherent⟩

end Phrase

namespace Reading

open Phrase
open Reader

theorem explains_program : Explains (Repeated WrittenTop) [] program := by
  intro start closed error stop run
  rw [program, run_tokens_bind] at run
  refine explains_untilKind .eof (Statement.sound_writtenTop SyntaxTree.nestingLimit)
    start.tokens ?_ closed run
  exact fun tokens values spelled => Statement.explains_atTop SyntaxTree.nestingLimit spelled

theorem withEndMarker_append (before : List Token) (token : Token) (rest : List Token) :
    Exists fun more => withEndMarker (before ++ token :: rest) = before ++ token :: more := by
  unfold withEndMarker
  split
  next => exact ⟨rest, rfl⟩
  next => exact ⟨_, by rw [List.append_assoc]; rfl⟩

/-- The error of a token list is that of every list with the same tokens up to the one
at fault, and what it says is true of the tokens before it. -/
theorem explained_of_parseTokens {tokens : List Token} {error : SyntaxError}
    (failed : parseTokens tokens = .error error) :
    Exists fun before => Exists fun token => Exists fun behind =>
      withEndMarker tokens = before ++ token :: behind ∧
        Explained (Repeated WrittenTop) before token error ∧
        forall rest, parseTokens (before ++ token :: rest) = .error error := by
  rcases parseTokens_eq_error_iff.mp failed with ⟨stop, run⟩
  have closed := Cursor.closed_ofTokens tokens
  rcases explains_program closed run with ⟨before, passes, explained⟩
  refine ⟨before, stop.current, stop.following, ?_, explained, ?_⟩
  · rw [← Cursor.tokens_ofTokens, passes.tokens_eq]
    rfl
  · intro rest
    -- The other list leads to a cursor at the same token, behind the same tokens.
    rcases withEndMarker_append before stop.current rest with ⟨more, marked⟩
    have passesOther := Cursor.passes_ofTokens marked passes.proper
    rcases @local_program _ _ closed stop (.error error) run with ⟨again, passesAgain, mirrored⟩
    cases passes.unique passesAgain
    exact parseTokens_eq_error_iff.mpr ⟨_, mirrored (Nat.le_refl _) passesOther rfl⟩

/-- A scan ends with an end marker, so none is put behind its tokens. -/
theorem withEndMarker_of_tokenize {source : String} {tokens : List Token}
    (scanned : tokenize source = .ok tokens) : withEndMarker tokens = tokens := by
  rcases (Scan.layout_of_tokenize scanned).marked with ⟨lexemes, rfl, -⟩
  exact Cursor.withEndMarker_concat lexemes rfl

/-- A syntax error is that of the tokens of a scan. -/
theorem exists_tokens_of_parse {source : String} {error : SyntaxError}
    (failed : parse source = .error (.syntactic error)) :
    Exists fun tokens => tokenize source = .ok tokens ∧ parseTokens tokens = .error error := by
  unfold parse at failed
  split at failed
  next => cases failed
  next tokens scanned =>
    split at failed
    next refused =>
      cases failed
      exact ⟨tokens, scanned, refused⟩
    next => cases failed

theorem explained_of_parse {source : String} {error : SyntaxError}
    (failed : parse source = .error (.syntactic error)) :
    Exists fun tokens => Exists fun before => Exists fun token =>
      tokenize source = .ok tokens ∧ error.Blames tokens before token ∧
        Explained (Repeated WrittenTop) before token error ∧
        forall rest, parseTokens (before ++ token :: rest) = .error error := by
  rcases exists_tokens_of_parse failed with ⟨tokens, scanned, refused⟩
  rcases explained_of_parseTokens refused with
    ⟨before, token, behind, shape, explained, always⟩
  rw [withEndMarker_of_tokenize scanned] at shape
  refine ⟨tokens, before, token, scanned, ?_, explained, always⟩
  rw [explained.blames]
  exact ⟨⟨behind, shape⟩, rfl, rfl, rfl⟩

end Reading

/-! ## Documents -/

theorem parse_eq_error {source : String} {tokens : List Token} {error : SyntaxError}
    (scanned : tokenize source = .ok tokens) (refused : parseTokens tokens = .error error) :
    parse source = .error (.syntactic error) := by
  rw [parse, scanned]
  dsimp only
  rw [refused]

/-- A token without a value in the first line of a document. -/
def Token.inFirstLine (kind : Token.Kind) (text : String) (offset : Nat) : Token where
  kind := kind
  text := text
  value := none
  span :=
    { start := ⟨offset, 1, offset + 1⟩
      finish := ⟨offset + text.length, 1, offset + text.length + 1⟩ }

open Phrase

/-- A document is refused for one of its tokens.  Every list with the same tokens up to
this one is refused in the same way, and unless the nesting is too deep, the tokens
before it begin a program. -/
theorem blames_first_error {source : String} {error : SyntaxError}
    (failed : parse source = .error (.syntactic error)) :
    Exists fun tokens => Exists fun before => Exists fun token =>
      tokenize source = .ok tokens ∧ error.Blames tokens before token ∧
        (forall rest, parseTokens (before ++ token :: rest) = .error error) ∧
        (error.cause ≠ .nestingTooDeep -> Viable before) := by
  rcases Reading.explained_of_parse failed with
    ⟨tokens, before, token, scanned, blames, explained, always⟩
  exact ⟨tokens, before, token, scanned, blames, always,
    fun notDeep => viable_of_extends (explained.viable notDeep)⟩

/-- A grouping that is not closed. -/
def openGrouping : List Token :=
  [.inFirstLine .identifier "x" 0, .inFirstLine .assignment "=" 2, .inFirstLine .openParen "(" 4,
    .inFirstLine .identifier "y" 5, .inFirstLine .semicolon ";" 6, .endMarker ⟨7, 1, 8⟩]

def openGroupingError : SyntaxError :=
  .blame .unexpectedToken [.closeParen] (.inFirstLine .semicolon ";" 6)

theorem blames_first_error_of_openGrouping :
    parse "x = (y;" = .error (.syntactic openGroupingError) ∧
      Exists fun tokens => Exists fun before => Exists fun token =>
        tokenize "x = (y;" = .ok tokens ∧ openGroupingError.Blames tokens before token ∧
          (forall rest, parseTokens (before ++ token :: rest) = .error openGroupingError) ∧
          (openGroupingError.cause ≠ .nestingTooDeep -> Viable before) := by
  have scanned : tokenize "x = (y;" = .ok openGrouping := tokenize_eq_ok (by decide +kernel)
  have failed := parse_eq_error scanned (show _ = Except.error openGroupingError from rfl)
  exact ⟨failed, blames_first_error failed⟩

/-- What is expected in the place of a token can stand there, unless an expression was
expected. -/
theorem viable_of_expected {source : String} {error : SyntaxError}
    (failed : parse source = .error (.syntactic error))
    (otherCause : error.cause ≠ .expectedExpression) :
    Exists fun tokens => Exists fun before => Exists fun token =>
      tokenize source = .ok tokens ∧ error.Blames tokens before token ∧
        (error.cause ≠ .nestingTooDeep -> error.expected ≠ []) ∧
        forall kind, kind ∈ error.expected -> forall next : Token, next.kind = kind ->
          next.Coherent -> Viable (before ++ [next]) := by
  rcases Reading.explained_of_parse failed with
    ⟨tokens, before, token, scanned, blames, explained, -⟩
  refine ⟨tokens, before, token, scanned, blames, explained.lists, ?_⟩
  intro kind listed next isKind coherent
  rcases explained.admits kind listed with admits | ⟨isExpression, -⟩
  · exact viable_of_admits admits isKind coherent
  · exact absurd isExpression otherCause

/-- A name that is neither assigned to nor called. -/
def loneName : List Token :=
  [.inFirstLine .identifier "x" 0, .inFirstLine .semicolon ";" 1, .endMarker ⟨2, 1, 3⟩]

def loneNameError : SyntaxError :=
  .blame .bareIdentifier [.assignment, .openParen] (.inFirstLine .semicolon ";" 1)

theorem viable_of_expected_behind_loneName :
    parse "x;" = .error (.syntactic loneNameError) ∧
      loneNameError.cause ≠ .expectedExpression ∧
      Exists fun tokens => Exists fun before => Exists fun token =>
        tokenize "x;" = .ok tokens ∧ loneNameError.Blames tokens before token ∧
          (loneNameError.cause ≠ .nestingTooDeep -> loneNameError.expected ≠ []) ∧
          forall kind, kind ∈ loneNameError.expected -> forall next : Token, next.kind = kind ->
            next.Coherent -> Viable (before ++ [next]) := by
  have scanned : tokenize "x;" = .ok loneName := tokenize_eq_ok (by decide +kernel)
  have failed := parse_eq_error scanned (show _ = Except.error loneNameError from rfl)
  exact ⟨failed, by decide, viable_of_expected failed (by decide)⟩

/-- Where an expression is expected, what is listed can stand in the place of the token,
with one exception: the operators that stand before an operand, behind such an
operator. -/
theorem viable_of_expected_iff {source : String} {error : SyntaxError}
    (failed : parse source = .error (.syntactic error))
    (cause : error.cause = .expectedExpression) :
    Exists fun tokens => Exists fun before => Exists fun token =>
      tokenize source = .ok tokens ∧ error.Blames tokens before token ∧ error.expected ≠ [] ∧
        forall kind, kind ∈ error.expected ->
          ((forall next : Token, next.kind = kind -> next.Coherent -> Viable (before ++ [next])) ↔
            ¬ ((SyntaxTree.UnaryOperator.ofKind? kind).isSome ∧ AwaitsOperand before)) := by
  rcases Reading.explained_of_parse failed with
    ⟨tokens, before, token, scanned, blames, explained, -⟩
  have lists := explained.lists (by rw [cause]; decide)
  refine ⟨tokens, before, token, scanned, blames, lists, ?_⟩
  intro kind listed
  constructor
  · rintro viable ⟨isOperator, awaits⟩
    exact awaits.not_viable isOperator (viable (.sample kind) rfl (Token.coherent_sample kind))
  · intro notDoubled next isKind coherent
    rcases explained.admits kind listed with admits | ⟨-, isOperator, behind⟩
    · exact viable_of_admits admits isKind coherent
    · exact absurd ⟨isOperator, awaitsOperand_of_behindOperator behind⟩ notDoubled

/-- An operator without the operand that it awaits. -/
def loneOperator : List Token :=
  [.inFirstLine .identifier "x" 0, .inFirstLine .assignment "=" 2, .inFirstLine .dash "-" 4,
    .inFirstLine .semicolon ";" 5, .endMarker ⟨6, 1, 7⟩]

def loneOperatorError : SyntaxError :=
  .blame .expectedExpression Token.Kind.expressionStart (.inFirstLine .semicolon ";" 5)

theorem viable_of_expected_iff_behind_loneOperator :
    parse "x = -;" = .error (.syntactic loneOperatorError) ∧
      loneOperatorError.cause = .expectedExpression ∧
      Exists fun tokens => Exists fun before => Exists fun token =>
        tokenize "x = -;" = .ok tokens ∧ loneOperatorError.Blames tokens before token ∧
          loneOperatorError.expected ≠ [] ∧
          forall kind, kind ∈ loneOperatorError.expected ->
            ((forall next : Token, next.kind = kind -> next.Coherent ->
                Viable (before ++ [next])) ↔
              ¬ ((SyntaxTree.UnaryOperator.ofKind? kind).isSome ∧ AwaitsOperand before)) := by
  have scanned : tokenize "x = -;" = .ok loneOperator := tokenize_eq_ok (by decide +kernel)
  have failed := parse_eq_error scanned (show _ = Except.error loneOperatorError from rfl)
  exact ⟨failed, rfl, viable_of_expected_iff failed rfl⟩

/-- Here the list names an operator that no program has in this place. -/
theorem dash_expected_not_viable :
    parse "x = -;" = .error (.syntactic loneOperatorError) ∧
      loneOperatorError.cause = .expectedExpression ∧
      tokenize "x = -;" = .ok loneOperator ∧
      loneOperatorError.Blames loneOperator (loneOperator.take 3)
        (.inFirstLine .semicolon ";" 5) ∧
      .dash ∈ loneOperatorError.expected ∧
      forall next : Token, next.kind = .dash -> ¬ Viable (loneOperator.take 3 ++ [next]) := by
  have scanned : tokenize "x = -;" = .ok loneOperator := tokenize_eq_ok (by decide +kernel)
  have failed := parse_eq_error scanned (show _ = Except.error loneOperatorError from rfl)
  refine ⟨failed, rfl, scanned, ⟨⟨[.endMarker ⟨6, 1, 7⟩], rfl⟩, rfl, rfl, rfl⟩, by decide, ?_⟩
  intro next isDash viable
  rcases viable.leads with ⟨last, leads⟩
  rw [List.map_append] at leads
  rcases Word.Stage.Leads.append_iff.mp leads with ⟨reached, first, rest⟩
  have pending : Word.Stage.ready.Leads ((loneOperator.take 3).map Token.word) .pending := by
    decide
  cases Option.some.inj (first.symm.trans pending)
  rcases Word.Stage.Leads.cons_iff.mp rest with ⟨_, step, -⟩
  rw [show next.word.kind = .dash from isDash] at step
  cases step

end ToyFrontend
