import ToyFrontend.Proofs.Reading.Contract
import ToyFrontend.Proofs.Words

namespace ToyFrontend

namespace Token

/-- A literal has a value, and the value is of the literal's kind. -/
def Coherent (token : Token) : Prop :=
  token.kind.isLiteral = true ->
    Exists fun value => token.value = some value ∧ token.kind = Word.literalKind value

/-- Some token of a kind. -/
def sample (kind : Kind) : Token where
  kind := kind
  text := kind.spelling?.getD "x"
  value :=
    match kind with
    | .intLiteral => some (.int 0)
    | .stringLiteral => some (.string "")
    | .boolLiteral => some (.bool true)
    | _ => none
  span := .point .start

@[simp] theorem kind_sample (kind : Kind) : (sample kind).kind = kind :=
  rfl

theorem coherent_sample (kind : Kind) : (sample kind).Coherent := by
  intro isLiteral
  cases kind with
  | intLiteral => exact ⟨.int 0, rfl, rfl⟩
  | stringLiteral => exact ⟨.string "", rfl, rfl⟩
  | boolLiteral => exact ⟨.bool true, rfl, rfl⟩
  | _ => cases isLiteral

end Token

namespace Phrase

/-!
# Why a token is blamed

An error blames a token and says what could stand in its place.  Both are
statements about the tokens before it: they begin a phrase, and they still do
with a token of an expected kind behind them.  `Extends` and `Admits` are these
two, for any relation between tokens and trees.

A part of a phrase fits into the whole behind the tokens that come before it.
What is true of the beginning of the part is then true of the beginning of the
whole, so an error is explained where it arises and the explanation is carried
outwards, one production after the other.

One explanation says less.  Behind an operator that stands before its operand a
second such operator cannot stand, and the readers nevertheless list it there;
`BehindOperator` is the place where this happens.
-/

section Beginnings

variable {Item Part : Type}

/-- Something that is spelled begins with these tokens. -/
def Extends (item : List Token -> Item -> Prop) (begun : List Token) : Prop :=
  Exists fun rest => Exists fun value => item (begun ++ rest) value

/-- Something that is spelled begins with these tokens and one more of the kind,
whichever it is. -/
def Admits (item : List Token -> Item -> Prop) (begun : List Token) (kind : Token.Kind) : Prop :=
  forall ⦃next : Token⦄, next.kind = kind -> next.Coherent -> Extends item (begun ++ [next])

/-- The part can stand behind `before` in the whole. -/
def FitsBehind (part : List Token -> Part -> Prop) (whole : List Token -> Item -> Prop)
    (before : List Token) : Prop :=
  forall ⦃tokens : List Token⦄ ⦃value : Part⦄, part tokens value ->
    Extends whole (before ++ tokens)

/-- The last token is an operator where an operand could begin: it stands before
its operand. -/
def BehindOperator (item : List Token -> Item -> Prop) (passed : List Token) : Prop :=
  Exists fun before => Exists fun operator : Token => passed = before ++ [operator] ∧
    (SyntaxTree.UnaryOperator.ofKind? operator.kind).isSome ∧
      forall kind, kind ∈ Token.Kind.primaryStart -> Admits item before kind

/-- The error blames the token, and what it says is true of the tokens before it. -/
structure Explained (item : List Token -> Item -> Prop) (passed : List Token) (token : Token)
    (error : SyntaxError) : Prop where
  blames : error = SyntaxError.blame error.cause error.expected token
  viable : error.cause ≠ .nestingTooDeep -> Extends item passed
  lists : error.cause ≠ .nestingTooDeep -> error.expected ≠ []
  admits : forall kind, kind ∈ error.expected -> Admits item passed kind ∨
    (error.cause = .expectedExpression ∧ (SyntaxTree.UnaryOperator.ofKind? kind).isSome ∧
      BehindOperator item passed)

variable {item : List Token -> Item -> Prop} {part : List Token -> Part -> Prop}
  {before begun passed : List Token}

theorem Repeated.snoc {tokens last : List Token} {values : List Item} {value : Item}
    (spelled : Repeated item tokens values) (spelledLast : item last value) :
    Repeated item (tokens ++ last) (values ++ [value]) := by
  induction spelled with
  | none =>
      rw [List.nil_append, ← List.append_nil last]
      exact .more spelledLast .none
  | more first others inductionHypothesis =>
      rw [List.append_assoc]
      exact .more first inductionHypothesis

theorem Extends.of_spelled (rest : List Token) {tokens : List Token} {value : Item}
    (spelled : item tokens value) (shape : tokens = begun ++ rest) : Extends item begun :=
  ⟨rest, value, shape ▸ spelled⟩

theorem Extends.of_append (rest : List Token) (longer : Extends item (begun ++ rest)) :
    Extends item begun := by
  rcases longer with ⟨more, value, spelled⟩
  exact .of_spelled (rest ++ more) spelled (List.append_assoc _ _ _)

theorem Extends.within (begins : Extends part begun) (fits : FitsBehind part item before) :
    Extends item (before ++ begun) := by
  rcases begins with ⟨rest, value, spelled⟩
  apply Extends.of_append rest
  rw [List.append_assoc]
  exact fits spelled

theorem Admits.within {kind : Token.Kind} (admits : Admits part begun kind)
    (fits : FitsBehind part item before) : Admits item (before ++ begun) kind := by
  intro next isKind coherent
  rw [List.append_assoc]
  exact (admits isKind coherent).within fits

/-- There are tokens of every kind. -/
theorem Admits.extends {kind : Token.Kind} (admits : Admits item begun kind) :
    Extends item begun :=
  .of_append _ (admits (Token.kind_sample kind) (Token.coherent_sample kind))

theorem BehindOperator.within (behind : BehindOperator part passed)
    (fits : FitsBehind part item before) : BehindOperator item (before ++ passed) := by
  rcases behind with ⟨earlier, operator, rfl, isOperator, awaits⟩
  refine ⟨before ++ earlier, operator, (List.append_assoc _ _ _).symm, isOperator, ?_⟩
  exact fun kind listed => (awaits kind listed).within fits

theorem Explained.within {token : Token} {error : SyntaxError}
    (explained : Explained part passed token error) (fits : FitsBehind part item before) :
    Explained item (before ++ passed) token error where
  blames := explained.blames
  viable notDeep := (explained.viable notDeep).within fits
  lists := explained.lists
  admits := by
    intro kind listed
    rcases explained.admits kind listed with admits | ⟨cause, isOperator, behind⟩
    · exact .inl (admits.within fits)
    · exact .inr ⟨cause, isOperator, behind.within fits⟩

/-- An error that lists only what is admitted, and something at all. -/
theorem explained_of_admits {cause : SyntaxError.Cause} {expected : List Token.Kind}
    {token : Token} (nonempty : expected ≠ [])
    (admits : forall kind, kind ∈ expected -> Admits item passed kind) :
    Explained item passed token (SyntaxError.blame cause expected token) where
  blames := rfl
  viable _ := (admits _ (List.head_mem nonempty)).extends
  lists _ := nonempty
  admits kind listed := .inl (admits kind listed)

theorem explained_of_nesting {token : Token} :
    Explained item passed token (SyntaxError.blame .nestingTooDeep [] token) where
  blames := rfl
  viable notDeep := absurd rfl notDeep
  lists notDeep := absurd rfl notDeep
  admits := by
    intro kind listed
    cases listed

end Beginnings

end Phrase

namespace Reading
namespace Reader

open Phrase

variable {Result Next Item Part : Type}

/-- Behind the tokens `before`, an error of the reader at this cursor is explained by
the phrase that they begin. -/
def ExplainsAt (start : Cursor) (whole : List Token -> Item -> Prop) (before : List Token)
    (reader : Reader Result) : Prop :=
  forall ⦃error : SyntaxError⦄ ⦃stop : Cursor⦄, reader.run start = .error error stop ->
    Exists fun passed => start.Passes passed stop ∧
      Explained whole (before ++ passed) stop.current error

/-- Behind the tokens `before`, every error of the reader is explained. -/
def Explains (whole : List Token -> Item -> Prop) (before : List Token)
    (reader : Reader Result) : Prop :=
  forall ⦃start : Cursor⦄, start.Closed -> ExplainsAt start whole before reader

/-- The reader reads a phrase that can be spelled, and its errors are explained by it. -/
structure AccountsFor (reader : Reader Result) (phrase : List Token -> Result -> Prop) :
    Prop where
  sound : reader.Sound phrase
  explains : Explains phrase [] reader
  possible : Extends phrase []

section Explains

variable {whole : List Token -> Item -> Prop} {part : List Token -> Part -> Prop}
  {phrase : List Token -> Result -> Prop} {before : List Token} {reader : Reader Result}

/-- An error behind what has been passed is an error behind both. -/
theorem ExplainsAt.after {start middle stop : Cursor} {first : List Token} {error : SyntaxError}
    (explainsAt : ExplainsAt middle whole (before ++ first) reader)
    (passes : start.Passes first middle) (run : reader.run middle = .error error stop) :
    Exists fun passed => start.Passes passed stop ∧
      Explained whole (before ++ passed) stop.current error := by
  rcases explainsAt run with ⟨rest, passesRest, explained⟩
  refine ⟨first ++ rest, passes.trans passesRest, ?_⟩
  rwa [List.append_assoc] at explained

theorem explains_pure (value : Result) : Explains whole before (pure value) := by
  intro start _closed error stop run
  cases run

theorem explainsAt_fail {start : Cursor} {cause : SyntaxError.Cause}
    {expected : List Token.Kind}
    (explained : Explained whole before start.current
      (SyntaxError.blame cause expected start.current)) :
    ExplainsAt start whole before (fail cause expected : Reader Result) := by
  intro error stop run
  cases run
  exact ⟨[], .refl start, by rwa [List.append_nil]⟩

theorem explains_fail {cause : SyntaxError.Cause} {expected : List Token.Kind}
    (nonempty : expected ≠ [])
    (admits : forall kind, kind ∈ expected -> Admits whole before kind) :
    Explains whole before (fail cause expected : Reader Result) :=
  fun _ _ => explainsAt_fail (explained_of_admits nonempty admits)

theorem explains_kind {continuation : Token.Kind -> Reader Next}
    (continued : forall kind, Explains whole before (continuation kind)) :
    Explains whole before (kind >>= continuation) := by
  intro start closed error stop run
  rw [run_kind_bind] at run
  exact continued start.kind closed run

/-- The errors of a part are explained by the whole into which it fits. -/
theorem Explains.within (explains : Explains part [] reader) (fits : FitsBehind part whole before) :
    Explains whole before reader := by
  intro start closed error stop run
  rcases explains closed run with ⟨passed, passes, explained⟩
  exact ⟨passed, passes, explained.within fits⟩

theorem explains_bind {continuation : Result -> Reader Next} (sound : reader.Sound phrase)
    (explains : Explains whole before reader)
    (continued : forall ⦃tokens : List Token⦄ ⦃value : Result⦄, phrase tokens value ->
      Explains whole (before ++ tokens) (continuation value)) :
    Explains whole before (reader >>= continuation) := by
  intro start closed error stop run
  rcases run_bind_eq_error_iff.mp run with first | ⟨value, middle, first, second⟩
  · exact explains closed first
  · rcases sound closed first with ⟨tokens, passes, spelled⟩
    exact (continued spelled (passes.closed closed)).after passes second

/-- What is made of a result has no part in an error. -/
theorem Explains.map (explains : Explains whole before reader) (make : Result -> Next) :
    Explains whole before (reader >>= fun value => pure (make value)) := by
  intro start closed error stop run
  rcases run_bind_eq_error_iff.mp run with first | ⟨value, middle, -, second⟩
  · exact explains closed first
  · cases second

theorem explainsAt_advance {continuation : Token -> Reader Next} {start : Cursor}
    (closed : start.Closed) (proper : start.kind ≠ .eof)
    (continued : Explains whole (before ++ [start.current]) (continuation start.current)) :
    ExplainsAt start whole before (advance >>= continuation) := by
  intro error stop run
  rw [run_advance_bind] at run
  have passes := closed.passes_advance proper
  exact (continued (passes.closed closed)).after passes run

theorem explains_expect {expected : Token.Kind} (proper : expected ≠ .eof)
    (admits : Admits whole before expected) {continuation : Token -> Reader Next}
    (continued : forall ⦃token : Token⦄, token.kind = expected ->
      Explains whole (before ++ [token]) (continuation token)) :
    Explains whole before (expect expected >>= continuation) := by
  intro start closed
  by_cases same : start.kind = expected
  · intro error stop run
    rw [run_bind_of_ok (run_expect_of_eq same)] at run
    exact explainsAt_advance closed (same ▸ proper) (continued same) run
  · intro error stop run
    rcases run_bind_eq_error_iff.mp run with first | ⟨token, middle, first, -⟩
    · rw [run_expect_of_ne same] at first
      cases first
      refine ⟨[], .refl start, ?_⟩
      rw [List.append_nil]
      exact explained_of_admits (List.cons_ne_nil _ _) (by simpa using admits)
    · rw [run_expect_of_ne same] at first
      cases first

/-- A part with one more token behind it. -/
theorem explains_followed (sound : reader.Sound phrase) (explains : Explains phrase [] reader)
    {last : Token.Kind} (proper : last ≠ .eof)
    (ends : forall ⦃tokens : List Token⦄ ⦃value : Result⦄, phrase tokens value ->
      Admits whole (before ++ tokens) last) (make : Result -> Token -> Next) :
    Explains whole before
      (reader >>= fun value => expect last >>= fun token => pure (make value token)) := by
  apply explains_bind sound (explains.within fun _ _ spelled => (ends spelled).extends)
  intro tokens value spelled
  apply explains_expect proper (ends spelled)
  intro token _isLast
  exact explains_pure (make value token)

/-- Behind an item there may be a comma, and a closing parenthesis if the whole has
one behind the items. -/
theorem explains_commaSeparated {item : Reader Result} (accounts : AccountsFor item phrase)
    (rounds : List Token)
    (closes : forall ⦃tokens : List Token⦄ ⦃values : List Result⦄,
      Separated phrase tokens values -> Admits whole (before ++ tokens) .closeParen) :
    Explains whole before (commaSeparated item rounds) := by
  induction rounds generalizing before with
  | nil => exact explains_pure []
  | cons round rounds inductionHypothesis =>
      have fits : FitsBehind phrase whole before :=
        fun tokens value spelled => (closes (.last spelled)).extends
      apply explains_bind accounts.sound (accounts.explains.within fits)
      intro tokens value spelled start closed error stop run
      rw [run_kind_bind] at run
      split at run
      next comma =>
        refine explainsAt_advance closed (by rw [comma]; decide) ?_ run
        refine (inductionHypothesis ?_).map _
        intro others values spelledOthers
        simpa using closes (.more spelled comma spelledOthers)
      next => cases run
      next =>
        refine explains_fail (List.cons_ne_nil _ _) ?_ closed run
        have goesOn : Admits whole (before ++ tokens) .comma := by
          rcases accounts.possible with ⟨other, otherValue, spelledOther⟩
          intro separator comma _coherent
          apply Extends.of_append other
          simpa using (closes (.more spelled comma (.last spelledOther))).extends
        intro kind listed
        simp only [List.mem_cons, List.not_mem_nil, or_false] at listed
        rcases listed with rfl | rfl
        · exact goesOn
        · exact closes (.last spelled)

theorem admits_closeParen_of_listed {opening : Token} {tokens : List Token}
    {values : List Result} (opens : opening.kind = .openParen)
    (spelled : Listed phrase tokens values) :
    Admits (Parenthesised phrase) (opening :: tokens) .closeParen := by
  intro close closes _coherent
  exact .of_spelled [] (.mk opens spelled closes) (by simp)

theorem explains_parenthesised {item : Reader Result} (accounts : AccountsFor item phrase) :
    Explains (Parenthesised phrase) [] (parenthesised item) := by
  apply explains_expect (by decide)
  · intro opening opens _coherent
    exact (admits_closeParen_of_listed opens .none).extends
  intro opening opens
  apply explains_bind (sound_items accounts.sound)
  · apply explains_kind
    intro kind
    split
    next => exact explains_pure []
    next =>
      intro start closed error stop run
      rw [run_tokens_bind] at run
      refine explains_commaSeparated accounts start.tokens ?_ closed run
      intro tokens values spelled
      exact admits_closeParen_of_listed opens (.some spelled)
  · intro tokens values spelled
    apply explains_expect (by decide) (admits_closeParen_of_listed opens spelled)
    intro close _closes
    exact explains_pure (values, close.span)

/-- Each round begins behind the items that were read before. -/
theorem explains_untilKind {item : Reader Result} (last : Token.Kind) (sound : item.Sound phrase)
    (rounds : List Token)
    (explains : forall ⦃tokens : List Token⦄ ⦃values : List Result⦄,
      Repeated phrase tokens values -> Explains whole (before ++ tokens) item) :
    Explains whole before (untilKind last item rounds) := by
  induction rounds generalizing before with
  | nil => exact explains_pure []
  | cons round rounds inductionHypothesis =>
      apply explains_kind
      intro kind
      split
      next => exact explains_pure []
      next =>
        have first := explains .none
        rw [List.append_nil] at first
        apply explains_bind sound first
        intro tokens value spelled
        refine (inductionHypothesis ?_).map _
        intro others values spelledOthers
        rw [List.append_assoc]
        exact explains (.more spelled spelledOthers)

end Explains
end Reader
end Reading
end ToyFrontend
