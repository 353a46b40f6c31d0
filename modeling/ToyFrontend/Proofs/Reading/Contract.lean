import ToyFrontend.Proofs.Phrase
import ToyFrontend.Proofs.Reading.Passage

namespace ToyFrontend
namespace Reading

/-!
# Contracts of readers

A reader and a phrase agree in two directions.  `Reader.Sound` says that whatever
a run passes on its way to a result spells that result.  `Reader.Complete` says
that tokens which spell a result are read as that result, and no further, if the
token behind them cannot go on with the phrase; what it means to go on is a
condition on the kind of that one token, since no reader looks further ahead.

Both are closed under the ways in which readers are put together, so that each
reader is treated once, for all readers of its parts.  The loops of this module
count rounds.  A round passes a token, so a loop that is given as many rounds as
there are tokens ahead never runs out of them.
-/

namespace Reader

variable {Result Next : Type}

/-! ## Runs of the smallest readers -/

@[simp] theorem run_kind_bind (continuation : Token.Kind -> Reader Next) (cursor : Cursor) :
    (kind >>= continuation).run cursor = (continuation cursor.kind).run cursor :=
  rfl

@[simp] theorem run_current_bind (continuation : Token -> Reader Next) (cursor : Cursor) :
    (current >>= continuation).run cursor = (continuation cursor.current).run cursor :=
  rfl

@[simp] theorem run_nextKind_bind (continuation : Token.Kind -> Reader Next) (cursor : Cursor) :
    (nextKind >>= continuation).run cursor = (continuation cursor.nextKind).run cursor :=
  rfl

@[simp] theorem run_tokens_bind (continuation : List Token -> Reader Next) (cursor : Cursor) :
    (tokens >>= continuation).run cursor = (continuation cursor.tokens).run cursor :=
  rfl

@[simp] theorem run_advance_bind (continuation : Token -> Reader Next) (cursor : Cursor) :
    (advance >>= continuation).run cursor = (continuation cursor.current).run cursor.advance :=
  rfl

/-- A sequence succeeds exactly through a success of its first part. -/
theorem run_bind_eq_ok_iff {reader : Reader Result} {continuation : Result -> Reader Next}
    {start stop : Cursor} {value : Next} :
    (reader >>= continuation).run start = .ok value stop ↔
      Exists fun result => Exists fun middle =>
        reader.run start = .ok result middle ∧
          (continuation result).run middle = .ok value stop := by
  rw [EStateM.run_bind]
  constructor
  · intro run
    cases first : reader.run start with
    | ok result middle =>
        rw [first] at run
        exact ⟨result, middle, rfl, run⟩
    | error error middle =>
        rw [first] at run
        cases run
  · rintro ⟨result, middle, first, second⟩
    rw [first]
    exact second

/-- A sequence fails in its first part or, after a success of that, in its second. -/
theorem run_bind_eq_error_iff {reader : Reader Result} {continuation : Result -> Reader Next}
    {start stop : Cursor} {error : SyntaxError} :
    (reader >>= continuation).run start = .error error stop ↔
      reader.run start = .error error stop ∨
        Exists fun result => Exists fun middle =>
          reader.run start = .ok result middle ∧
            (continuation result).run middle = .error error stop := by
  rw [EStateM.run_bind]
  constructor
  · intro run
    cases first : reader.run start with
    | ok result middle =>
        rw [first] at run
        exact .inr ⟨result, middle, rfl, run⟩
    | error failure middle =>
        rw [first] at run
        cases run
        exact .inl rfl
  · rintro (first | ⟨result, middle, first, second⟩)
    · rw [first]
    · rw [first]
      exact second

theorem run_bind_of_ok {reader : Reader Result} {start middle : Cursor} {result : Result}
    (first : reader.run start = .ok result middle) (continuation : Result -> Reader Next) :
    (reader >>= continuation).run start = (continuation result).run middle := by
  rw [EStateM.run_bind, first]

theorem run_bind_of_eq {first second : Reader Result} {start : Cursor}
    (same : first.run start = second.run start) (continuation : Result -> Reader Next) :
    (first >>= continuation).run start = (second >>= continuation).run start := by
  rw [EStateM.run_bind, EStateM.run_bind, same]

theorem run_bind_congr {reader : Reader Result} {continuation other : Result -> Reader Next}
    {start : Cursor}
    (same : forall result middle, reader.run start = .ok result middle ->
      (continuation result).run middle = (other result).run middle) :
    (reader >>= continuation).run start = (reader >>= other).run start := by
  rw [EStateM.run_bind, EStateM.run_bind]
  cases first : reader.run start with
  | ok result middle => exact same result middle first
  | error error middle => rfl

theorem run_expect_of_eq {cursor : Cursor} {expected : Token.Kind}
    (same : cursor.kind = expected) :
    (expect expected).run cursor = .ok cursor.current cursor.advance := by
  rw [expect, run_kind_bind, if_pos same]
  rfl

theorem run_expect_of_ne {cursor : Cursor} {expected : Token.Kind}
    (different : cursor.kind ≠ expected) :
    (expect expected).run cursor =
      .error (SyntaxError.blame .unexpectedToken [expected] cursor.current) cursor := by
  rw [expect, run_kind_bind, if_neg different]
  rfl

/-- An expected token is passed and handed over. -/
theorem passes_of_expect {start stop : Cursor} {expected : Token.Kind} {token : Token}
    (closed : start.Closed) (proper : expected ≠ .eof)
    (run : (expect expected).run start = .ok token stop) :
    start.Passes [token] stop ∧ token.kind = expected := by
  by_cases same : start.kind = expected
  · rw [run_expect_of_eq same] at run
    cases run
    exact ⟨closed.passes_advance (same ▸ proper), same⟩
  · rw [run_expect_of_ne same] at run
    cases run

theorem run_expect_of_passes {start stop : Cursor} {expected : Token.Kind} {token : Token}
    (passes : start.Passes [token] stop) (same : token.kind = expected) :
    (expect expected).run start = .ok token stop := by
  rw [run_expect_of_eq (passes.kind_head.trans same), passes.head.1, passes.head.2.eq_of_nil]

/-! ## Soundness -/

/-- What a run passes on its way to a result spells this result. -/
def Sound (reader : Reader Result) (phrase : List Token -> Result -> Prop) : Prop :=
  forall ⦃start stop : Cursor⦄ ⦃result : Result⦄, start.Closed ->
    reader.run start = .ok result stop ->
    Exists fun passed => start.Passes passed stop ∧ phrase passed result

/-- After a success the current token is of such a kind. -/
def Settles (reader : Reader Result) (follow : Token.Kind -> Prop) : Prop :=
  forall ⦃start stop : Cursor⦄ ⦃result : Result⦄, start.Closed ->
    reader.run start = .ok result stop -> follow stop.kind

theorem sound_refuse (phrase : List Token -> Result -> Prop) : refuse.Sound phrase := by
  intro start stop result _closed run
  cases run

/-- A phrase with one more token behind it. -/
theorem followed_ok {reader : Reader Result} {phrase : List Token -> Result -> Prop}
    (sound : reader.Sound phrase) {last : Token.Kind} (proper : last ≠ .eof)
    {make : Result -> Token -> Next} {start stop : Cursor} {value : Next} (closed : start.Closed)
    (run : (reader >>= fun result => expect last >>= fun token => pure (make result token)).run
      start = .ok value stop) :
    Exists fun passed => Exists fun result => Exists fun token =>
      start.Passes (passed ++ [token]) stop ∧ phrase passed result ∧ token.kind = last ∧
        value = make result token := by
  rcases run_bind_eq_ok_iff.mp run with ⟨result, middle, firstRun, run⟩
  rcases run_bind_eq_ok_iff.mp run with ⟨token, final, lastRun, run⟩
  cases run
  rcases sound closed firstRun with ⟨passed, passes, spelled⟩
  rcases passes_of_expect (passes.closed closed) proper lastRun with ⟨passesLast, isLast⟩
  exact ⟨passed, result, token, passes.trans passesLast, spelled, isLast, rfl⟩

/-- Each round but the last passes a comma, so the rounds do not run out. -/
theorem separated_of_commaSeparated {item : Reader Result}
    {phrase : List Token -> Result -> Prop} (sound : item.Sound phrase) (rounds : List Token)
    {start stop : Cursor} {values : List Result} (closed : start.Closed)
    (adequate : start.tokens.length ≤ rounds.length)
    (run : (commaSeparated item rounds).run start = .ok values stop) :
    Exists fun passed => start.Passes passed stop ∧ Phrase.Separated phrase passed values := by
  induction rounds generalizing start values with
  | nil => exact absurd adequate (Nat.not_le.mpr start.tokens_length_pos)
  | cons round rounds inductionHypothesis =>
      rw [commaSeparated] at run
      rcases run_bind_eq_ok_iff.mp run with ⟨value, middle, itemRun, run⟩
      rcases sound closed itemRun with ⟨passed, passes, spelled⟩
      have closedMiddle := passes.closed closed
      rw [run_kind_bind] at run
      split at run
      next comma =>
        rw [run_advance_bind] at run
        rcases run_bind_eq_ok_iff.mp run with ⟨others, last, othersRun, run⟩
        cases run
        have separates := closedMiddle.passes_advance (by rw [comma]; decide)
        have shorter := separates.length_lt (List.cons_ne_nil _ _)
        have bound := passes.length_le
        rw [List.length_cons] at adequate
        rcases inductionHypothesis (separates.closed closedMiddle) (by omega) othersRun with
          ⟨behind, passesBehind, spelledOthers⟩
        exact ⟨_, passes.trans (separates.trans passesBehind),
          .more spelled comma spelledOthers⟩
      next =>
        cases run
        exact ⟨passed, passes, .last spelled⟩
      next => cases run

theorem sound_items {item : Reader Result} {phrase : List Token -> Result -> Prop}
    (sound : item.Sound phrase) : (items item).Sound (Phrase.Listed phrase) := by
  intro start stop values closed run
  rw [items, run_kind_bind] at run
  split at run
  next =>
    cases run
    exact ⟨[], .refl start, .none⟩
  next =>
    rw [run_tokens_bind] at run
    rcases separated_of_commaSeparated sound start.tokens closed (Nat.le_refl _) run with
      ⟨passed, passes, spelled⟩
    exact ⟨passed, passes, .some spelled⟩

theorem sound_parenthesised {item : Reader Result} {phrase : List Token -> Result -> Prop}
    (sound : item.Sound phrase) :
    (parenthesised item).Sound (Phrase.Parenthesised phrase) := by
  intro start stop values closed run
  rw [parenthesised] at run
  rcases run_bind_eq_ok_iff.mp run with ⟨opening, first, opensRun, run⟩
  rcases passes_of_expect closed (by decide) opensRun with ⟨passesOpening, opens⟩
  rcases followed_ok (sound_items sound) (by decide) (passesOpening.closed closed) run with
    ⟨passed, read, close, passes, spelled, closes, rfl⟩
  exact ⟨_, passesOpening.trans passes, .mk opens spelled closes⟩

theorem sound_untilKind {item : Reader Result} {phrase : List Token -> Result -> Prop}
    (last : Token.Kind) (sound : item.Sound phrase) (rounds : List Token) :
    (untilKind last item rounds).Sound (Phrase.Repeated phrase) := by
  induction rounds with
  | nil =>
      intro start stop values closed run
      cases run
      exact ⟨[], .refl start, .none⟩
  | cons round rounds inductionHypothesis =>
      intro start stop values closed run
      rw [untilKind, run_kind_bind] at run
      split at run
      next =>
        cases run
        exact ⟨[], .refl start, .none⟩
      next =>
        rcases run_bind_eq_ok_iff.mp run with ⟨value, middle, itemRun, run⟩
        rcases run_bind_eq_ok_iff.mp run with ⟨others, final, othersRun, run⟩
        cases run
        rcases sound closed itemRun with ⟨passed, passes, spelled⟩
        rcases inductionHypothesis (passes.closed closed) othersRun with
          ⟨behind, passesBehind, spelledOthers⟩
        exact ⟨_, passes.trans passesBehind, .more spelled spelledOthers⟩

/-! ## Completeness -/

/-- Tokens that spell a result are read as this result if the kind of the token
behind them is one of those that may follow. -/
def Complete (reader : Reader Result) (phrase : List Token -> Result -> Prop)
    (follow : Token.Kind -> Prop) : Prop :=
  forall ⦃start stop : Cursor⦄ ⦃passed : List Token⦄ ⦃result : Result⦄,
    start.Passes passed stop -> phrase passed result -> follow stop.kind ->
    reader.run start = .ok result stop

theorem run_followed {reader : Reader Result} {phrase : List Token -> Result -> Prop}
    {follow : Token.Kind -> Prop} (complete : reader.Complete phrase follow) {last : Token.Kind}
    {make : Result -> Token -> Next} {start stop : Cursor} {tokens : List Token} {token : Token}
    {result : Result} (passes : start.Passes (tokens ++ [token]) stop)
    (spelled : phrase tokens result) (isLast : token.kind = last) (follows : follow last) :
    (reader >>= fun result => expect last >>= fun token => pure (make result token)).run start =
      .ok (make result token) stop := by
  rcases passes.split with ⟨middle, passesFirst, passesLast⟩
  have firstRun := complete passesFirst spelled
    (by rwa [passesLast.kind_head, isLast])
  rw [run_bind_of_ok firstRun, run_bind_of_ok (run_expect_of_passes passesLast isLast)]
  rfl

theorem run_commaSeparated {item : Reader Result} {phrase : List Token -> Result -> Prop}
    {follow : Token.Kind -> Prop} (complete : item.Complete phrase follow)
    (beforeComma : follow .comma) (beforeClose : follow .closeParen) {passed : List Token}
    {values : List Result} (spelled : Phrase.Separated phrase passed values)
    {start stop : Cursor} (passes : start.Passes passed stop) (closes : stop.kind = .closeParen)
    (rounds : List Token) (adequate : start.tokens.length ≤ rounds.length) :
    (commaSeparated item rounds).run start = .ok values stop := by
  induction spelled generalizing start rounds with
  | last spelled =>
      cases rounds with
      | nil => exact absurd adequate (Nat.not_le.mpr start.tokens_length_pos)
      | cons round rounds =>
          have itemRun := complete passes spelled (closes ▸ beforeClose)
          rw [commaSeparated, run_bind_of_ok itemRun, run_kind_bind, closes]
          rfl
  | @more tokens rest separator value values spelled comma others inductionHypothesis =>
      cases rounds with
      | nil => exact absurd adequate (Nat.not_le.mpr start.tokens_length_pos)
      | cons round rounds =>
          rcases passes.split with ⟨middle, passesItem, passesRest⟩
          have atComma : middle.kind = .comma := passesRest.kind_head.trans comma
          have itemRun := complete passesItem spelled (atComma ▸ beforeComma)
          have shorter : middle.advance.tokens.length < middle.tokens.length := by
            rw [passesRest.tokens_eq, passesRest.head.2.tokens_eq]
            simp
          have bound := passesItem.length_le
          rw [List.length_cons] at adequate
          have othersRun := inductionHypothesis passesRest.head.2 rounds (by omega)
          rw [commaSeparated, run_bind_of_ok itemRun, run_kind_bind, atComma]
          change (advance >>= fun _ => commaSeparated item rounds >>= _).run middle = _
          rw [run_advance_bind, run_bind_of_ok othersRun]
          rfl

theorem complete_items {item : Reader Result} {phrase : List Token -> Result -> Prop}
    {starts follow : Token.Kind -> Prop} (complete : item.Complete phrase follow)
    (begins : Phrase.Begins phrase starts) (beforeComma : follow .comma)
    (beforeClose : follow .closeParen) (neverClose : ¬ starts .closeParen) :
    (items item).Complete (Phrase.Listed phrase) (· = .closeParen) := by
  intro start stop passed values passes spelled closes
  rw [items, run_kind_bind]
  cases spelled with
  | none =>
      cases passes.eq_of_nil
      rw [if_pos closes]
      rfl
  | some spelled =>
      rcases begins.separated spelled with ⟨first, rest, rfl, startsFirst⟩
      have notClose : start.kind ≠ .closeParen := by
        rw [passes.kind_head]
        intro same
        exact neverClose (same ▸ startsFirst)
      rw [if_neg notClose, run_tokens_bind]
      exact run_commaSeparated complete beforeComma beforeClose spelled passes closes _
        (Nat.le_refl _)

theorem complete_parenthesised {item : Reader Result} {phrase : List Token -> Result -> Prop}
    {starts follow : Token.Kind -> Prop} (complete : item.Complete phrase follow)
    (begins : Phrase.Begins phrase starts) (beforeComma : follow .comma)
    (beforeClose : follow .closeParen) (neverClose : ¬ starts .closeParen) :
    (parenthesised item).Complete (Phrase.Parenthesised phrase) (fun _ => True) := by
  rintro start stop passed _ passes ⟨opens, spelled, closes⟩ -
  rcases passes.uncons with ⟨first, passesOpening, passes⟩
  have completeItems := complete_items complete begins beforeComma beforeClose neverClose
  rw [parenthesised, run_bind_of_ok (run_expect_of_passes passesOpening opens)]
  exact run_followed completeItems passes spelled closes rfl

theorem run_untilKind {item : Reader Result} {phrase : List Token -> Result -> Prop}
    {starts follow : Token.Kind -> Prop} {last : Token.Kind}
    (complete : item.Complete phrase follow) (begins : Phrase.Begins phrase starts)
    (goesOn : forall kind, starts kind -> follow kind) (atLast : follow last)
    (neverLast : ¬ starts last) {passed : List Token} {values : List Result}
    (spelled : Phrase.Repeated phrase passed values) {start stop : Cursor}
    (passes : start.Passes passed stop) (ends : stop.kind = last) (rounds : List Token)
    (adequate : start.tokens.length ≤ rounds.length) :
    (untilKind last item rounds).run start = .ok values stop := by
  induction spelled generalizing start rounds with
  | none =>
      cases passes.eq_of_nil
      cases rounds with
      | nil => rfl
      | cons round rounds =>
          rw [untilKind, run_kind_bind, if_pos ends]
          rfl
  | more spelled others inductionHypothesis =>
      cases rounds with
      | nil => exact absurd adequate (Nat.not_le.mpr start.tokens_length_pos)
      | cons round rounds =>
          rcases passes.split with ⟨middle, passesItem, passesOthers⟩
          have follows : follow middle.kind := by
            cases others with
            | none => rw [passesOthers.eq_of_nil, ends]; exact atLast
            | more next others =>
                rcases begins next with ⟨first, rest, rfl, startsFirst⟩
                rw [passesOthers.kind_head]
                exact goesOn _ startsFirst
          have itemRun := complete passesItem spelled follows
          rcases begins spelled with ⟨first, rest, rfl, startsFirst⟩
          have notLast : start.kind ≠ last := by
            rw [passesItem.kind_head]
            intro same
            exact neverLast (same ▸ startsFirst)
          have shorter := passesItem.length_lt (List.cons_ne_nil _ _)
          rw [List.length_cons] at adequate
          have othersRun := inductionHypothesis passesOthers rounds (by omega)
          rw [untilKind, run_kind_bind, if_neg notLast, run_bind_of_ok itemRun,
            run_bind_of_ok othersRun]
          rfl

end Reader

end Reading
end ToyFrontend
