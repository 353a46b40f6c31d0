import ToyFrontend.Reading.Reader

namespace ToyFrontend

/-- The tokens before the first end marker. -/
def Token.beforeEnd (tokens : List Token) : List Token :=
  tokens.takeWhile fun token => token.kind != .eof

theorem Token.beforeEnd_append {lexemes : List Token} {marker : Token}
    (proper : forall token, token ∈ lexemes -> token.kind ≠ .eof) (ends : marker.kind = .eof) :
    Token.beforeEnd (lexemes ++ [marker]) = lexemes := by
  have goesOn : forall token, token ∈ lexemes -> (token.kind != .eof) = true :=
    fun token member => bne_iff_ne.mpr (proper token member)
  rw [Token.beforeEnd, List.takeWhile_append_of_pos goesOn,
    List.takeWhile_cons_of_neg (by simp [ends]), List.append_nil]

namespace Reading

/-!
# The passage of a cursor

What a run of a reader does to its cursor is told by the tokens that it passes.
`Cursor.Passes` relates two cursors by these tokens, and no end marker is ever
among them.  The relation is exact: a cursor and the tokens passed from it fix
the cursor that is reached, so a list of passed tokens can be taken apart again
wherever the phrase that it spells is taken apart.

The readers of this library are total on every cursor, but only a cursor with an
end marker ahead is reached from a list of tokens.  `Cursor.Closed` says so, and
it is the one premise about cursors that later results need.
-/

namespace Cursor

/-- An end marker stands at the cursor or behind it. -/
def Closed (cursor : Cursor) : Prop :=
  Exists fun marker => marker ∈ cursor.tokens ∧ marker.kind = .eof

/-- The way from one cursor to another over tokens that are no end markers. -/
structure Passes (start : Cursor) (passed : List Token) (stop : Cursor) : Prop where
  tokens_eq : start.tokens = passed ++ stop.tokens
  proper : forall token, token ∈ passed -> token.kind ≠ .eof

theorem tokens_injective {first second : Cursor} (same : first.tokens = second.tokens) :
    first = second := by
  cases first
  cases second
  simp only [tokens, List.cons.injEq] at same
  rw [same.1, same.2]

theorem tokens_length_pos (cursor : Cursor) : 0 < cursor.tokens.length := by
  simp [tokens]

theorem advance_cons {current next : Token} {rest : List Token}
    (notMarker : current.kind ≠ .eof) :
    advance { current := current, following := next :: rest } =
      { current := next, following := rest } :=
  if_neg notMarker

namespace Passes

theorem refl (cursor : Cursor) : cursor.Passes [] cursor :=
  ⟨rfl, by simp⟩

theorem trans {start middle stop : Cursor} {before behind : List Token}
    (first : start.Passes before middle) (second : middle.Passes behind stop) :
    start.Passes (before ++ behind) stop := by
  constructor
  · rw [first.tokens_eq, second.tokens_eq, List.append_assoc]
  · intro token member
    rcases List.mem_append.mp member with early | late
    · exact first.proper token early
    · exact second.proper token late

theorem length_le {start stop : Cursor} {passed : List Token}
    (passes : start.Passes passed stop) : stop.tokens.length ≤ start.tokens.length := by
  rw [passes.tokens_eq, List.length_append]
  omega

theorem length_lt {start stop : Cursor} {passed : List Token}
    (passes : start.Passes passed stop) (nonempty : passed ≠ []) :
    stop.tokens.length < start.tokens.length := by
  have positive := List.length_pos_iff.mpr nonempty
  rw [passes.tokens_eq, List.length_append]
  omega

/-- No end marker is passed, so one is still ahead. -/
theorem closed {start stop : Cursor} {passed : List Token}
    (passes : start.Passes passed stop) (closed : start.Closed) : stop.Closed := by
  rcases closed with ⟨marker, member, isMarker⟩
  rw [passes.tokens_eq] at member
  rcases List.mem_append.mp member with early | ahead
  · exact False.elim (passes.proper marker early isMarker)
  · exact ⟨marker, ahead, isMarker⟩

theorem eq_of_nil {start stop : Cursor} (passes : start.Passes [] stop) : start = stop :=
  tokens_injective passes.tokens_eq

/-- The first token that is passed is the current one, and the next step is `advance`. -/
theorem head {start stop : Cursor} {token : Token} {rest : List Token}
    (passes : start.Passes (token :: rest) stop) :
    start.current = token ∧ start.advance.Passes rest stop := by
  rcases start with ⟨current, following⟩
  have shape := passes.tokens_eq
  simp only [tokens, List.cons_append, List.cons.injEq] at shape
  rcases shape with ⟨rfl, rfl⟩
  have notMarker : current.kind ≠ .eof := passes.proper current (by simp)
  refine ⟨rfl, ?_, fun token member => passes.proper token (List.mem_cons_of_mem _ member)⟩
  cases rest with
  | nil => exact congrArg Cursor.tokens (advance_cons notMarker)
  | cons next rest => exact congrArg Cursor.tokens (advance_cons notMarker)

/-- A way over two stretches of tokens has a place between them. -/
theorem split {start stop : Cursor} {before behind : List Token}
    (passes : start.Passes (before ++ behind) stop) :
    Exists fun middle => start.Passes before middle ∧ middle.Passes behind stop := by
  induction before generalizing start with
  | nil => exact ⟨start, refl start, passes⟩
  | cons token before inductionHypothesis =>
      rcases passes.head with ⟨current, later⟩
      rcases inductionHypothesis later with ⟨middle, first, second⟩
      refine ⟨middle, ⟨?_, ?_⟩, second⟩
      · rw [passes.tokens_eq, List.append_assoc, second.tokens_eq]
      · intro other member
        exact passes.proper other (List.mem_append_left _ member)

theorem uncons {start stop : Cursor} {token : Token} {rest : List Token}
    (passes : start.Passes (token :: rest) stop) :
    Exists fun middle => start.Passes [token] middle ∧ middle.Passes rest stop :=
  split (List.singleton_append ▸ passes)

theorem kind_head {start stop : Cursor} {token : Token} {rest : List Token}
    (passes : start.Passes (token :: rest) stop) : start.kind = token.kind := by
  rw [kind, passes.head.1]

theorem nextKind_head {start stop : Cursor} {token : Token} {rest : List Token}
    (passes : start.Passes (token :: rest) stop) :
    start.nextKind = start.advance.kind := by
  rcases start with ⟨current, following⟩
  have shape := passes.tokens_eq
  simp only [tokens, List.cons_append, List.cons.injEq] at shape
  have notMarker : current.kind ≠ .eof := by
    rw [shape.1]
    exact passes.proper token (by simp)
  cases following with
  | nil => exact absurd shape.2.symm (by simp)
  | cons next rest => rw [advance_cons notMarker, nextKind, kind]

end Passes

/-- A cursor that is not at an end marker passes its token. -/
theorem Closed.passes_advance {cursor : Cursor} (closed : cursor.Closed)
    (notMarker : cursor.kind ≠ .eof) : cursor.Passes [cursor.current] cursor.advance := by
  rcases cursor with ⟨current, following⟩
  rcases closed with ⟨marker, member, isMarker⟩
  cases following with
  | nil =>
      simp only [tokens, List.mem_singleton] at member
      subst marker
      exact False.elim (notMarker isMarker)
  | cons next rest =>
      constructor
      · rw [advance_cons notMarker]
        rfl
      · intro token only
        rw [List.mem_singleton.mp only]
        exact notMarker

/-- What is passed on the way to an end marker are all tokens before the first one. -/
theorem Passes.eq_beforeEnd {start stop : Cursor} {passed : List Token}
    (passes : start.Passes passed stop) (ends : stop.kind = .eof) :
    passed = Token.beforeEnd start.tokens := by
  have proper : forall token, token ∈ passed -> (token.kind != .eof) = true :=
    fun token member => bne_iff_ne.mpr (passes.proper token member)
  rw [passes.tokens_eq, Token.beforeEnd, List.takeWhile_append_of_pos proper, tokens,
    List.takeWhile_cons_of_neg (by rw [show stop.current.kind = .eof from ends]; decide),
    List.append_nil]

/-- The way to the first end marker. -/
theorem Closed.passes_beforeEnd {start : Cursor} (closed : start.Closed) :
    Exists fun stop => start.Passes (Token.beforeEnd start.tokens) stop ∧ stop.kind = .eof := by
  rcases start with ⟨current, following⟩
  induction following generalizing current with
  | nil =>
      rcases closed with ⟨marker, member, isMarker⟩
      cases List.mem_singleton.mp member
      have nothing : Token.beforeEnd [current] = [] :=
        List.takeWhile_cons_of_neg (by rw [isMarker]; decide)
      refine ⟨⟨current, []⟩, ?_, isMarker⟩
      rw [tokens, nothing]
      exact .refl _
  | cons next rest inductionHypothesis =>
      by_cases isMarker : current.kind = .eof
      · have nothing : Token.beforeEnd (current :: next :: rest) = [] :=
          List.takeWhile_cons_of_neg (by rw [isMarker]; decide)
        refine ⟨⟨current, next :: rest⟩, ?_, isMarker⟩
        rw [tokens, nothing]
        exact .refl _
      · have passesFirst := closed.passes_advance isMarker
        rw [advance_cons isMarker] at passesFirst
        rcases inductionHypothesis next (passesFirst.closed closed) with ⟨stop, passes, ends⟩
        refine ⟨stop, ?_, ends⟩
        have more : Token.beforeEnd (current :: next :: rest) =
            current :: Token.beforeEnd (next :: rest) :=
          List.takeWhile_cons_of_pos (bne_iff_ne.mpr isMarker)
        rw [tokens, more]
        exact passesFirst.trans passes

theorem getLast?_withEndMarker (list : List Token) :
    (withEndMarker list).getLast?.map Token.kind = some .eof := by
  unfold withEndMarker
  split
  next isLast => exact isLast
  next => simp [Token.endMarker]

theorem tokens_ofTokens (list : List Token) : (ofTokens list).tokens = withEndMarker list := by
  unfold ofTokens
  split
  next first rest shape => exact shape.symm
  next shape =>
    unfold withEndMarker at shape
    split at shape
    next isLast =>
      rw [shape] at isLast
      cases isLast
    next => exact absurd shape (by simp)

theorem withEndMarker_concat (lexemes : List Token) {marker : Token} (ends : marker.kind = .eof) :
    withEndMarker (lexemes ++ [marker]) = lexemes ++ [marker] :=
  if_pos (by rw [List.getLast?_concat, Option.map_some, ends])

/-- The tokens of a list are passed from its first one on. -/
theorem passes_ofTokens {list before behind : List Token} {token : Token}
    (shape : withEndMarker list = before ++ token :: behind)
    (proper : forall token, token ∈ before -> token.kind ≠ .eof) :
    (ofTokens list).Passes before { current := token, following := behind } :=
  ⟨(tokens_ofTokens list).trans shape, proper⟩

theorem getLast?_append_tokens (passed : List Token) (cursor : Cursor) :
    (passed ++ cursor.tokens).getLast? = cursor.tokens.getLast? := by
  have isLast := List.getLast?_eq_some_getLast (List.cons_ne_nil cursor.current cursor.following)
  rw [List.getLast?_append, tokens, isLast, Option.some_or]

/-- The last token is ahead at every place. -/
theorem closed_of_place {list passed : List Token} {cursor : Cursor}
    (place : withEndMarker list = passed ++ cursor.tokens) : cursor.Closed := by
  have marked := getLast?_withEndMarker list
  rw [place, getLast?_append_tokens] at marked
  rcases Option.map_eq_some_iff.mp marked with ⟨marker, last, isMarker⟩
  exact ⟨marker, List.mem_of_getLast? last, isMarker⟩

/-- Every list of tokens gives a cursor with an end marker ahead. -/
theorem closed_ofTokens (list : List Token) : (ofTokens list).Closed :=
  @closed_of_place list [] _ (tokens_ofTokens list).symm

/-- An end marker that is put behind the tokens does not change what is before it. -/
theorem beforeEnd_ofTokens (list : List Token) :
    Token.beforeEnd (ofTokens list).tokens = Token.beforeEnd list := by
  rw [tokens_ofTokens, withEndMarker]
  split
  next => rfl
  next =>
    unfold Token.beforeEnd
    rw [List.takeWhile_append]
    split
    next whole =>
      have same := (List.takeWhile_prefix _).eq_of_length whole
      rw [List.takeWhile_cons_of_neg (by rintro ⟨⟩), List.append_nil, same]
    next => rfl

end Cursor

end Reading
end ToyFrontend
