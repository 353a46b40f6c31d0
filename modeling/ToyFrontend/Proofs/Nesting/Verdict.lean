import ToyFrontend.Proofs.Nesting.Entry

namespace ToyFrontend

/-!
# Within the bound or beyond it

A phrase that is spelled with any number of levels is read with a bounded number
of them.  Either no expression in it lies beyond the bound, and then it is a
phrase within the bound as well, or reading comes as far as the first token of
the leftmost expression that does, and fails there.  `Verdict` is this
alternative.  It is drawn once for each production from the verdicts on the
parts, since all that stands before the first part that fails is read in full.
-/

namespace SyntaxTree
namespace Entries

/-- No expression of the level begins at these tokens. -/
structure Quiet (level : Nat) (entries : Entries) (tokens : List Token) : Prop where
  aligned : entries.length = tokens.length
  unmet : some level ∉ entries

/-- The token is the first at which an expression of the level begins; `before` are the
tokens before it. -/
inductive Leftmost (level : Nat) : Entries -> List Token -> List Token -> Token -> Prop
  | mk {front back : Entries} {before behind : List Token} {token : Token}
      (quiet : Quiet level front before) :
      Leftmost level (front ++ some level :: back) (before ++ token :: behind) before token

variable {level : Nat}

theorem quiet_none (tokens : List Token) : Quiet level (tokens.map fun _ => none) tokens :=
  ⟨by simp, by simp⟩

theorem quiet_silent {words : List Word} {tokens : List Token}
    (spelled : tokens.map Token.word = words) : Quiet level (silent words) tokens :=
  ⟨by simp [silent, ← spelled], by simp [silent]⟩

theorem quiet_some {other : Nat} (different : other ≠ level) (token : Token) :
    Quiet level [some other] [token] :=
  ⟨rfl, by simpa using different.symm⟩

theorem Quiet.append {front back : Entries} {before behind : List Token}
    (first : Quiet level front before) (second : Quiet level back behind) :
    Quiet level (front ++ back) (before ++ behind) :=
  ⟨by simp [first.aligned, second.aligned], by simp [first.unmet, second.unmet]⟩

namespace Leftmost

variable {entries : Entries} {tokens before : List Token} {token : Token}

theorem ahead {front : Entries} {lead : List Token}
    (leftmost : Leftmost level entries tokens before token) (quiet : Quiet level front lead) :
    Leftmost level (front ++ entries) (lead ++ tokens) (lead ++ before) token := by
  cases leftmost with
  | mk later =>
      rw [← List.append_assoc, ← List.append_assoc]
      exact .mk (quiet.append later)

theorem behind (leftmost : Leftmost level entries tokens before token) (more : Entries)
    (rest : List Token) : Leftmost level (entries ++ more) (tokens ++ rest) before token := by
  cases leftmost with
  | mk quiet =>
      rw [List.append_assoc, List.append_assoc]
      exact .mk quiet

/-- On the way to the token, the first token is that of the whole. -/
theorem current {first : Token} {rest : List Token} {start stop : Reading.Cursor}
    (leftmost : Leftmost level entries (first :: rest) before token)
    (passes : start.Passes before stop) (here : stop.current = token) : start.current = first := by
  generalize shape : first :: rest = whole at leftmost
  cases leftmost with
  | mk quiet =>
      cases before with
      | nil =>
          cases passes.eq_of_nil
          exact here.trans (List.cons.inj shape).1.symm
      | cons next before => exact passes.head.1.trans (List.cons.inj shape).1.symm

/-- The way over all tokens leads to this one. -/
theorem exists_passes {start stop : Reading.Cursor}
    (leftmost : Leftmost level entries tokens before token) (passes : start.Passes tokens stop) :
    Exists fun middle => start.Passes before middle ∧ middle.current = token := by
  cases leftmost with
  | mk quiet =>
      rcases passes.split with ⟨middle, passesBefore, passesToken⟩
      exact ⟨middle, passesBefore, passesToken.head.1⟩

theorem idxOf?_eq (leftmost : Leftmost level entries tokens before token) :
    entries.idxOf? (some level) = some before.length ∧ tokens[before.length]? = some token := by
  cases leftmost with
  | @mk front back before behind token quiet =>
      have unmet : front.idxOf? (some level) = none := List.idxOf?_eq_none_iff.mpr quiet.unmet
      constructor
      · rw [List.idxOf?, List.findIdx?_append, ← List.idxOf?, unmet]
        simp [List.idxOf?_cons, quiet.aligned]
      · simp

end Leftmost

end Entries
end SyntaxTree

namespace Reading

open SyntaxTree (Entries)
open SyntaxTree.Entries

namespace Reader

variable {Result Next : Type}

/-- The reader comes to the token behind these and finds the nesting too deep there. -/
def Sinks (reader : Reader Result) (before : List Token) (token : Token) : Prop :=
  forall ⦃start stop : Cursor⦄, start.Passes before stop -> stop.current = token ->
    reader.run start = .error (SyntaxError.blame .nestingTooDeep [] token) stop

/-- The tokens are within the bound, or the reader sinks where they first go beyond it. -/
inductive Verdict (reader : Reader Result) (narrow : List Token -> Result -> Prop) (level : Nat)
    (entries : Entries) (tokens : List Token) (value : Result) : Prop
  | fits (spelled : narrow tokens value) (quiet : Quiet level entries tokens)
  | sinks {before : List Token} {token : Token}
      (leftmost : Leftmost level entries tokens before token) (sinks : reader.Sinks before token)

/-- There is a verdict on every phrase of a wider kind. -/
def Decides (reader : Reader Result) (narrow wide : List Token -> Result -> Prop)
    (entries : Result -> Entries) (level : Nat) : Prop :=
  forall ⦃tokens : List Token⦄ ⦃value : Result⦄, wide tokens value ->
    Verdict reader narrow level (entries value) tokens value

theorem run_bind_of_error {reader : Reader Result} {start stop : Cursor} {error : SyntaxError}
    (failed : reader.run start = .error error stop) (continuation : Result -> Reader Next) :
    (reader >>= continuation).run start = .error error stop :=
  run_bind_eq_error_iff.mpr (.inl failed)

theorem Sinks.bind {reader : Reader Result} {before : List Token} {token : Token}
    (sinks : reader.Sinks before token) (continuation : Result -> Reader Next) :
    (reader >>= continuation).Sinks before token :=
  fun _ _ passes here => run_bind_of_error (sinks passes here) continuation

/-- What is expected is passed on the way. -/
theorem Sinks.expect {expected : Token.Kind} {first : Token} (same : first.kind = expected)
    {continuation : Token -> Reader Next} {before : List Token} {token : Token}
    (sinks : (continuation first).Sinks before token) :
    (Reader.expect expected >>= continuation).Sinks (first :: before) token := by
  intro start stop passes here
  rcases passes.uncons with ⟨middle, passesFirst, passesRest⟩
  rw [run_bind_of_ok (run_expect_of_passes passesFirst same)]
  exact sinks passesRest here

theorem Sinks.advance {first : Token} {continuation : Token -> Reader Next}
    {before : List Token} {token : Token} (sinks : (continuation first).Sinks before token) :
    (Reader.advance >>= continuation).Sinks (first :: before) token := by
  intro start stop passes here
  rcases passes.head with ⟨rfl, later⟩
  rw [run_advance_bind]
  exact sinks later here

/-- A phrase that is read in full is passed on the way. -/
theorem Sinks.after {reader : Reader Result} {narrow : List Token -> Result -> Prop}
    (complete : reader.Complete narrow (fun _ => True)) {lead : List Token} {value : Result}
    (spelled : narrow lead value) {continuation : Result -> Reader Next} {before : List Token}
    {token : Token} (sinks : (continuation value).Sinks before token) :
    (reader >>= continuation).Sinks (lead ++ before) token := by
  intro start stop passes here
  rcases passes.split with ⟨middle, passesLead, passesRest⟩
  rw [run_bind_of_ok (complete passesLead spelled trivial)]
  exact sinks passesRest here

section Verdict

variable {Whole : Type} {part : Reader Result} {narrowPart : List Token -> Result -> Prop}
  {reader : Reader Whole} {narrow : List Token -> Whole -> Prop} {level : Nat}
  {front entries back : Entries} {lead tokens rest : List Token} {value : Result} {whole : Whole}

/-- A reader that goes on as another one at the first token has its verdict. -/
theorem Verdict.of_first {other : Reader Result} {wider : List Token -> Result -> Prop}
    {first : Token} (verdict : part.Verdict narrowPart level entries (first :: rest) value)
    (weaken : narrowPart (first :: rest) value -> wider (first :: rest) value)
    (runs : forall {start : Cursor}, start.current = first -> other.run start = part.run start) :
    other.Verdict wider level entries (first :: rest) value := by
  cases verdict with
  | fits spelled quiet => exact .fits (weaken spelled) quiet
  | sinks leftmost sinks =>
      refine .sinks leftmost ?_
      intro start stop passes here
      rw [runs (leftmost.current passes here)]
      exact sinks passes here

/-- The verdict on a part and tokens before it is that on the part. -/
theorem Verdict.ahead (verdict : part.Verdict narrowPart level entries tokens value)
    (quiet : Quiet level front lead)
    (spell : narrowPart tokens value -> narrow (lead ++ tokens) whole)
    (sink : forall {before token}, Leftmost level entries tokens before token ->
      part.Sinks before token -> reader.Sinks (lead ++ before) token) :
    reader.Verdict narrow level (front ++ entries) (lead ++ tokens) whole := by
  cases verdict with
  | fits spelled quietPart => exact .fits (spell spelled) (quiet.append quietPart)
  | sinks leftmost sinks => exact .sinks (leftmost.ahead quiet) (sink leftmost sinks)

/-- The verdict on a part and tokens around it is that on the part. -/
theorem Verdict.within (verdict : part.Verdict narrowPart level entries tokens value)
    (quietLead : Quiet level front lead) (quietRest : Quiet level back rest)
    (spell : narrowPart tokens value -> narrow (lead ++ (tokens ++ rest)) whole)
    (sink : forall {before token}, Leftmost level entries tokens before token ->
      part.Sinks before token -> reader.Sinks (lead ++ before) token) :
    reader.Verdict narrow level (front ++ (entries ++ back)) (lead ++ (tokens ++ rest)) whole := by
  cases verdict with
  | fits spelled quiet => exact .fits (spell spelled) (quietLead.append (quiet.append quietRest))
  | sinks leftmost sinks =>
      exact .sinks ((leftmost.behind back rest).ahead quietLead) (sink leftmost sinks)

end Verdict

/-- A token is always ahead, so there is a round for it. -/
theorem exists_round {start : Cursor} {rounds : List Token}
    (adequate : start.tokens.length <= rounds.length) :
    Exists fun round => Exists fun fewer => rounds = round :: fewer := by
  cases rounds with
  | nil => exact absurd adequate (Nat.not_le.mpr start.tokens_length_pos)
  | cons round fewer => exact ⟨round, fewer, rfl⟩

section Lists

variable {item : Reader Result} {narrow wide : List Token -> Result -> Prop}
  {entries : Result -> Entries} {level : Nat} {starts follow : Token.Kind -> Prop}

/-- The loop over items between commas, with rounds enough for all of them. -/
theorem verdict_separated (decides : item.Decides narrow wide entries level)
    (complete : item.Complete narrow follow) (beforeComma : follow .comma) {tokens : List Token}
    {values : List Result} (spelled : Phrase.Separated wide tokens values) :
    (Phrase.Separated narrow tokens values ∧
      Quiet level (Entries.separated (values.map entries)) tokens) ∨
    Exists fun before => Exists fun token =>
      Leftmost level (Entries.separated (values.map entries)) tokens before token ∧
        forall ⦃start stop : Cursor⦄ ⦃rounds : List Token⦄, start.Passes before stop ->
          stop.current = token -> start.tokens.length <= rounds.length ->
          (commaSeparated item rounds).run start =
            .error (SyntaxError.blame .nestingTooDeep [] token) stop := by
  induction spelled with
  | last spelled =>
      rw [List.map_singleton, Entries.separated, List.intercalate_singleton]
      cases decides spelled with
      | fits spelled quiet => exact .inl ⟨.last spelled, quiet⟩
      | sinks leftmost sinks =>
          refine .inr ⟨_, _, leftmost, ?_⟩
          intro start stop rounds passes here adequate
          rcases exists_round adequate with ⟨round, fewer, rfl⟩
          exact sinks.bind _ passes here
  | @more tokens rest separator value values spelled comma others inductionHypothesis =>
      have nonempty : values.map entries ≠ [] := by
        cases others <;> exact List.cons_ne_nil _ _
      rw [List.map_cons, Entries.separated_cons nonempty]
      cases decides spelled with
      | sinks leftmost sinks =>
          refine .inr ⟨_, _, leftmost.behind _ _, ?_⟩
          intro start stop rounds passes here adequate
          rcases exists_round adequate with ⟨round, fewer, rfl⟩
          exact sinks.bind _ passes here
      | fits spelled quiet =>
          rcases inductionHypothesis with ⟨spelledOthers, quietOthers⟩ | ⟨_, _, leftmost, run⟩
          · exact .inl ⟨.more spelled comma spelledOthers,
              quiet.append ((quiet_none [separator]).append quietOthers)⟩
          refine .inr ⟨_, _, (leftmost.ahead (quiet_none [separator])).ahead quiet, ?_⟩
          intro start stop rounds passes here adequate
          rcases exists_round adequate with ⟨round, fewer, rfl⟩
          rcases passes.split with ⟨middle, passesItem, passesRest⟩
          rcases passesRest.uncons with ⟨next, passesComma, passesOthers⟩
          have atComma : middle.kind = .comma := passesComma.kind_head.trans comma
          have itemRun := complete passesItem spelled (atComma ▸ beforeComma)
          have shorter := passesComma.length_lt (List.cons_ne_nil _ _)
          have bound := passesItem.length_le
          rw [List.length_cons] at adequate
          rw [commaSeparated, run_bind_of_ok itemRun, run_kind_bind, atComma]
          change (advance >>= fun _ => commaSeparated item fewer >>= _).run middle = _
          rw [run_advance_bind, passesComma.head.2.eq_of_nil]
          exact run_bind_of_error (run passesOthers here (by omega)) _

theorem decides_items (decides : item.Decides narrow wide entries level)
    (complete : item.Complete narrow follow) (begins : Phrase.Begins wide starts)
    (beforeComma : follow .comma) (neverClose : ¬ starts .closeParen) :
    (items item).Decides (Phrase.Listed narrow) (Phrase.Listed wide)
      (fun values => Entries.separated (values.map entries)) level := by
  intro tokens values spelled
  cases spelled with
  | none => exact .fits .none (quiet_none [])
  | some spelled =>
      rcases begins.separated spelled with ⟨first, rest, rfl, startsFirst⟩
      rcases verdict_separated decides complete beforeComma spelled with
        ⟨spelled, quiet⟩ | ⟨_, _, leftmost, run⟩
      · exact .fits (.some spelled) quiet
      refine .sinks leftmost ?_
      intro start stop passes here
      have notClose : start.kind ≠ .closeParen := by
        rw [Cursor.kind, leftmost.current passes here]
        intro same
        exact neverClose (same ▸ startsFirst)
      rw [items, run_kind_bind, if_neg notClose, run_tokens_bind]
      exact run passes here (Nat.le_refl _)

theorem decides_parenthesised (decides : item.Decides narrow wide entries level)
    (complete : item.Complete narrow follow) (begins : Phrase.Begins wide starts)
    (beforeComma : follow .comma) (neverClose : ¬ starts .closeParen) :
    (parenthesised item).Decides (Phrase.Parenthesised narrow) (Phrase.Parenthesised wide)
      (fun read => Entries.parenthesised (Entries.separated (read.1.map entries))) level := by
  rintro tokens _ ⟨opens, spelled, closes⟩
  exact (decides_items decides complete begins beforeComma neverClose spelled).within
    (quiet_none [_]) (quiet_none [_]) (fun spelled => .mk opens spelled closes)
    (fun _ sinks => (sinks.bind _).expect opens)

/-- The loop over items one behind the other, with rounds enough for all of them. -/
theorem verdict_repeated {last : Token.Kind} (decides : item.Decides narrow wide entries level)
    (complete : item.Complete narrow follow) (begins : Phrase.Begins wide starts)
    (goesOn : forall kind, starts kind -> follow kind) (neverLast : ¬ starts last)
    {tokens : List Token} {values : List Result} (spelled : Phrase.Repeated wide tokens values) :
    (Phrase.Repeated narrow tokens values ∧ Quiet level (values.map entries).flatten tokens) ∨
    Exists fun before => Exists fun token =>
      Leftmost level (values.map entries).flatten tokens before token ∧
        forall ⦃start stop : Cursor⦄ ⦃rounds : List Token⦄, start.Passes before stop ->
          stop.current = token -> start.tokens.length <= rounds.length ->
          (untilKind last item rounds).run start =
            .error (SyntaxError.blame .nestingTooDeep [] token) stop := by
  induction spelled with
  | none => exact .inl ⟨.none, quiet_none []⟩
  | @more tokens rest value values spelled others inductionHypothesis =>
      rw [List.map_cons, List.flatten_cons]
      rcases begins spelled with ⟨first, tail, rfl, startsFirst⟩
      have notLast {start : Cursor} (same : start.current = first) : start.kind ≠ last := by
        rw [Cursor.kind, same]
        intro same
        exact neverLast (same ▸ startsFirst)
      cases decides spelled with
      | sinks leftmost sinks =>
          refine .inr ⟨_, _, leftmost.behind _ _, ?_⟩
          intro start stop rounds passes here adequate
          rcases exists_round adequate with ⟨round, fewer, rfl⟩
          rw [untilKind, run_kind_bind, if_neg (notLast (leftmost.current passes here))]
          exact sinks.bind _ passes here
      | fits spelled quiet =>
          rcases inductionHypothesis with ⟨spelledOthers, quietOthers⟩ | ⟨_, _, leftmost, run⟩
          · exact .inl ⟨.more spelled spelledOthers, quiet.append quietOthers⟩
          refine .inr ⟨_, _, leftmost.ahead quiet, ?_⟩
          intro start stop rounds passes here adequate
          rcases exists_round adequate with ⟨round, fewer, rfl⟩
          rcases passes.split with ⟨middle, passesItem, passesOthers⟩
          have follows : follow middle.kind := by
            cases others with
            | none => exact absurd leftmost.idxOf?_eq.2 (by simp)
            | more next others =>
                rcases begins next with ⟨second, remaining, rfl, startsSecond⟩
                rw [Cursor.kind, leftmost.current passesOthers here]
                exact goesOn _ startsSecond
          have itemRun := complete passesItem spelled follows
          have shorter := passesItem.length_lt (List.cons_ne_nil _ _)
          rw [List.length_cons] at adequate
          rw [untilKind, run_kind_bind, if_neg (notLast passesItem.head.1), run_bind_of_ok itemRun]
          exact run_bind_of_error (run passesOthers here (by omega)) _

end Lists

end Reader

end Reading
end ToyFrontend
