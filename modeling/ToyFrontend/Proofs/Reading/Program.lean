import ToyFrontend.Proofs.Reading.Statement
import ToyFrontend.Reading.Program

namespace ToyFrontend
namespace Reading

/-!
# Which lists of tokens are programs

The tokens before the first end marker decide whether a list of tokens is read
as a program and as which one.  The two contracts of the readers meet in one
equivalence, `parseTokens_eq_ok_iff`: from here on an accepted list of tokens is
a derivation of its program, and nothing below has to run a reader again.
-/

open SyntaxTree (Stmt Program nestingLimit)

namespace Outcome

/-- A run over statements without an error ends at an end marker. -/
theorem repeated_of_ofCursor (rounds : List Token) {start : Cursor} (closed : start.Closed)
    (adequate : start.tokens.length ≤ rounds.length)
    (success : (ofCursor rounds start).failure = none) :
    Exists fun passed => Exists fun stop => start.Passes passed stop ∧ stop.kind = .eof ∧
      (ofCursor rounds start).stop = stop.position ∧
      Phrase.Repeated (Phrase.Top nestingLimit) passed (ofCursor rounds start).statements := by
  induction rounds generalizing start with
  | nil => exact absurd adequate (Nat.not_le.mpr start.tokens_length_pos)
  | cons round rounds inductionHypothesis =>
      rw [ofCursor] at success ⊢
      by_cases more : start.hasTokens = true
      · rw [if_pos more] at success ⊢
        cases run : (Statement.atTop .standard nestingLimit).run start with
        | error error next =>
            rw [run] at success
            cases success
        | ok statement next =>
            rw [run] at success
            rcases Statement.sound_atTop nestingLimit closed run with ⟨before, passes, spelled⟩
            rcases Statement.begins_top nestingLimit spelled with ⟨first, rest, rfl, _⟩
            have shorter := passes.length_lt (List.cons_ne_nil _ _)
            rw [List.length_cons] at adequate
            rcases inductionHypothesis (passes.closed closed) (by omega) success with
              ⟨behind, stop, passesBehind, ends, place, others⟩
            exact ⟨_, stop, passes.trans passesBehind, ends, place, .more spelled others⟩
      · rw [if_neg more]
        have ends : start.kind = .eof := by
          rw [Cursor.hasTokens, bne_iff_ne] at more
          exact Decidable.not_not.mp more
        exact ⟨[], start, .refl start, ends, rfl, .none⟩

/-- Statements up to an end marker are all read. -/
theorem ofCursor_of_repeated {passed : List Token} {body : List Stmt}
    (spelled : Phrase.Repeated (Phrase.Top nestingLimit) passed body) {start stop : Cursor}
    (passes : start.Passes passed stop) (ends : stop.kind = .eof) (rounds : List Token)
    (adequate : start.tokens.length ≤ rounds.length) :
    ofCursor rounds start = { statements := body, stop := stop.position, failure := none } := by
  induction spelled generalizing start rounds with
  | none =>
      cases passes.eq_of_nil
      cases rounds with
      | nil => rfl
      | cons round rounds =>
          rw [ofCursor, if_neg (by rw [Cursor.hasTokens, ends]; decide)]
  | more spelled others inductionHypothesis =>
      cases rounds with
      | nil => exact absurd adequate (Nat.not_le.mpr start.tokens_length_pos)
      | cons round rounds =>
          rcases passes.split with ⟨middle, passesFirst, passesOthers⟩
          have notElse : middle.kind ≠ .elseWord := by
            cases others with
            | none =>
                rw [passesOthers.eq_of_nil, ends]
                decide
            | more next others =>
                rcases Statement.begins_top nestingLimit next with ⟨first, rest, rfl, opens⟩
                rw [passesOthers.kind_head]
                intro same
                rw [same] at opens
                rcases opens with impossible | impossible <;> cases impossible
          have run := Statement.complete_atTop nestingLimit passesFirst spelled notElse
          rcases Statement.begins_top nestingLimit spelled with ⟨first, rest, rfl, _⟩
          have more : start.hasTokens = true := by
            rw [Cursor.hasTokens, bne_iff_ne, passesFirst.kind_head]
            exact passesFirst.proper first (by simp)
          have shorter := passesFirst.length_lt (List.cons_ne_nil _ _)
          rw [List.length_cons] at adequate
          rw [ofCursor, if_pos more, run]
          change (ofCursor rounds middle).prepend _ = _
          rw [inductionHypothesis passesOthers rounds (by omega)]
          rfl

end Outcome

/-- A list of tokens is read as a program exactly if the tokens before its first end
marker spell the statements of this program, which then reaches to that marker. -/
theorem parseTokens_eq_ok_iff {tokens : List Token} {program : Program} :
    parseTokens tokens = .ok program ↔
      Phrase.Repeated (Phrase.Top nestingLimit) (Token.beforeEnd tokens) program.body ∧
        Exists fun stop => (Cursor.ofTokens tokens).Passes (Token.beforeEnd tokens) stop ∧
          stop.kind = .eof ∧ program.span = { start := .start, finish := stop.position } := by
  have closed := Cursor.closed_ofTokens tokens
  constructor
  · intro accepted
    rw [parseTokens, Outcome.result] at accepted
    split at accepted
    next success =>
      cases accepted
      rcases Outcome.repeated_of_ofCursor _ closed (Nat.le_refl _) success with
        ⟨passed, stop, passes, ends, place, spelled⟩
      have exact_passed := passes.eq_beforeEnd ends
      rw [Cursor.beforeEnd_ofTokens] at exact_passed
      subst exact_passed
      exact ⟨spelled, stop, passes, ends, congrArg _ place⟩
    next => cases accepted
  · rintro ⟨spelled, stop, passes, ends, place⟩
    have outcome := Outcome.ofCursor_of_repeated spelled passes ends _ (Nat.le_refl _)
    rw [parseTokens, Outcome.ofTokens, outcome]
    cases program
    cases place
    rfl

/-- Where the last token is the only end marker, the program reaches to it. -/
theorem parseTokens_marked_iff {lexemes : List Token} {marker : Token} {program : Program}
    (proper : forall token, token ∈ lexemes -> token.kind ≠ .eof) (ends : marker.kind = .eof) :
    parseTokens (lexemes ++ [marker]) = .ok program ↔
      Phrase.Repeated (Phrase.Top nestingLimit) lexemes program.body ∧
        program.span = { start := .start, finish := marker.span.start } := by
  have toMarker := Cursor.passes_ofTokens (Cursor.withEndMarker_concat lexemes ends) proper
  rw [parseTokens_eq_ok_iff, Token.beforeEnd_append proper ends]
  constructor
  · rintro ⟨spelled, stop, passes, -, span⟩
    have stops := List.append_cancel_left (passes.tokens_eq.symm.trans toMarker.tokens_eq)
    cases Cursor.tokens_injective stops
    exact ⟨spelled, span⟩
  · rintro ⟨spelled, span⟩
    exact ⟨spelled, _, toMarker, ends, span⟩

end Reading

/-- Whether a document is accepted can be computed, and then there is a program. -/
theorem exists_of_parse_isOk {source : String} (isRead : (parse source).isOk = true) :
    Exists fun program => parse source = .ok program := by
  cases accepted : parse source with
  | error =>
      rw [accepted] at isRead
      cases isRead
  | ok program => exact ⟨program, rfl⟩

/-- A document is accepted if it can be scanned and its tokens are. -/
theorem parse_eq_ok_iff {source : String} {program : SyntaxTree.Program} :
    parse source = .ok program ↔
      Exists fun tokens => tokenize source = .ok tokens ∧ parseTokens tokens = .ok program := by
  unfold parse
  constructor
  · intro accepted
    split at accepted
    next => cases accepted
    next tokens scanned =>
      split at accepted
      next => cases accepted
      next given =>
        cases accepted
        exact ⟨tokens, scanned, given⟩
  · rintro ⟨tokens, scanned, given⟩
    simp only [scanned, given]

end ToyFrontend
