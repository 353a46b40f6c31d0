import ToyFrontend.Proofs.Blame.Program

namespace ToyFrontend
namespace Reading

/-!
# The first end marker ends the tokens

An end marker may stand anywhere in a list of tokens, and more tokens may stand
behind it.  Readers look one token ahead, and nothing keeps them from looking over
an end marker.  Nevertheless whatever stands behind the first one has no part in
what is read.

This follows from the locality of readers.  A run ends at some token, and since no
end marker is passed, it ends before the first one or at it.  Two lists with the
same tokens up to there give cursors that can be led to this token over the same
way, so both runs have the same end.
-/

/-- No way leads over an end marker, so each way is the beginning of one to the first. -/
theorem Cursor.Passes.exists_rest {start stop last : Cursor} {passed before : List Token}
    (passes : start.Passes passed stop) (closed : start.Closed)
    (whole : start.Passes before last) (ends : last.kind = .eof) :
    Exists fun rest => before = passed ++ rest := by
  rcases (passes.closed closed).passes_beforeEnd with ⟨other, onward, endsOther⟩
  refine ⟨Token.beforeEnd stop.tokens, ?_⟩
  rw [whole.eq_beforeEnd ends, (passes.trans onward).eq_beforeEnd endsOther]

namespace Reader

variable {Result : Type}

theorem exists_ended (outcome : EStateM.Result SyntaxError Cursor Result) :
    Exists fun stop => Exists fun answer => outcome = ended stop answer := by
  cases outcome with
  | ok value stop => exact ⟨stop, .ok value, rfl⟩
  | error error stop => exact ⟨stop, .error error, rfl⟩

/-- A local reader gives the same answer on two cursors with the same tokens up to their first
end marker, and ends at the same token. -/
theorem Local.run_upTo_marker {reader : Reader Result} (isLocal : Local reader)
    {start last other otherLast : Cursor} {before : List Token} (closed : start.Closed)
    (passes : start.Passes before last) (ends : last.kind = .eof)
    (passesOther : other.Passes before otherLast) (same : otherLast.current = last.current) :
    Exists fun stop => Exists fun otherStop => Exists fun answer =>
      otherStop.current = stop.current ∧ reader.run start = ended stop answer ∧
        reader.run other = ended otherStop answer := by
  rcases exists_ended (reader.run start) with ⟨stop, answer, run⟩
  rcases isLocal other.tokens.length closed run with ⟨passed, passesStop, mirrored⟩
  rcases passesStop.exists_rest closed passes ends with ⟨rest, rfl⟩
  rcases passes.split with ⟨middle, passesMiddle, onward⟩
  rcases passesOther.split with ⟨otherStop, passesOtherStop, onwardOther⟩
  have isStop : middle = stop := by
    apply Cursor.tokens_injective
    exact List.append_cancel_left (passesMiddle.tokens_eq.symm.trans passesStop.tokens_eq)
  subst isStop
  have sameStop := onward.current_eq onwardOther same
  exact ⟨middle, otherStop, answer, sameStop, run,
    mirrored (Nat.le_refl _) passesOtherStop sameStop⟩

end Reader

/-- A program reaches to the token at which its run ended, and nothing is kept of what is
behind this token. -/
theorem programOf_ended {stop other : Cursor} (same : other.current = stop.current)
    (answer : Except SyntaxError (List SyntaxTree.Stmt)) :
    programOf (Reader.ended other answer) = programOf (Reader.ended stop answer) := by
  cases answer with
  | ok body => rw [Reader.ended, Reader.ended, programOf, programOf, Cursor.position,
      Cursor.position, same]
  | error error => rfl

/-- Lists with the same tokens up to their first end marker are read alike. -/
theorem parseTokens_congr {tokens others before behind more : List Token} {marker : Token}
    (shape : withEndMarker tokens = before ++ marker :: behind)
    (shapeOther : withEndMarker others = before ++ marker :: more)
    (proper : forall token, token ∈ before -> token.kind ≠ .eof) (ends : marker.kind = .eof) :
    parseTokens others = parseTokens tokens := by
  rcases local_program.run_upTo_marker (Cursor.closed_ofTokens tokens)
    (Cursor.passes_ofTokens shape proper) ends (Cursor.passes_ofTokens shapeOther proper) rfl with
    ⟨stop, otherStop, answer, same, run, runOther⟩
  rw [parseTokens_eq, parseTokens_eq, run, runOther, programOf_ended same]

end Reading

/-- Only the tokens up to the first end marker count.  Where none is given, the one that counts
stands where the last token ends. -/
theorem parseTokens_upTo_marker {lexemes : List Token} {marker : Token}
    (proper : forall token, token ∈ lexemes -> token.kind ≠ .eof) (ends : marker.kind = .eof)
    (behind : List Token) :
    parseTokens (lexemes ++ marker :: behind) = parseTokens (lexemes ++ [marker]) ∧
      parseTokens lexemes = parseTokens (lexemes ++ [.endMarker (Token.endOf lexemes)]) := by
  constructor
  · rcases Reading.withEndMarker_append lexemes marker behind with ⟨more, shape⟩
    exact Reading.parseTokens_congr (Reading.Cursor.withEndMarker_concat lexemes ends) shape proper
      ends
  · have unmarked : Reading.withEndMarker lexemes =
        lexemes ++ [.endMarker (Token.endOf lexemes)] := by
      apply if_neg
      intro isMarker
      rcases Option.map_eq_some_iff.mp isMarker with ⟨last, isLast, isEnd⟩
      exact proper last (List.mem_of_getLast? isLast) isEnd
    exact Reading.parseTokens_congr (Reading.Cursor.withEndMarker_concat lexemes rfl) unmarked
      proper rfl

/-- An assignment that is not finished. -/
def unfinishedAssignment : List Token :=
  [.inFirstLine .identifier "x" 0, .inFirstLine .assignment "=" 2, .inFirstLine .identifier "y" 4]

theorem parseTokens_upTo_marker_of_unfinishedAssignment :
    (forall token, token ∈ unfinishedAssignment -> token.kind ≠ .eof) ∧
      (Token.endMarker ⟨6, 1, 7⟩).kind = .eof ∧
      parseTokens (unfinishedAssignment ++
          .endMarker ⟨6, 1, 7⟩ :: [.inFirstLine .semicolon ";" 7, .endMarker ⟨8, 1, 9⟩]) =
        parseTokens (unfinishedAssignment ++ [.endMarker ⟨6, 1, 7⟩]) ∧
      parseTokens unfinishedAssignment =
        parseTokens (unfinishedAssignment ++ [.endMarker (Token.endOf unfinishedAssignment)]) := by
  have proper : forall token, token ∈ unfinishedAssignment -> token.kind ≠ .eof := by decide
  exact ⟨proper, rfl, parseTokens_upTo_marker proper rfl _⟩

end ToyFrontend
