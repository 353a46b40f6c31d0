import ToyFrontend.Proofs.Display
import ToyFrontend.SyntaxTree.Outline

namespace ToyFrontend

/-!
# What the labels of an outline tell

A line of an outline shows the text of an expression, a name with its parameters,
or a name with its type.  Each of these texts is scanned as words, and words are
read in one way only, so the text determines what was written.

Readers are deterministic, and they are complete for their phrases with any
number of levels.  The bound on nesting therefore has no part in this.
-/

/-! ## Words are read in one way -/

namespace Phrase

/-- Tokens are read in one way, so what a reader is complete for is unambiguous. -/
theorem eq_of_complete {Result : Type} {reader : Reading.Reader Result}
    {phrase : List Token -> Result -> Prop} {follow : Token.Kind -> Prop}
    (complete : reader.Complete phrase follow) {last : Token.Kind} (follows : follow last)
    {tokens : List Token} (proper : forall token, token ∈ tokens -> token.kind ≠ .eof)
    {first second : Result} (ofFirst : phrase tokens first) (ofSecond : phrase tokens second) :
    first = second := by
  -- The tokens are read before one more token, whose kind may follow.
  have passes : Exists fun start : Reading.Cursor =>
      start.Passes tokens { current := (Word.plain last).token, following := [] } := by
    cases tokens with
    | nil => exact ⟨_, .refl _⟩
    | cons token rest =>
        exact ⟨{ current := token, following := rest ++ [(Word.plain last).token] }, rfl, proper⟩
  rcases passes with ⟨start, passes⟩
  have run := complete passes ofFirst follows
  rw [complete passes ofSecond follows] at run
  cases run
  rfl

/-- Values with the same words are the same up to what is erased. -/
theorem erase_eq_of_words {Item : Type} {reader : Reading.Reader Item}
    {phrase : List Token -> Item -> Prop} {follow : Token.Kind -> Prop}
    (complete : reader.Complete phrase follow) {last : Token.Kind} (follows : follow last)
    {words : Item -> List Word} {erase : Item -> Item} {first second : Item}
    (coversFirst : Covers phrase words erase first)
    (coversSecond : Covers phrase words erase second) {tokens : List Token}
    (proper : forall token, token ∈ tokens -> token.kind ≠ .eof)
    (ofFirst : tokens.map Token.word = words first)
    (ofSecond : tokens.map Token.word = words second) : erase first = erase second := by
  rcases coversFirst ofFirst with ⟨read, spelled, same⟩
  rcases coversSecond ofSecond with ⟨again, spelledAgain, sameAgain⟩
  rw [← same, ← sameAgain, eq_of_complete complete follows proper spelled spelledAgain]

end Phrase

namespace Scan

/-- The tokens of a text that spells some words. -/
theorem Spells.exists_tokens {follow : Char -> Prop} {text : List Char} {words : List Word}
    (spells : Spells follow text words) :
    Exists fun tokens : List Token => tokens.map Token.word = words ∧
      forall token, token ∈ tokens -> token.kind ≠ .eof := by
  rcases spells .start [] (by rintro character ⟨⟩) with ⟨tokens, ofTokens, proper, -⟩
  exact ⟨tokens, ofTokens, proper⟩

end Scan

open Scan (Written EndsLexeme EndsWord IsName)
open Word (AllWritable)

namespace SyntaxTree

theorem Expr.exists_fits (expression : Expr) :
    Exists fun least => forall levels, least <= levels -> Phrase.Fits levels 0 expression := by
  refine ⟨(expression.levels 0).max?.getD 0 + 1, ?_⟩
  intro levels enough inner inside
  have bounded := List.le_max?_getD_of_mem (k := 0) inside
  omega

/-- The text of an expression determines it up to spans and groupings. -/
theorem Expr.eq_of_text {first second : Expr}
    (writableFirst : AllWritable first.words)
    (writableSecond : AllWritable second.words)
    (same : first.text = second.text) :
    first.wrapped.withoutSpans = second.wrapped.withoutSpans := by
  have written := first.written writableFirst
  have again := second.written writableSecond
  rw [← same] at again
  have sameWords := written.spells.unique again.spells
  rcases written.spells.exists_tokens with ⟨tokens, ofTokens, proper⟩
  rcases first.wrapped.exists_fits with ⟨least, fits⟩
  rcases second.wrapped.exists_fits with ⟨other, fitsOther⟩
  -- With levels enough for both of them, both are read from the same tokens.
  have complete := Reading.Expression.complete_read (max least other) .loosest
  apply Phrase.erase_eq_of_words complete Reading.Expression.ends_semicolon _ _ proper ofTokens
    (ofTokens.trans sameWords)
  · exact Phrase.covers_expression _ first.regularParts_wrapped (fits _ (Nat.le_max_left _ _))
      (exceeds_zero _)
  · exact Phrase.covers_expression _ second.regularParts_wrapped
      (fitsOther _ (Nat.le_max_right _ _)) (exceeds_zero _)

/-! ## Names with a type and names with parameters -/

/-- A name behind the keyword that declares it. -/
theorem written_declared {name : String} (isName : IsName name) (type : Option TypeName) :
    Written EndsWord (Outline.typeLabel type ++ " " ++ name).toList
      [.plain (Phrase.declarator type), .named name] := by
  have keyword : Written EndsWord (Outline.typeLabel type).toList
      [.plain (Phrase.declarator type)] := by
    rcases type with _ | _ | _ | _
    all_goals
      exact Scan.written_keyword (.mk (by decide) (List.all_eq_true.mp (by decide))) rfl rfl
  simpa using keyword.append_cons (Scan.written_name isName).spells.space (by decide)

/-- A type and a name are told apart in their text. -/
theorem eq_of_declared {first second : String} {type other : Option TypeName}
    (isFirst : IsName first) (isSecond : IsName second)
    (same : Outline.typeLabel type ++ " " ++ first = Outline.typeLabel other ++ " " ++ second) :
    type = other ∧ first = second := by
  have written := written_declared isFirst type
  rw [same] at written
  have sameWords := written.spells.unique (written_declared isSecond other).spells
  rcases List.cons_eq_cons.mp sameWords with ⟨sameType, sameName⟩
  have sameKind : Phrase.declarator type = Phrase.declarator other := congrArg Word.kind sameType
  have sameText : some first = some second := congrArg Word.name (List.cons_eq_cons.mp sameName).1
  refine ⟨?_, Option.some.inj sameText⟩
  rw [← Reading.Statement.ofKind?_declarator type, sameKind, Reading.Statement.ofKind?_declarator]

/-- The parameter without its place. -/
def Parameter.withoutSpan (parameter : Parameter) : Parameter :=
  { parameter with span := .point .start }

/-- A name and its parameters are told apart in their text. -/
theorem eq_of_signature {first second : String} {parameters others : List Parameter}
    (isFirst : IsName first) (isSecond : IsName second)
    (areNames : forall parameter, parameter ∈ parameters -> IsName parameter.name)
    (areOthers : forall parameter, parameter ∈ others -> IsName parameter.name)
    (same : first ++ "(" ++ ", ".intercalate (parameters.map Parameter.text) ++ ")" =
      second ++ "(" ++ ", ".intercalate (others.map Parameter.text) ++ ")") :
    first = second ∧
      parameters.map Parameter.withoutSpan = others.map Parameter.withoutSpan := by
  have each {list : List Parameter} (named : forall parameter, parameter ∈ list ->
      IsName parameter.name) : forall parameter, parameter ∈ list ->
        Written EndsLexeme parameter.text.toList parameter.words := fun parameter listed =>
    (written_declared (named parameter listed) (some parameter.type)).mono fun _ ends => ends.1
  have written := Scan.written_listing isFirst (each areNames)
  have again := Scan.written_listing isSecond (each areOthers)
  rw [← same] at again
  have sameWords := written.spells.unique again.spells
  rcases List.cons_eq_cons.mp sameWords with ⟨sameName, sameList⟩
  have sameText : some first = some second := congrArg Word.name sameName
  have sameInside := List.append_cancel_right (List.cons_eq_cons.mp sameList).2
  rcases written.spells.exists_tokens with ⟨tokens, ofTokens, proper⟩
  rcases Token.exists_of_named_cons ofTokens with ⟨token, rest, rfl, -, -, ofRest⟩
  rcases Token.exists_of_parenthesised ofRest with ⟨opening, inside, close, rfl, -, ofInside, -⟩
  have complete := Reading.Reader.complete_items Reading.Statement.complete_parameter
    Reading.Statement.begins_parameter trivial trivial (fun impossible => impossible rfl)
  refine ⟨Option.some.inj sameText, ?_⟩
  exact Phrase.erase_eq_of_words complete rfl
    (Phrase.covers_listed fun parameter _ => Phrase.covers_parameter parameter)
    (Phrase.covers_listed fun parameter _ => Phrase.covers_parameter parameter)
    (fun token member => proper token (by simp [member])) ofInside (ofInside.trans sameInside)

end SyntaxTree
end ToyFrontend
