import ToyFrontend.Proofs.Display
import ToyFrontend.Proofs.Outline.Forest

namespace ToyFrontend

/-!
# The lines of an outline

No label has a line feed in it: names and numbers cannot, and a literal is shown
with its escapes.  Lines that are joined, each ended by a line feed, can therefore
be told apart again.
-/

open Scan (IsName)
open Word (AllWritable)

/-- No line feed is in the text. -/
def OneLine (text : String) : Prop :=
  '\n' ∉ text.toList

instance (text : String) : Decidable (OneLine text) :=
  inferInstanceAs (Decidable ('\n' ∉ text.toList))

namespace OneLine

theorem append_iff {front back : String} :
    OneLine (front ++ back) ↔ OneLine front ∧ OneLine back := by
  simp [OneLine]

theorem intercalate {separator : String} {texts : List String} (apart : OneLine separator)
    (each : forall text, text ∈ texts -> OneLine text) : OneLine (separator.intercalate texts) := by
  induction texts with
  | nil => simp [OneLine]
  | cons first rest inductionHypothesis =>
      have ofFirst := each first List.mem_cons_self
      have ofRest := inductionHypothesis fun text later => each text (List.mem_cons_of_mem _ later)
      by_cases last : rest = []
      · subst last
        simpa using ofFirst
      · rw [String.intercalate_cons_of_ne_nil last]
        exact append_iff.mpr ⟨append_iff.mpr ⟨ofFirst, apart⟩, ofRest⟩

theorem of_isName {name : String} (isName : IsName name) : OneLine name := by
  intro lineFeed
  have isWord := isName.isWord
  generalize name.toList = characters at isWord lineFeed
  cases isWord with
  | mk starts goesOn =>
      rcases List.mem_cons.mp lineFeed with rfl | later
      · cases starts
      · cases goesOn _ later

theorem of_number (value : Nat) : OneLine (toString (value : Int)) :=
  Scan.not_mem_number rfl value

theorem of_encoded (value : List Char) : OneLine (String.ofList (Text.Quoted.encode value)) := by
  have each : forall character, '\n' ∉ Text.Quoted.encodeChar character := by
    intro character lineFeed
    unfold Text.Quoted.encodeChar at lineFeed
    split at lineFeed
    next escaped isEscape =>
      have isLineFeed : '\n' = escaped := by simpa using lineFeed
      -- No escape is written with a line feed behind the backslash.
      subst isLineFeed
      cases Text.Quoted.unescape?_of_escape? isEscape
    next unescaped =>
      rw [← List.mem_singleton.mp lineFeed] at unescaped
      cases unescaped
  simp [OneLine, Text.Quoted.encode, each]

end OneLine

namespace SyntaxTree

/-- The text of an expression has one line, since line feeds in literals are escaped. -/
theorem Expr.oneLine_text (expression : Expr) (writable : AllWritable expression.words) :
    OneLine expression.text := by
  induction expression using Expr.induction with
  | intLiteral value span =>
      rcases (writable _ List.mem_cons_self).number value rfl with ⟨number, rfl, -⟩
      exact .of_number number
  | stringLiteral value span => exact .of_encoded value.toList
  | boolLiteral value span =>
      rw [text]
      cases value <;> decide
  | identifier name span =>
      exact .of_isName (Word.isName_of_writable (writable _ List.mem_cons_self))
  | binary left operator right span ofLeft ofRight =>
      simp only [words, Word.allWritable_append, Word.allWritable_cons] at writable
      have symbol : OneLine operator.symbol := by cases operator <;> decide
      simp only [text, OneLine.append_iff]
      exact ⟨⟨⟨⟨⟨⟨by decide, ofLeft writable.1⟩, by decide⟩, symbol⟩, by decide⟩,
        ofRight writable.2.2⟩, by decide⟩
  | unary operator operand span ofOperand =>
      simp only [words, Word.allWritable_cons] at writable
      have symbol : OneLine operator.symbol := by cases operator <;> decide
      simp only [text, OneLine.append_iff]
      exact ⟨⟨⟨by decide, symbol⟩, ofOperand writable.2⟩, by decide⟩
  | call callee arguments span ofArguments =>
      simp only [words, wordLists_eq_map, Word.allWritable_cons,
        Word.allWritable_parenthesised] at writable
      have listed : OneLine (", ".intercalate (arguments.map text)) := by
        apply OneLine.intercalate (by decide)
        intro given isGiven
        rcases List.mem_map.mp isGiven with ⟨argument, member, rfl⟩
        exact ofArguments argument member (writable.2.of_separated (List.mem_map_of_mem member))
      simp only [text, texts_eq_map, OneLine.append_iff]
      exact ⟨⟨⟨.of_isName (Word.isName_of_writable writable.1), by decide⟩, listed⟩, by decide⟩
  | grouping inner span ofInner =>
      simp only [words, Word.allWritable_parenthesised] at writable
      rw [text]
      split
      next => exact ofInner writable
      next =>
        simp only [OneLine.append_iff]
        exact ⟨⟨by decide, ofInner writable⟩, by decide⟩

theorem Parameter.isName_of_writable {parameters : List Parameter}
    (writable : AllWritable (Word.separated (parameters.map Parameter.words))) :
    forall parameter, parameter ∈ parameters -> IsName parameter.name := by
  intro parameter listed
  have ofWords := writable.of_separated (List.mem_map_of_mem listed)
  exact Word.isName_of_writable (ofWords _ (List.mem_cons_of_mem _ List.mem_cons_self))

namespace Outline

/-- Every label of the forest has the property. -/
def Forest.All (property : String -> Prop) : Forest -> Prop
  | .none => True
  | .node label inside behind =>
      property label ∧ inside.All property ∧ behind.All property

theorem oneLine_line {label : String} (oneLine : OneLine label) (depth : Nat) :
    OneLine (line depth label) := by
  cases depth with
  | zero => exact oneLine
  | succ depth =>
      induction depth with
      | zero =>
          rw [OneLine, toList_line_one]
          simpa [OneLine] using oneLine
      | succ depth inductionHypothesis =>
          rw [OneLine, toList_line_succ_succ]
          simpa [OneLine] using inductionHypothesis

theorem Forest.All.lines {forest : Forest} (all : forest.All OneLine) (depth : Nat) :
    forall text, text ∈ forest.lines depth -> OneLine text := by
  induction forest generalizing depth with
  | none => rintro text ⟨⟩
  | node label inside behind ofInside ofBehind =>
      rw [lines_node]
      rcases all with ⟨ofLabel, allInside, allBehind⟩
      simp only [List.forall_mem_cons, List.forall_mem_append]
      exact ⟨oneLine_line ofLabel _, ofInside allInside _, ofBehind allBehind _⟩

theorem oneLine_declared {name : String} (isName : IsName name) (type : Option TypeName) :
    OneLine (typeLabel type ++ " " ++ name) := by
  have keyword : OneLine (typeLabel type) := by
    rcases type with _ | _ | _ | _ <;> decide
  simp only [OneLine.append_iff]
  exact ⟨⟨keyword, by decide⟩, .of_isName isName⟩

theorem oneLine_label {statement : Stmt} (writable : AllWritable statement.words) :
    OneLine (label statement) := by
  cases statement with
  | function name parameters body span =>
      simp only [Stmt.words, Word.allWritable_cons, Word.allWritable_append,
        Word.allWritable_parenthesised] at writable
      have listed : OneLine (", ".intercalate (parameters.map Parameter.text)) := by
        apply OneLine.intercalate (by decide)
        intro given isGiven
        rcases List.mem_map.mp isGiven with ⟨parameter, member, rfl⟩
        exact oneLine_declared (Parameter.isName_of_writable writable.2.2.1 parameter member)
          (some parameter.type)
      simp only [label, OneLine.append_iff]
      exact ⟨by decide,
        ⟨⟨.of_isName (Word.isName_of_writable writable.2.1), by decide⟩, listed⟩, by decide⟩
  | declaration type name initial span =>
      simp only [Stmt.words, Word.allWritable_cons] at writable
      exact OneLine.append_iff.mpr
        ⟨by decide, oneLine_declared (Word.isName_of_writable writable.2.1) type⟩
  | assignment target value span =>
      simp only [Stmt.words, Word.allWritable_cons] at writable
      exact OneLine.append_iff.mpr
        ⟨by decide, .of_isName (Word.isName_of_writable writable.1)⟩
  | _ =>
      rw [label]
      decide

theorem allWritable_initialWords {value : Option Expr} :
    AllWritable (Stmt.initialWords value) ↔ AllWritable (Stmt.optionalWords value) := by
  cases value <;> simp [Stmt.initialWords, Stmt.optionalWords]

theorem oneLine_given {value : Option Expr} (writable : AllWritable (Stmt.optionalWords value)) :
    (given value).All OneLine := by
  cases value with
  | none => trivial
  | some value => exact ⟨value.oneLine_text writable, trivial, trivial⟩

theorem oneLine_ofList {statements : List Stmt} (writable : AllWritable (Stmt.listWords statements))
    (each : forall statement, statement ∈ statements -> AllWritable statement.words ->
      (inside statement).All OneLine) : (ofList statements).All OneLine := by
  induction statements with
  | nil => trivial
  | cons first rest inductionHypothesis =>
      rw [Stmt.listWords, Word.allWritable_append] at writable
      rw [ofList]
      exact ⟨oneLine_label writable.1, each first List.mem_cons_self writable.1,
        inductionHypothesis writable.2 fun statement later =>
          each statement (List.mem_cons_of_mem _ later)⟩

theorem oneLine_ofBlock {body : Block} (writable : AllWritable (Stmt.blockWords body))
    (each : forall statement, statement ∈ body.statements -> AllWritable statement.words ->
      (inside statement).All OneLine) : (ofBlock body).All OneLine := by
  rcases body with ⟨statements, span⟩
  simp only [Stmt.blockWords, Word.allWritable_cons, Word.allWritable_append] at writable
  rw [ofBlock]
  exact oneLine_ofList writable.2.1 each

theorem oneLine_inside (statement : Stmt) (writable : AllWritable statement.words) :
    (inside statement).All OneLine := by
  induction statement using Stmt.induction with
  | function name parameters body span ofBody =>
      simp only [Stmt.words, Word.allWritable_cons, Word.allWritable_append] at writable
      rw [inside]
      exact ⟨by decide, oneLine_ofBlock writable.2.2.2 ofBody, trivial⟩
  | declaration type name initial span =>
      simp only [Stmt.words, Word.allWritable_cons, Word.allWritable_append,
        allWritable_initialWords] at writable
      exact oneLine_given writable.2.2.1
  | assignment target value span =>
      simp only [Stmt.words, Word.allWritable_cons, Word.allWritable_append] at writable
      exact @oneLine_given (some value) writable.2.2.1
  | conditional condition consequent alternative span ofConsequent ofAlternative =>
      rw [Stmt.words.eq_def] at writable
      simp only [Word.allWritable_cons, Word.allWritable_append,
        Word.allWritable_parenthesised] at writable
      rw [inside.eq_def]
      refine ⟨condition.oneLine_text writable.2.1, trivial, by decide,
        oneLine_ofBlock writable.2.2.1 ofConsequent, ?_⟩
      cases alternative with
      | none => trivial
      | some otherwise =>
          exact ⟨by decide, oneLine_ofBlock (Word.allWritable_cons.mp writable.2.2.2).2
            (ofAlternative otherwise rfl), trivial⟩
  | loop condition body span ofBody =>
      simp only [Stmt.words, Word.allWritable_cons, Word.allWritable_append,
        Word.allWritable_parenthesised] at writable
      rw [inside]
      exact ⟨condition.oneLine_text writable.2.1, trivial, by decide,
        oneLine_ofBlock writable.2.2 ofBody, trivial⟩
  | result value span =>
      simp only [Stmt.words, Word.allWritable_cons, Word.allWritable_append] at writable
      exact oneLine_given writable.2.1
  | expression value span =>
      simp only [Stmt.words, Word.allWritable_append] at writable
      exact @oneLine_given (some value) writable.1
  | print value span =>
      simp only [Stmt.words, Word.allWritable_cons, Word.allWritable_append,
        Word.allWritable_parenthesised] at writable
      exact @oneLine_given (some value) writable.2.1

/-- Every line of an outline is one line. -/
theorem oneLine_of_mem_outline {program : Program} (writable : AllWritable program.words) :
    forall text, text ∈ program.outline -> OneLine text := by
  have all := oneLine_ofList writable fun statement _ => oneLine_inside statement
  rw [outline_eq_lines]
  exact List.forall_mem_cons.mpr ⟨by decide, all.lines 0⟩

end Outline
end SyntaxTree

/-! ## Joined lines -/

/-- The first line feed ends the first line. -/
theorem eq_of_lineFeed {first second : String} {rest others : List Char} (ofFirst : OneLine first)
    (ofSecond : OneLine second)
    (same : first.toList ++ '\n' :: rest = second.toList ++ '\n' :: others) :
    first = second ∧ rest = others := by
  have before {text : String} (oneLine : OneLine text) (behind : List Char) :
      (text.toList ++ '\n' :: behind).takeWhile (· != '\n') = text.toList := by
    apply Scan.takeWhile_append_of_ahead
    · intro character member
      apply bne_iff_ne.mpr
      rintro rfl
      exact oneLine member
    · rintro character ⟨⟩
      rfl
  have sameText : first.toList = second.toList := by
    rw [← before ofFirst rest, same, before ofSecond]
  rw [sameText] at same
  exact ⟨String.toList_injective sameText, (List.cons_eq_cons.mp (List.append_cancel_left same)).2⟩

/-- Lines that are each ended by a line feed can be told apart. -/
theorem eq_of_join_lines {first second : List String}
    (ofFirst : forall text, text ∈ first -> OneLine text)
    (ofSecond : forall text, text ∈ second -> OneLine text)
    (same : String.join (first.map (· ++ "\n")) = String.join (second.map (· ++ "\n"))) :
    first = second := by
  have sameList := congrArg String.toList same
  clear same
  induction first generalizing second with
  | nil =>
      cases second with
      | nil => rfl
      | cons => simp at sameList
  | cons text rest inductionHypothesis =>
      cases second with
      | nil => simp at sameList
      | cons other others =>
          rw [List.forall_mem_cons] at ofFirst ofSecond
          simp only [List.map_cons, String.join_cons, String.toList_append, List.append_assoc]
            at sameList
          rcases eq_of_lineFeed ofFirst.1 ofSecond.1 sameList with ⟨sameText, sameRest⟩
          rw [sameText, inductionHypothesis ofFirst.2 ofSecond.2 sameRest]

end ToyFrontend
