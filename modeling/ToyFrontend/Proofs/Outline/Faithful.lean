import ToyFrontend.Proofs.Outline.Label
import ToyFrontend.Proofs.Outline.Line
import ToyFrontend.Report.Analysis

namespace ToyFrontend

/-!
# The outline of a program determines the program

The label of a statement tells which form it has by its first letter, so the
labels below it are known for what they are, whatever names a program uses.  The
rest is the text of single labels.

As for expressions, a program is determined up to spans and up to groupings
around operations.
-/

open Word (AllWritable)

namespace SyntaxTree

/-! ## Groupings throughout a program -/

namespace Stmt

mutual

/-- The statement with every operation in a grouping that is not in one already. -/
def wrapped : Stmt -> Stmt
  | .function name parameters body span => .function name parameters (blockWrapped body) span
  | .declaration type name initial span =>
      .declaration type name (initial.map Expr.wrapped) span
  | .assignment target value span => .assignment target value.wrapped span
  | .conditional condition consequent alternative span =>
      .conditional condition.wrapped (blockWrapped consequent)
        (match alternative with
        | none => none
        | some otherwise => some (blockWrapped otherwise))
        span
  | .loop condition body span => .loop condition.wrapped (blockWrapped body) span
  | .result value span => .result (value.map Expr.wrapped) span
  | .expression value span => .expression value.wrapped span
  | .print value span => .print value.wrapped span

/-- The block with every operation in a grouping. -/
def blockWrapped : Block -> Block
  | .mk statements span => .mk (listWrapped statements) span

/-- Several statements with every operation in a grouping. -/
def listWrapped : List Stmt -> List Stmt
  | [] => []
  | first :: rest => first.wrapped :: listWrapped rest

end

end Stmt

/-- The program with every operation in a grouping that is not in one already. -/
def Program.wrapped (program : Program) : Program where
  body := Stmt.listWrapped program.body
  span := program.span

namespace Outline

/-! ## From the forest to the program -/

/-- The first letter of a statement's label, which tells its form. -/
def initial : Stmt -> Char
  | .function _ _ _ _ => 'F'
  | .declaration _ _ _ _ => 'V'
  | .assignment _ _ _ => 'A'
  | .conditional _ _ _ _ => 'I'
  | .loop _ _ _ => 'W'
  | .result _ _ => 'R'
  | .expression _ _ => 'E'
  | .print _ _ => 'P'

theorem head?_label (statement : Stmt) :
    (label statement).toList.head? = some (initial statement) := by
  cases statement <;> simp [label, initial]

theorem initial_eq_of_label {first second : Stmt} (same : label first = label second) :
    initial first = initial second := by
  apply Option.some.inj
  rw [← head?_label, same, head?_label]

theorem eq_of_given {first second : Option Expr}
    (writableFirst : AllWritable (Stmt.optionalWords first))
    (writableSecond : AllWritable (Stmt.optionalWords second)) (same : given first = given second) :
    (first.map Expr.wrapped).map Expr.withoutSpans =
      (second.map Expr.wrapped).map Expr.withoutSpans := by
  cases first with
  | none =>
      cases second with
      | none => rfl
      | some other => cases same
  | some value =>
      cases second with
      | none => cases same
      | some other =>
          rw [given, given] at same
          have sameText := (Forest.node.inj same).1
          exact congrArg some (Expr.eq_of_text writableFirst writableSecond sameText)

theorem eq_of_value {first second : Expr} (writableFirst : AllWritable first.words)
    (writableSecond : AllWritable second.words)
    (same : given (some first) = given (some second)) :
    first.wrapped.withoutSpans = second.wrapped.withoutSpans :=
  Option.some.inj (@eq_of_given (some first) (some second) writableFirst writableSecond same)

/-- The statement is known from its label and from the labels below it. -/
def Known (first : Stmt) : Prop :=
  forall second, AllWritable first.words -> AllWritable second.words ->
    label first = label second -> inside first = inside second ->
      first.wrapped.withoutSpans = second.wrapped.withoutSpans

theorem eq_of_ofList {first second : List Stmt}
    (known : forall statement, statement ∈ first -> Known statement)
    (writableFirst : AllWritable (Stmt.listWords first))
    (writableSecond : AllWritable (Stmt.listWords second)) (same : ofList first = ofList second) :
    Stmt.listWithoutSpans (Stmt.listWrapped first) =
      Stmt.listWithoutSpans (Stmt.listWrapped second) := by
  induction first generalizing second with
  | nil =>
      cases second with
      | nil => rfl
      | cons => cases same
  | cons statement rest inductionHypothesis =>
      cases second with
      | nil => cases same
      | cons other others =>
          rw [ofList, ofList] at same
          rcases Forest.node.inj same with ⟨sameLabel, sameInside, sameRest⟩
          rw [Stmt.listWords, Word.allWritable_append] at writableFirst writableSecond
          have sameStatement := known statement List.mem_cons_self other writableFirst.1
            writableSecond.1 sameLabel sameInside
          have sameOthers := inductionHypothesis
            (fun statement later => known statement (List.mem_cons_of_mem _ later))
            writableFirst.2 writableSecond.2 sameRest
          rw [Stmt.listWrapped, Stmt.listWrapped, Stmt.listWithoutSpans, Stmt.listWithoutSpans,
            sameStatement, sameOthers]

theorem eq_of_ofBlock {first second : Block}
    (known : forall statement, statement ∈ first.statements -> Known statement)
    (writableFirst : AllWritable (Stmt.blockWords first))
    (writableSecond : AllWritable (Stmt.blockWords second))
    (same : ofBlock first = ofBlock second) :
    Stmt.blockWithoutSpans (Stmt.blockWrapped first) =
      Stmt.blockWithoutSpans (Stmt.blockWrapped second) := by
  rcases first with ⟨statements, span⟩
  rcases second with ⟨others, place⟩
  simp only [Stmt.blockWords, Word.allWritable_cons, Word.allWritable_append]
    at writableFirst writableSecond
  rw [ofBlock, ofBlock] at same
  have sameList : Stmt.listWithoutSpans (Stmt.listWrapped statements) = _ :=
    eq_of_ofList known writableFirst.2.1 writableSecond.2.1 same
  rw [Stmt.blockWrapped, Stmt.blockWrapped, Stmt.blockWithoutSpans, Stmt.blockWithoutSpans,
    sameList]

theorem known_function {name : String} {parameters : List Parameter} {body : Block}
    {span : Source.Span}
    (known : forall statement, statement ∈ body.statements -> Known statement) :
    Known (.function name parameters body span) := by
  intro second writableFirst writableSecond sameLabel sameInside
  have letters := initial_eq_of_label sameLabel
  cases second with
  | function other others otherBody place =>
      simp only [Stmt.words, Word.allWritable_cons, Word.allWritable_append,
        Word.allWritable_parenthesised] at writableFirst writableSecond
      rcases eq_of_signature (Word.isName_of_writable writableFirst.2.1)
        (Word.isName_of_writable writableSecond.2.1)
        (Parameter.isName_of_writable writableFirst.2.2.1)
        (Parameter.isName_of_writable writableSecond.2.2.1)
        ((String.append_right_inj _).mp sameLabel) with ⟨sameName, sameParameters⟩
      rw [inside, inside] at sameInside
      have sameBody := eq_of_ofBlock known writableFirst.2.2.2 writableSecond.2.2.2
        (Forest.node.inj sameInside).2.1
      rw [Stmt.wrapped, Stmt.wrapped, Stmt.withoutSpans, Stmt.withoutSpans, sameName, sameBody]
      exact congrArg (fun list => Stmt.function other list _ _) sameParameters
  | _ => simp [initial] at letters

theorem known_conditional {condition : Expr} {consequent : Block} {alternative : Option Block}
    {span : Source.Span}
    (known : forall statement, statement ∈ consequent.statements -> Known statement)
    (knownOther : forall otherwise, alternative = some otherwise ->
      forall statement, statement ∈ otherwise.statements -> Known statement) :
    Known (.conditional condition consequent alternative span) := by
  intro second writableFirst writableSecond sameLabel sameInside
  have letters := initial_eq_of_label sameLabel
  cases second with
  | conditional other body others place =>
      rw [Stmt.words.eq_def] at writableFirst writableSecond
      rw [inside.eq_def, inside.eq_def] at sameInside
      simp only [Word.allWritable_cons, Word.allWritable_append,
        Word.allWritable_parenthesised] at writableFirst writableSecond
      rcases Forest.node.inj sameInside with ⟨sameText, -, sameBlocks⟩
      rcases Forest.node.inj sameBlocks with ⟨-, sameThen, sameElse⟩
      have sameCondition := Expr.eq_of_text writableFirst.2.1 writableSecond.2.1 sameText
      have sameBody := eq_of_ofBlock known writableFirst.2.2.1 writableSecond.2.2.1 sameThen
      -- The line of the second block is there in both outlines, or in neither.
      cases alternative with
      | none =>
          cases others with
          | none =>
              rw [Stmt.wrapped, Stmt.wrapped, Stmt.withoutSpans, Stmt.withoutSpans, sameCondition,
                sameBody]
          | some => cases sameElse
      | some otherwise =>
          cases others with
          | none => cases sameElse
          | some block =>
              have sameOther := eq_of_ofBlock (knownOther otherwise rfl)
                (Word.allWritable_cons.mp writableFirst.2.2.2).2
                (Word.allWritable_cons.mp writableSecond.2.2.2).2 (Forest.node.inj sameElse).2.1
              rw [Stmt.wrapped, Stmt.wrapped, Stmt.withoutSpans, Stmt.withoutSpans, sameCondition,
                sameBody, sameOther]
  | _ => simp [initial] at letters

theorem known_loop {condition : Expr} {body : Block} {span : Source.Span}
    (known : forall statement, statement ∈ body.statements -> Known statement) :
    Known (.loop condition body span) := by
  intro second writableFirst writableSecond sameLabel sameInside
  have letters := initial_eq_of_label sameLabel
  cases second with
  | loop other block place =>
      rw [inside, inside] at sameInside
      simp only [Stmt.words, Word.allWritable_cons, Word.allWritable_append,
        Word.allWritable_parenthesised] at writableFirst writableSecond
      rcases Forest.node.inj sameInside with ⟨sameText, -, sameBlock⟩
      have sameCondition := Expr.eq_of_text writableFirst.2.1 writableSecond.2.1 sameText
      have sameBody := eq_of_ofBlock known writableFirst.2.2 writableSecond.2.2
        (Forest.node.inj sameBlock).2.1
      rw [Stmt.wrapped, Stmt.wrapped, Stmt.withoutSpans, Stmt.withoutSpans, sameCondition, sameBody]
  | _ => simp [initial] at letters

theorem known_statement (first : Stmt) : Known first := by
  induction first using Stmt.induction with
  | function name parameters body span ofBody => exact known_function ofBody
  | declaration type name value span =>
      intro second writableFirst writableSecond sameLabel sameInside
      have letters := initial_eq_of_label sameLabel
      cases second with
      | declaration other text valueOther place =>
          simp only [Stmt.words, Word.allWritable_cons, Word.allWritable_append,
            allWritable_initialWords] at writableFirst writableSecond
          rcases eq_of_declared (Word.isName_of_writable writableFirst.2.1)
            (Word.isName_of_writable writableSecond.2.1)
            ((String.append_right_inj _).mp sameLabel) with ⟨sameType, sameName⟩
          have sameValue := eq_of_given writableFirst.2.2.1 writableSecond.2.2.1 sameInside
          rw [Stmt.wrapped, Stmt.wrapped, Stmt.withoutSpans, Stmt.withoutSpans, sameType, sameName,
            sameValue]
      | _ => simp [initial] at letters
  | assignment target value span =>
      intro second writableFirst writableSecond sameLabel sameInside
      have letters := initial_eq_of_label sameLabel
      cases second with
      | assignment other valueOther place =>
          simp only [Stmt.words, Word.allWritable_cons, Word.allWritable_append]
            at writableFirst writableSecond
          have sameTarget : target = other := (String.append_right_inj _).mp sameLabel
          have sameValue := eq_of_value writableFirst.2.2.1 writableSecond.2.2.1 sameInside
          rw [Stmt.wrapped, Stmt.wrapped, Stmt.withoutSpans, Stmt.withoutSpans, sameTarget,
            sameValue]
      | _ => simp [initial] at letters
  | conditional condition consequent alternative span ofConsequent ofAlternative =>
      exact known_conditional ofConsequent ofAlternative
  | loop condition body span ofBody => exact known_loop ofBody
  | result value span =>
      intro second writableFirst writableSecond sameLabel sameInside
      have letters := initial_eq_of_label sameLabel
      cases second with
      | result other place =>
          simp only [Stmt.words, Word.allWritable_cons, Word.allWritable_append]
            at writableFirst writableSecond
          have sameValue := eq_of_given writableFirst.2.1 writableSecond.2.1 sameInside
          rw [Stmt.wrapped, Stmt.wrapped, Stmt.withoutSpans, Stmt.withoutSpans, sameValue]
      | _ => simp [initial] at letters
  | expression value span =>
      intro second writableFirst writableSecond sameLabel sameInside
      have letters := initial_eq_of_label sameLabel
      cases second with
      | expression other place =>
          simp only [Stmt.words, Word.allWritable_append] at writableFirst writableSecond
          have sameValue := eq_of_value writableFirst.1 writableSecond.1 sameInside
          rw [Stmt.wrapped, Stmt.wrapped, Stmt.withoutSpans, Stmt.withoutSpans, sameValue]
      | _ => simp [initial] at letters
  | print value span =>
      intro second writableFirst writableSecond sameLabel sameInside
      have letters := initial_eq_of_label sameLabel
      cases second with
      | print other place =>
          simp only [Stmt.words, Word.allWritable_cons, Word.allWritable_append,
            Word.allWritable_parenthesised] at writableFirst writableSecond
          have sameValue := eq_of_value writableFirst.2.1 writableSecond.2.1 sameInside
          rw [Stmt.wrapped, Stmt.wrapped, Stmt.withoutSpans, Stmt.withoutSpans, sameValue]
      | _ => simp [initial] at letters

/-- Programs with the same outline are the same up to spans and groupings. -/
theorem eq_of_outline {first second : Program} (writableFirst : AllWritable first.words)
    (writableSecond : AllWritable second.words) (same : first.outline = second.outline) :
    first.wrapped.withoutSpans = second.wrapped.withoutSpans := by
  rw [outline_eq_lines, outline_eq_lines] at same
  have sameForest := Forest.eq_of_lines (List.cons_eq_cons.mp same).2
  have sameBody := eq_of_ofList (fun statement _ => known_statement statement) writableFirst
    writableSecond sameForest
  rw [Program.withoutSpans, Program.withoutSpans, Program.wrapped, Program.wrapped, sameBody]

end Outline
end SyntaxTree

open SyntaxTree (Program Stmt)

theorem allWritable_of_parse {source : String} {program : Program}
    (accepted : parse source = .ok program) : AllWritable program.words := by
  have each : forall statement, statement ∈ program.body -> AllWritable statement.words :=
    fun _ listed => writable_of_parse accepted (.top listed)
  rw [Program.words]
  generalize program.body = body at each
  induction body with
  | nil => simp [Stmt.listWords]
  | cons first rest inductionHypothesis =>
      rw [List.forall_mem_cons] at each
      rw [Stmt.listWords, Word.allWritable_append]
      exact ⟨each.1, inductionHypothesis each.2⟩

/-- The outline is faithful.  Two accepted documents with the same outline are the same
program, up to spans and to groupings around operations.  No line of an outline has a line
feed in it, so the part of a report that shows the outline tells the lines apart. -/
theorem outline_is_faithful {first second : String} {program other : Program}
    (accepted : parse first = .ok program) (acceptedOther : parse second = .ok other) :
    (program.outline = other.outline ->
      program.wrapped.withoutSpans = other.wrapped.withoutSpans) ∧
    (forall line, line ∈ program.outline -> '\n' ∉ line.toList) ∧
    forall options : Report.Options, options.showTree = true ->
      Report.treeSection options program = Report.treeSection options other ->
      program.outline = other.outline := by
  have writable := allWritable_of_parse accepted
  have writableOther := allWritable_of_parse acceptedOther
  refine ⟨SyntaxTree.Outline.eq_of_outline writable writableOther,
    SyntaxTree.Outline.oneLine_of_mem_outline writable, ?_⟩
  intro options shown same
  rw [Report.treeSection, Report.treeSection, if_pos shown, if_pos shown] at same
  exact eq_of_join_lines (SyntaxTree.Outline.oneLine_of_mem_outline writable)
    (SyntaxTree.Outline.oneLine_of_mem_outline writableOther) ((String.append_right_inj _).mp same)

/-- A sum that is printed under a condition. -/
def plainSum : String :=
  "if (a) \x7b print(1+2); \x7d"

/-- The same with other spaces and with the sum in parentheses. -/
def groupedSum : String :=
  "if(a)\n\x7bprint((1 + 2));\x7d"

theorem outline_is_faithful_to_sums :
    Exists fun program => Exists fun other => parse plainSum = .ok program ∧
      parse groupedSum = .ok other ∧
      program.outline =
        ["Program", "|--If", "|  |--a", "|  |--Then", "|  |  |--Print", "|  |  |  |--(1 + 2)"] ∧
      program.outline = other.outline ∧
      program.wrapped.withoutSpans = other.wrapped.withoutSpans ∧
      forall line, line ∈ program.outline -> '\n' ∉ line.toList := by
  have shown : (parse plainSum).toOption.map Program.outline = some
      ["Program", "|--If", "|  |--a", "|  |--Then", "|  |  |--Print", "|  |  |  |--(1 + 2)"] := by
    decide +kernel
  have shownOther : (parse groupedSum).toOption.map Program.outline =
      (parse plainSum).toOption.map Program.outline := by
    decide +kernel
  cases accepted : parse plainSum with
  | error =>
      rw [accepted] at shown
      cases shown
  | ok program =>
      cases acceptedOther : parse groupedSum with
      | error =>
          rw [accepted, acceptedOther] at shownOther
          cases shownOther
      | ok other =>
          rw [accepted] at shown
          rw [accepted, acceptedOther] at shownOther
          have same : other.outline = program.outline := Option.some.inj shownOther
          have faithful := outline_is_faithful accepted acceptedOther
          exact ⟨program, other, rfl, rfl, Option.some.inj shown, same.symm, faithful.1 same.symm,
            faithful.2.1⟩

end ToyFrontend
