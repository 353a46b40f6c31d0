import ToyFrontend.Command.Run
import ToyFrontend.Proofs.Reading.Program
import ToyFrontend.Proofs.Scan.Layout

namespace ToyFrontend

/-!
# The report agrees with the parser

An analysis takes the two phases in its own hands: it splits a document into
tokens, keeps a copy without the end marker, and reads the tokens.  `Agrees` says
that it answers what the parser answers.  The options are no part of an analysis.
They only choose among texts, and `Sections` says where the texts differ: a table
stands right behind the heading or not, and an outline right before the closing.

The command writes the report and a snippet of the error.  `Answers` says how it
ends on the bytes of a file.  The bytes may encode no text, and the text may be
blank, so there are more ways to fail than the parser has.
-/

namespace Report

/-- The analysis says of a document what the parser says of it. -/
structure Agrees (source : String) (analysis : Analysis) : Prop where
  ok : analysis.status = .ok ↔ Exists fun program => parse source = .ok program
  syntaxError : analysis.status = .syntaxError ↔
    Exists fun error => parse source = .error (.syntactic error)
  lexicalError : analysis.status = .lexicalError ↔
    Exists fun error => parse source = .error (.lexical error)
  program : forall program, analysis.program? = some program ↔ parse source = .ok program
  diagnostic : forall diagnostic, analysis.diagnostic? = some diagnostic ↔
    parse source = .error diagnostic
  /-- The tokens of the document lack the end marker, which is the last one. -/
  tokens : forall tokens, tokenize source = .ok tokens -> Exists fun marker =>
    tokens = analysis.tokens ++ [marker] ∧ marker.kind = .eof ∧
      forall token, token ∈ analysis.tokens -> token.kind ≠ .eof
  noTokens : forall error, tokenize source = .error error -> analysis.tokens = []

/-- The reports on an analysis differ by a table behind the heading and by an outline before
the closing. -/
structure Sections (analysis : Analysis) : Prop where
  table : analysis.status ≠ .lexicalError -> forall showTree, Exists fun behind =>
    text { showTokens := false, showTree } analysis = lexicalHeading ++ behind ∧
      text { showTokens := true, showTree } analysis =
        lexicalHeading ++ (tokenTable analysis.tokens ++ "\n") ++ behind
  noTable : analysis.status = .lexicalError -> forall showTree,
    text { showTokens := true, showTree } analysis =
      text { showTokens := false, showTree } analysis
  outline : forall program, analysis.program? = some program ->
    forall showTokens, Exists fun before =>
      text { showTokens, showTree := false } analysis = before ++ closing ∧
        text { showTokens, showTree := true } analysis =
          before ++ ("\n" ++ String.join (program.outline.map fun line => line ++ "\n")) ++ closing
  noOutline : analysis.status ≠ .ok -> forall showTokens,
    text { showTokens, showTree := true } analysis =
      text { showTokens, showTree := false } analysis

/-! ## Analyses -/

/-- The tokens of a document without its end marker. -/
structure Unmarked (source : String) (tokens : List Token) : Prop where
  scanned : Exists fun marker => tokenize source = .ok (tokens ++ [marker]) ∧ marker.kind = .eof
  proper : forall token, token ∈ tokens -> token.kind ≠ .eof

/-- What an analysis keeps of a document, with the answers of the two phases. -/
inductive Keeps (source : String) : Analysis -> Prop
  | misspelt {error : LexicalError} (failed : tokenize source = .error error)
      (parsed : parse source = .error (.lexical error)) : Keeps source (.misspelt error)
  | malformed {tokens : List Token} {error : SyntaxError} (unmarked : Unmarked source tokens)
      (parsed : parse source = .error (.syntactic error)) : Keeps source (.malformed tokens error)
  | valid {tokens : List Token} {program : SyntaxTree.Program} (unmarked : Unmarked source tokens)
      (parsed : parse source = .ok program) : Keeps source (.valid tokens program)

/-- Without the end marker there are all tokens but the last one. -/
theorem unmarked_filter {source : String} {tokens : List Token}
    (scanned : tokenize source = .ok tokens) :
    Unmarked source (tokens.filter fun token => token.kind != .eof) := by
  rcases (Scan.layout_of_tokenize scanned).marked with ⟨lexemes, rfl, each⟩
  have proper : forall token, token ∈ lexemes -> (token.kind != .eof) = true :=
    fun token member => bne_iff_ne.mpr (each token member).1
  have same : ((lexemes ++ [Token.endMarker (.after .start source.toList)]).filter
      fun token => token.kind != .eof) = lexemes := by
    rw [List.filter_append, List.filter_eq_self.mpr proper]
    exact List.append_nil lexemes
  rw [same]
  exact ⟨⟨_, scanned, rfl⟩, fun token member => (each token member).1⟩

theorem keeps_ofSource {source : String} (written : Text.isAllBlank source.toList = false) :
    Keeps source (.ofSource source) := by
  rw [Analysis.ofSource, if_neg (Bool.eq_false_iff.mp written)]
  cases scanned : tokenize source with
  | error error => exact .misspelt scanned (by rw [parse, scanned])
  | ok tokens =>
      dsimp only
      cases read : parseTokens tokens with
      | error error =>
          exact .malformed (unmarked_filter scanned) (by simp only [parse, scanned, read])
      | ok program => exact .valid (unmarked_filter scanned) (by simp only [parse, scanned, read])

theorem Unmarked.tokens {source : String} {tokens : List Token} (unmarked : Unmarked source tokens)
    (all : List Token) (scanned : tokenize source = .ok all) : Exists fun marker =>
      all = tokens ++ [marker] ∧ marker.kind = .eof ∧
        forall token, token ∈ tokens -> token.kind ≠ .eof := by
  rcases unmarked.scanned with ⟨marker, whole, isMarker⟩
  rw [scanned] at whole
  exact ⟨marker, Except.ok.inj whole, isMarker, unmarked.proper⟩

theorem Unmarked.not_error {source : String} {tokens : List Token}
    (unmarked : Unmarked source tokens) (error : LexicalError) :
    tokenize source ≠ .error error := by
  rcases unmarked.scanned with ⟨marker, whole, -⟩
  rw [whole]
  rintro ⟨⟩

theorem Keeps.agrees {source : String} {analysis : Analysis} (keeps : Keeps source analysis) :
    Agrees source analysis := by
  cases keeps with
  | misspelt failed parsed =>
      constructor
      case tokens =>
        intro tokens scanned
        rw [failed] at scanned
        cases scanned
      case noTokens => exact fun _ _ => rfl
      all_goals simp [parsed, Analysis.status, Analysis.program?, Analysis.diagnostic?]
  | malformed unmarked parsed =>
      constructor
      case tokens => exact unmarked.tokens
      case noTokens => exact fun error failed => absurd failed (unmarked.not_error error)
      all_goals simp [parsed, Analysis.status, Analysis.program?, Analysis.diagnostic?]
  | valid unmarked parsed =>
      constructor
      case tokens => exact unmarked.tokens
      case noTokens => exact fun error failed => absurd failed (unmarked.not_error error)
      all_goals simp [parsed, Analysis.status, Analysis.program?, Analysis.diagnostic?]

/-! ## Reports -/

/-- With the tokens shown, their table comes first. -/
theorem tokenSection_shown (showTree : Bool) (tokens : List Token) :
    tokenSection { showTokens := true, showTree } tokens =
      tokenTable tokens ++ "\n" ++ tokenSection { showTokens := false, showTree } tokens := by
  simp only [tokenSection, if_true, if_false, Bool.false_eq_true, String.empty_append,
    String.append_assoc]

theorem treeSection_hidden (showTokens : Bool) (program : SyntaxTree.Program) :
    treeSection { showTokens, showTree := false } program = "" :=
  rfl

theorem Keeps.sections {source : String} {analysis : Analysis} (keeps : Keeps source analysis) :
    Sections analysis := by
  cases keeps with
  | misspelt =>
      constructor
      case table => exact fun notLexical => absurd rfl notLexical
      case noTable | noOutline => exact fun _ _ => rfl
      case outline => rintro program ⟨⟩
  | malformed =>
      constructor
      case table =>
        intro _ showTree
        simp only [text, tokenSection_shown, String.append_assoc]
        exact ⟨_, rfl, rfl⟩
      case noTable => rintro ⟨⟩
      case outline => rintro program ⟨⟩
      case noOutline => exact fun _ _ => rfl
  | valid =>
      constructor
      case table =>
        intro _ showTree
        simp only [text, tokenSection_shown, String.append_assoc]
        exact ⟨_, rfl, rfl⟩
      case noTable => rintro ⟨⟩
      case outline =>
        rintro program ⟨⟩ showTokens
        refine ⟨_, rfl, ?_⟩
        rw [text, treeSection_hidden, String.append_empty]
        rfl
      case noOutline => exact fun notValid => absurd rfl notValid

end Report

/-! ## Runs -/

namespace Command

/-- How the command ends on the bytes of a file, and what it writes. -/
structure Answers (path : String) (options : Report.Options) (bytes : ByteArray)
    (output : Output) : Prop where
  code : output.code = 0 ↔ Exists fun source : String => source.toByteArray = bytes ∧
    Text.isAllBlank source.toList = false ∧ Exists fun program => parse source = .ok program
  stdout : forall source : String, source.toByteArray = bytes ->
    output.stdout = Report.text options (.ofSource source)
  stderr : forall source : String, source.toByteArray = bytes ->
    (output.stderr ≠ "" ↔ Text.isAllBlank source.toList = false ∧
      Exists fun diagnostic => parse source = .error diagnostic)
  /-- A snippet has no place for a caret in a column beyond this bound. -/
  snippet : forall (source : String) (diagnostic : Diagnostic), source.toByteArray = bytes ->
    Text.isAllBlank source.toList = false -> parse source = .error diagnostic ->
    diagnostic.position.column <= 65535 ->
    output.stderr = "\n" ++ diagnostic.snippet source (fileName path)

/-- Bytes are decoded as the text whose bytes they are. -/
theorem decode_eq_ok_iff {bytes : ByteArray} {source : String} :
    decode bytes = .ok source ↔ source.toByteArray = bytes := by
  unfold decode String.fromUTF8?
  by_cases valid : bytes.IsValidUTF8
  · rw [dif_pos valid]
    constructor
    · rintro ⟨⟩
      rfl
    · rintro rfl
      rfl
  · rw [dif_neg valid]
    constructor
    · rintro ⟨⟩
    · rintro rfl
      exact absurd source.isValidUTF8 valid

theorem code_onSource {source : String} (path : String) (options : Report.Options) :
    (onSource path options source).code = 0 ↔
      (Report.Analysis.ofSource source).status = .ok := by
  change (if (Report.Analysis.ofSource source).status.isOk then (0 : UInt32) else 1) = 0 ↔ _
  cases (Report.Analysis.ofSource source).status <;> decide

theorem ofSource_of_blank {source : String} (blank : Text.isAllBlank source.toList = true) :
    Report.Analysis.ofSource source = .blank :=
  if_pos blank

/-- There is an error to show exactly if the document is not blank and is refused. -/
theorem diagnostic?_ofSource {source : String} {diagnostic : Diagnostic} :
    (Report.Analysis.ofSource source).diagnostic? = some diagnostic ↔
      Text.isAllBlank source.toList = false ∧ parse source = .error diagnostic := by
  cases written : Text.isAllBlank source.toList with
  | true =>
      rw [ofSource_of_blank written]
      simp [Report.Analysis.diagnostic?]
  | false =>
      rw [(Report.keeps_ofSource written).agrees.diagnostic]
      simp

theorem ok_ofSource {source : String} :
    (Report.Analysis.ofSource source).status = .ok ↔
      Text.isAllBlank source.toList = false ∧
        Exists fun program => parse source = .ok program := by
  cases written : Text.isAllBlank source.toList with
  | true =>
      rw [ofSource_of_blank written]
      simp [Report.Analysis.status]
  | false =>
      rw [(Report.keeps_ofSource written).agrees.ok]
      simp

theorem stderr_onSource {source : String} (path : String) (options : Report.Options) :
    (onSource path options source).stderr =
      match (Report.Analysis.ofSource source).diagnostic? with
      | none => ""
      | some diagnostic => "\n" ++ diagnostic.snippet source (fileName path) :=
  rfl

theorem answers_onSource (path : String) (options : Report.Options) (source : String) :
    Answers path options source.toByteArray (onSource path options source) := by
  have same {other : String} (encoded : other.toByteArray = source.toByteArray) : source = other :=
    (String.toByteArray_inj.mp encoded).symm
  constructor
  case code =>
    rw [code_onSource, ok_ofSource]
    constructor
    · rintro ⟨written, parsed⟩
      exact ⟨source, rfl, written, parsed⟩
    · rintro ⟨other, encoded, written, parsed⟩
      cases same encoded
      exact ⟨written, parsed⟩
  case stdout =>
    intro other encoded
    cases same encoded
    rfl
  case stderr =>
    intro other encoded
    cases same encoded
    rw [stderr_onSource]
    cases found : (Report.Analysis.ofSource source).diagnostic? with
    | none =>
        refine ⟨fun noisy => absurd rfl noisy, ?_⟩
        rintro ⟨written, diagnostic, parsed⟩
        rw [diagnostic?_ofSource.mpr ⟨written, parsed⟩] at found
        cases found
    | some diagnostic =>
        rcases diagnostic?_ofSource.mp found with ⟨written, parsed⟩
        refine ⟨fun _ => ⟨written, diagnostic, parsed⟩, fun _ => ?_⟩
        simp
  case snippet =>
    intro other diagnostic encoded written parsed _
    cases same encoded
    rw [stderr_onSource, diagnostic?_ofSource.mpr ⟨written, parsed⟩]

theorem answers_onFile (path : String) (options : Report.Options) (bytes : ByteArray) :
    Answers path options bytes (onFile path options (.ok bytes)) := by
  cases decoded : decode bytes with
  | ok source =>
      have run : onFile path options (.ok bytes) = onSource path options source := by
        rw [onFile, Except.bind, decoded]
      rw [run, ← decode_eq_ok_iff.mp decoded]
      exact answers_onSource path options source
  | error error =>
      have noText (source : String) : source.toByteArray ≠ bytes := by
        intro encoded
        rw [decode_eq_ok_iff.mpr encoded] at decoded
        cases decoded
      have fails : (onFile path options (.ok bytes)).code = 1 := by
        rw [onFile, Except.bind, decoded]
      constructor
      case code =>
        rw [fails]
        refine ⟨fun impossible => absurd impossible (by decide), ?_⟩
        rintro ⟨source, encoded, -⟩
        exact absurd encoded (noText source)
      case stdout | stderr => exact fun source encoded => absurd encoded (noText source)
      case snippet => exact fun source _ encoded => absurd encoded (noText source)

/-- What is said of a run on a file holds of the command, when its arguments ask for the file and
the file can be loaded. -/
theorem answers_run {directory : Directory} {arguments : List String} {path : String}
    {options : Report.Options} {bytes : ByteArray}
    (requested : Request.ofArguments arguments = .ok (.analyze path options))
    (loaded : directory.load path = .ok bytes) :
    Answers path options bytes (run directory arguments) := by
  rw [run, requested]
  dsimp only
  rw [loaded]
  exact answers_onFile path options bytes

/-- A run with one option, on a file with an assignment. -/
theorem answers_run_on_assignment :
    (run (.ofFile "a" "x = 1;".toByteArray) ["--tree", "a"]).code = 0 := by
  have written : Text.isAllBlank "x = 1;".toList = false := by decide
  have isRead : (parse "x = 1;").isOk = true := by decide +kernel
  have requested : Request.ofArguments ["--tree", "a"] =
      .ok (.analyze "a" { showTokens := true, showTree := true }) := rfl
  -- Splitting a text is a recursion on positions, so its two rounds are unfolded by hand.
  have names : Place.names "a" = ["a"] := by
    rw [Place.names, String.splitOn, if_neg (by decide), String.splitOnAux, String.splitOnAux]
    decide +kernel
  have origin : Place.origin "a" = .relative 0 [] := if_neg (by simp)
  have loaded : (Directory.ofFile "a" "x = 1;".toByteArray).load "a" =
      .ok "x = 1;".toByteArray := by
    rw [Directory.ofFile, Directory.load, if_neg (by decide), names, origin]
    rfl
  exact (answers_run requested loaded).code.mpr
    ⟨_, rfl, written, exists_of_parse_isOk isRead⟩

end Command

/-- On a document that is not blank the analysis says what the parser says, and the options
choose only which sections its report has.  A run on a file succeeds exactly if the file is
text, not blank and accepted by the parser, and it shows the error of a text that is refused. -/
theorem report_agrees_with_parse :
    (forall source : String, Text.isAllBlank source.toList = false ->
      Report.Agrees source (.ofSource source) ∧ Report.Sections (.ofSource source)) ∧
    (forall (path : String) (options : Report.Options) (bytes : ByteArray),
      Command.Answers path options bytes (Command.onFile path options (.ok bytes))) := by
  constructor
  · intro source written
    have keeps := Report.keeps_ofSource written
    exact ⟨keeps.agrees, keeps.sections⟩
  · exact Command.answers_onFile

/-- An assignment, as a document and as a file. -/
theorem report_agrees_with_parse_on_assignment :
    Text.isAllBlank "x = 1;".toList = false ∧
      (Report.Analysis.ofSource "x = 1;").status = .ok ∧
      (Command.onFile "a" {} (.ok "x = 1;".toByteArray)).code = 0 := by
  have written : Text.isAllBlank "x = 1;".toList = false := by decide
  have isRead : (parse "x = 1;").isOk = true := by decide +kernel
  have accepted := exists_of_parse_isOk isRead
  have agrees := (report_agrees_with_parse.1 _ written).1
  have answers := report_agrees_with_parse.2 "a" {} "x = 1;".toByteArray
  exact ⟨written, agrees.ok.mpr accepted, answers.code.mpr ⟨_, rfl, written, accepted⟩⟩

end ToyFrontend
