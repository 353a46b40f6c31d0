import ToyFrontend.Report.Analysis

namespace ToyFrontend

/-!
The log of a run.  Nothing is written while a document is read: the log is
a view of what was found, in the order in which it was found.
-/

/-- How important a record is. -/
inductive Log.Level where
  | trace
  | debug
  | info
  | warn
  | error
deriving DecidableEq, Repr

/-- The part of the library that a record is about. -/
inductive Log.Topic where
  | tokens
  | program
  | report
deriving DecidableEq, Repr

/-- One line of a log. -/
structure Log.Record where
  level : Log.Level
  topic : Log.Topic
  message : String
deriving DecidableEq, Repr

namespace Log

/-- The name of a level. -/
def Level.name : Level -> String
  | .trace => "TRACE"
  | .debug => "DEBUG"
  | .info => "INFO"
  | .warn => "WARN"
  | .error => "ERROR"

/-- The name of a topic. -/
def Topic.name : Topic -> String
  | .tokens => "lexer"
  | .program => "parser"
  | .report => "toylang::report"

/-- A token was met. -/
def ofToken (token : Token) : Record where
  level := .trace
  topic := .tokens
  message := token.traced ++ " at " ++ token.span.start.describe

/-- The tokens of a scan, and their number if the scan reached the end. -/
def ofScan (scan : Scan) : List Record :=
  scan.tokens.map ofToken ++
    match scan.failure with
    | some _ => []
    | none =>
        [{ level := .debug
           topic := .tokens
           message := "scanned " ++ toString scan.tokens.length ++ " tokens" }]

/-- A statement was read at the top of a program. -/
def ofStatement (statement : SyntaxTree.Stmt) : Record where
  level := .debug
  topic := .program
  message := "parsed declaration at " ++ statement.span.start.describe

/-- The statements that were read, and the error that ended the reading. -/
def ofOutcome (outcome : Reading.Outcome) : List Record :=
  outcome.statements.map ofStatement ++
    match outcome.failure with
    | none => []
    | some error =>
        [{ level := .debug
           topic := .program
           message := "parse failed: " ++ error.message }]

/-- The log of splitting a document into tokens. -/
def ofTokenize (source : String) : List Record :=
  ofScan (.ofSource source)

/-- The log of reading a document as a program. -/
def ofParse (source : String) : List Record :=
  let scan := Scan.ofSource source
  ofScan scan ++
    match scan.failure with
    | some _ => []
    | none => ofOutcome (.ofTokens scan.tokens)

/-- The log of analysing a document; a blank one leaves no trace. -/
def ofAnalyze (source : String) : List Record :=
  match Report.Analysis.ofSource source with
  | .blank => []
  | analysis =>
      ofParse source ++
        match analysis.diagnostic? with
        | none => []
        | some diagnostic =>
            [{ level := .info
               topic := .report
               message := diagnostic.describe }]

end Log
end ToyFrontend
