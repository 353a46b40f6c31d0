import ToyFrontend.Reading.Program
import ToyFrontend.Report.TokenTable
import ToyFrontend.Text.Blank
import ToyFrontend.SyntaxTree.Outline

namespace ToyFrontend
namespace Report

/-!
The analysis of a document and its report.  The analysis itself does not know
what will be shown of it; the options of a report choose only among texts.
-/

/-- What the report has besides the verdict. -/
structure Options where
  showTokens : Bool := true
  showTree : Bool := false
deriving DecidableEq, Repr

/-- The verdict on a document. -/
inductive Status where
  | ok
  | syntaxError
  | lexicalError
  /-- The document is blank, and nothing was analysed. -/
  | empty
deriving DecidableEq, Repr

namespace Status

/-- The name of a verdict. -/
def name : Status -> String
  | .ok => "Ok"
  | .syntaxError => "SyntaxError"
  | .lexicalError => "LexicalError"
  | .empty => "Empty"

/-- Does the verdict accept the document? -/
def isOk : Status -> Bool
  | .ok => true
  | _ => false

end Status

/-- What is known of a document.  The tokens are those without the end marker. -/
inductive Analysis where
  | blank
  | misspelt (error : LexicalError)
  | malformed (tokens : List Token) (error : SyntaxError)
  | valid (tokens : List Token) (program : SyntaxTree.Program)

namespace Analysis

/-- Analyse a document. -/
def ofSource (source : String) : Analysis :=
  if Text.isAllBlank source.toList then
    .blank
  else
    match tokenize source with
    | .error error => .misspelt error
    | .ok tokens =>
        let shown := tokens.filter fun token => token.kind != .eof
        match parseTokens tokens with
        | .error error => .malformed shown error
        | .ok program => .valid shown program

/-- The verdict. -/
def status : Analysis -> Status
  | .blank => .empty
  | .misspelt _ => .lexicalError
  | .malformed _ _ => .syntaxError
  | .valid _ _ => .ok

/-- The tokens, if all of them could be read. -/
def tokens : Analysis -> List Token
  | .blank | .misspelt _ => []
  | .malformed tokens _ => tokens
  | .valid tokens _ => tokens

/-- The program of a valid document. -/
def program? : Analysis -> Option SyntaxTree.Program
  | .valid _ program => some program
  | _ => none

/-- The error of an invalid document. -/
def diagnostic? : Analysis -> Option Diagnostic
  | .misspelt error => some (.lexical error)
  | .malformed _ error => some (.syntactic error)
  | _ => none

end Analysis

/-- What a blank document is answered with. -/
def emptyWarning : String :=
  "Please enter some code to analyze."

/-- The beginning of every report on a document that is not blank. -/
def lexicalHeading : String :=
  "=== LEXICAL ANALYSIS ===\nScanning tokens...\n\n"

/-- What stands between the tokens and the verdict on the program. -/
def syntaxHeading : String :=
  "=== SYNTAX ANALYSIS ===\n"

/-- The end of every report on a document that is not blank. -/
def closing : String :=
  "\n=== ANALYSIS COMPLETE ===\n"

/-- A line of advice, if there is any. -/
def tipLine : Option String -> String
  | none => ""
  | some tip => "Tip: " ++ tip ++ "\n"

/-- What is reported about the tokens of a document. -/
def tokenSection (options : Options) (tokens : List Token) : String :=
  (if options.showTokens then tokenTable tokens ++ "\n" else "") ++
    "Found " ++ toString tokens.length ++ " tokens.\n\n"

/-- The outline of a program below an empty line, if it is wanted. -/
def treeSection (options : Options) (program : SyntaxTree.Program) : String :=
  if options.showTree then
    "\n" ++ String.join (program.outline.map fun line => line ++ "\n")
  else
    ""

/-- The report on an analysis. -/
def text (options : Options) : Analysis -> String
  | .blank => emptyWarning ++ "\n"
  | .misspelt error =>
      lexicalHeading ++ "✗ LEXICAL ERROR!\nError: " ++ error.message ++ "\n" ++
        tipLine error.tip? ++ closing
  | .malformed tokens error =>
      lexicalHeading ++ tokenSection options tokens ++ syntaxHeading ++
        "✗ Syntax ERROR!\nParse error: " ++ error.message ++ "\n" ++ tipLine error.tip? ++
        closing
  | .valid tokens program =>
      lexicalHeading ++ tokenSection options tokens ++ syntaxHeading ++
        "✓ Syntax is VALID!\nCode parsed successfully without errors.\n" ++
        treeSection options program ++ closing

end Report
end ToyFrontend
