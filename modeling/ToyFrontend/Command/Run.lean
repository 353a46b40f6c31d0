import ToyFrontend.Command.Arguments
import ToyFrontend.Command.Directory
import ToyFrontend.Diagnostic.Snippet

namespace ToyFrontend
namespace Command

/-!
A run of the command: what it writes and how it ends.
-/

/-- What a run writes to its two outputs, and the code it ends with. -/
structure Output where
  code : UInt32
  stdout : String
  stderr : String
deriving DecidableEq, Repr

/-- The name and the version of the command. -/
def versionText : String :=
  "toylang 0.1.0\n"

/-- How the command is called. -/
def usageText : String :=
  "Usage: toylang [OPTIONS] <FILE>\n"

/-- What the command does, and the arguments it takes. -/
def helpText : String :=
  "Lexical and syntax analyzer for the toy language\n\n" ++ usageText ++
    "\nArguments:\n  <FILE>  Source file to analyze\n" ++
    "\nOptions:\n" ++
    "      --no-tokens  Do not print the token table\n" ++
    "      --tree       Print the syntax tree when the program is valid\n" ++
    "  -h, --help       Print help\n" ++
    "  -V, --version    Print version\n"

namespace UsageError

/-- What is said about arguments that ask for nothing. -/
def message : UsageError -> String
  | .unknownOption text => "unexpected argument '" ++ text ++ "' found"
  | .repeatedOption text =>
      "the argument '" ++ text ++ "' cannot be used multiple times"
  | .emptyFile => "a value is required for '<FILE>' but none was supplied"
  | .secondFile text => "unexpected argument '" ++ text ++ "' found"
  | .missingFile =>
      "the following required arguments were not provided:\n  <FILE>"

end UsageError

/-- The last name of a path. -/
def fileName (path : String) : String :=
  ((path.splitOn "/").getLast?).getD path

/-- The text of a file, if it is well-formed UTF-8. -/
def decode (bytes : ByteArray) : Except LoadError String :=
  match String.fromUTF8? bytes with
  | some text => .ok text
  | none => .error .notText

/-- The run on a document that was loaded from a path. -/
def onSource (path : String) (options : Report.Options) (source : String) : Output :=
  let analysis := Report.Analysis.ofSource source
  { code := if analysis.status.isOk then 0 else 1
    stdout := Report.text options analysis
    stderr :=
      match analysis.diagnostic? with
      | none => ""
      | some diagnostic => "\n" ++ diagnostic.snippet source (fileName path) }

/-- The run on a file, given what came of loading it. -/
def onFile (path : String) (options : Report.Options)
    (loaded : Except LoadError ByteArray) : Output :=
  match loaded.bind decode with
  | .ok source => onSource path options source
  | .error error =>
      { code := 1
        stdout := ""
        stderr := "Error loading file: " ++ error.message ++ "\n" }

/-- The run on arguments that ask for nothing. -/
def onUsageError (error : UsageError) : Output where
  code := 2
  stdout := ""
  stderr := "error: " ++ error.message ++ "\n\n" ++ usageText

/-- The run with the given arguments in a directory. -/
def run (directory : Directory) (arguments : List String) : Output :=
  match Request.ofArguments arguments with
  | .error error => onUsageError error
  | .ok .help => { code := 0, stdout := helpText, stderr := "" }
  | .ok .version => { code := 0, stdout := versionText, stderr := "" }
  | .ok (.analyze path options) => onFile path options (directory.load path)

end Command
end ToyFrontend
