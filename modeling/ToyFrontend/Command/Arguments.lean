import ToyFrontend.Report.Analysis

namespace ToyFrontend
namespace Command

/-!
The arguments of the command line.  They are read from left to right, and the
first one that settles the matter wins: a request for help or for the version is
granted even when faults follow it, and a fault is reported even when such
a request follows.
-/

/-- What the command is asked to do. -/
inductive Request where
  | help
  | version
  | analyze (file : String) (options : Report.Options)
deriving DecidableEq, Repr

/-- Why the arguments ask for nothing that the command can do. -/
inductive UsageError where
  | unknownOption (text : String)
  | repeatedOption (text : String)
  | emptyFile
  | secondFile (text : String)
  | missingFile
deriving DecidableEq, Repr

/-- What one argument says, as long as options may follow. -/
inductive Argument where
  | help
  | version
  | hideTokens
  | showTree
  | endOfOptions
  | unknown
  | file
deriving DecidableEq, Repr

namespace Argument

/-- Long options are spelled out, of short ones the first letter counts, and a dash
by itself is the name of a file. -/
def ofText (text : String) : Argument :=
  match text.toList with
  | ['-'] => .file
  | '-' :: '-' :: _ =>
      match text with
      | "--" => .endOfOptions
      | "--help" => .help
      | "--version" => .version
      | "--no-tokens" => .hideTokens
      | "--tree" => .showTree
      | _ => .unknown
  | '-' :: letter :: _ =>
      match letter with
      | 'h' => .help
      | 'V' => .version
      | _ => .unknown
  | _ => .file

end Argument

/-- What the arguments have said so far. -/
structure Given where
  file : Option String := none
  hideTokens : Bool := false
  showTree : Bool := false
deriving DecidableEq, Repr

namespace Given

/-- The file to analyse is named once, and has a name. -/
def addFile (given : Given) (text : String) : Except UsageError Given :=
  if given.file.isSome then
    .error (.secondFile text)
  else if text.isEmpty then
    .error .emptyFile
  else
    .ok { given with file := some text }

/-- The request that the arguments amount to. -/
def request (given : Given) : Except UsageError Request :=
  match given.file with
  | none => .error .missingFile
  | some file =>
      .ok (.analyze file { showTokens := !given.hideTokens, showTree := given.showTree })

end Given

/-- Read the arguments behind the end of the options, which are all files. -/
def readFiles (given : Given) : List String -> Except UsageError Request
  | [] => given.request
  | text :: rest => do readFiles (← given.addFile text) rest

/-- Read arguments, given what was said before them. -/
def readArguments (given : Given) : List String -> Except UsageError Request
  | [] => given.request
  | text :: rest =>
      match Argument.ofText text with
      | .help => .ok .help
      | .version => .ok .version
      | .hideTokens =>
          if given.hideTokens then
            .error (.repeatedOption text)
          else
            readArguments { given with hideTokens := true } rest
      | .showTree =>
          if given.showTree then
            .error (.repeatedOption text)
          else
            readArguments { given with showTree := true } rest
      | .endOfOptions => readFiles given rest
      | .unknown => .error (.unknownOption text)
      | .file => do readArguments (← given.addFile text) rest

/-- What the arguments of a command line ask for. -/
def Request.ofArguments (arguments : List String) : Except UsageError Request :=
  readArguments {} arguments

end Command
end ToyFrontend
