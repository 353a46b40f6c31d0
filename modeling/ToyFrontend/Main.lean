import ToyFrontend.Command.Run

/-!
The command line.  All decisions are made by `ToyFrontend.Command`; what is left
here is to read a file and to write to the two outputs.
-/

namespace ToyFrontend
namespace Command

/-- Does a code of the operating system have this number?  Some of its calls report
the number with the opposite sign. -/
def hasNumber (code number : UInt32) : Bool :=
  code == number || code == 0 - number

/-- What the operating system says about a file that cannot be read. -/
def LoadError.ofIOError : IO.Error -> LoadError
  | .noFileOrDirectory .. => .notFound
  | .inappropriateType _ code _ =>
      if hasNumber code 20 then .notADirectory else .isADirectory
  | error@(.invalidArgument _ code _) =>
      if hasNumber code 36 then .nameTooLong else .other (toString error)
  | error => .other (toString error)

/-- Load a file from disk. -/
def loadFile (path : String) : IO (Except LoadError ByteArray) :=
  try
    return .ok (← IO.FS.readBinFile path)
  catch error =>
    return .error (.ofIOError error)

/-- Run the command in the working directory. -/
def runInPlace (arguments : List String) : IO Output := do
  match Request.ofArguments arguments with
  | .ok (.analyze path options) => return onFile path options (← loadFile path)
  | _ => return run .empty arguments

end Command
end ToyFrontend

/-- The entry point of the program. -/
def main (arguments : List String) : IO UInt32 := do
  let output ← ToyFrontend.Command.runInPlace arguments
  (← IO.getStdout).putStr output.stdout
  (← IO.getStderr).putStr output.stderr
  return output.code
