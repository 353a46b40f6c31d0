import ToyFrontend.Diagnostic
import ToyFrontend.Source.Line
import ToyFrontend.Text.Blank
import ToyFrontend.Text.Padding

namespace ToyFrontend
namespace Diagnostic

/-!
The snippet that shows an error inside its source line.  Indentation is not
shown, and the caret moves to the left with the text it points at.
-/

/-- Indentation is made of spaces and tabs. -/
def isIndent (character : Char) : Bool :=
  character == ' ' || character == '\t'

/-- The first line of a snippet: the cause and the advice, if there is any. -/
def headline (diagnostic : Diagnostic) : String :=
  match diagnostic.tip? with
  | none => "Error: " ++ diagnostic.name
  | some tip => "Error: " ++ diagnostic.name ++ " (" ++ tip ++ ")"

/-- The lines of a snippet, for a document with the given name. -/
def snippetLines (diagnostic : Diagnostic) (source file : String) : List String :=
  let position := diagnostic.position
  let number := toString position.line
  let gutter := Text.padLeft ' ' (number.length + 2) "|"
  let line := (Source.line? source.toList position.line).getD []
  let indent := (line.takeWhile isIndent).length
  let shown := String.ofList (Text.trimEnd (line.dropWhile isIndent))
  let width := position.column - 1 - indent + 1
  [headline diagnostic,
    "-> " ++ file,
    gutter,
    number ++ " | " ++ shown,
    gutter ++ " " ++ Text.padLeft '-' width "^"]

/-- A snippet as one text. -/
def snippet (diagnostic : Diagnostic) (source file : String) : String :=
  String.join ((diagnostic.snippetLines source file).map fun line => line ++ "\n")

end Diagnostic
end ToyFrontend
