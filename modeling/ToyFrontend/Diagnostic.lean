import ToyFrontend.Diagnostic.LexicalError
import ToyFrontend.Diagnostic.SyntaxError

namespace ToyFrontend

/-!
Diagnostics.  A document is refused for its first error, which is either lexical
or syntactic; what both have in common is what a reader of messages needs.
-/

/-- Why a document is refused. -/
inductive Diagnostic where
  | lexical (error : LexicalError)
  | syntactic (error : SyntaxError)
deriving DecidableEq, Repr

namespace Diagnostic

/-- The place that is blamed. -/
def position : Diagnostic -> Source.Position
  | .lexical error => error.position
  | .syntactic error => error.position

/-- The name of the cause. -/
def name : Diagnostic -> String
  | .lexical error => error.cause.name
  | .syntactic error => error.cause.name

/-- Advice on how to mend the document. -/
def tip? : Diagnostic -> Option String
  | .lexical error => error.tip?
  | .syntactic error => error.tip?

/-- The cause, the place and the text at fault in one sentence. -/
def message : Diagnostic -> String
  | .lexical error => error.message
  | .syntactic error => error.message

/-- The message with the phase that refused the document. -/
def describe : Diagnostic -> String
  | .lexical error => "lexical error: " ++ error.message
  | .syntactic error => "syntax error: " ++ error.message

/-- Is it the characters, and not the tokens, that are at fault? -/
def isLexical : Diagnostic -> Bool
  | .lexical _ => true
  | .syntactic _ => false

end Diagnostic
end ToyFrontend
