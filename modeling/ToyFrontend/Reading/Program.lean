import ToyFrontend.Diagnostic
import ToyFrontend.Reading.Statement
import ToyFrontend.Scan

namespace ToyFrontend

namespace Reading

/-!
Reading programs.  A program ends at the first end marker, or at its first error;
in the second case the statements before the error are kept as well, because a
trace shows them.
-/

open SyntaxTree (Stmt Program)

/-- What a list of tokens was read as: the statements at the top, where reading
stopped, and the error that stopped it, if one did. -/
structure Outcome where
  statements : List Stmt
  stop : Source.Position
  failure : Option SyntaxError

namespace Outcome

/-- An outcome with one more statement at its beginning. -/
def prepend (statement : Stmt) (outcome : Outcome) : Outcome :=
  { outcome with statements := statement :: outcome.statements }

/-- Read statements from a cursor on, at most as many as there are `rounds`. -/
def ofCursor : List Token -> Cursor -> Outcome
  | [], cursor => { statements := [], stop := cursor.position, failure := none }
  | _ :: rounds, cursor =>
      if cursor.hasTokens then
        match (Statement.atTop .standard SyntaxTree.nestingLimit).run cursor with
        | .ok statement next => (ofCursor rounds next).prepend statement
        | .error error next =>
            { statements := [], stop := next.position, failure := some error }
      else
        { statements := [], stop := cursor.position, failure := none }

/-- Read a list of tokens. -/
def ofTokens (tokens : List Token) : Outcome :=
  let cursor := Cursor.ofTokens tokens
  ofCursor cursor.tokens cursor

/-- The program that was read, unless there was an error. -/
def result (outcome : Outcome) : Except SyntaxError Program :=
  match outcome.failure with
  | none =>
      .ok { body := outcome.statements, span := { start := .start, finish := outcome.stop } }
  | some error => .error error

end Outcome

end Reading

/-- The program that a list of tokens spells, or the first syntax error. -/
def parseTokens (tokens : List Token) : Except SyntaxError SyntaxTree.Program :=
  (Reading.Outcome.ofTokens tokens).result

/-- The program that a document spells, or its first error. -/
def parse (source : String) : Except Diagnostic SyntaxTree.Program :=
  match tokenize source with
  | .error error => .error (.lexical error)
  | .ok tokens =>
      match parseTokens tokens with
      | .error error => .error (.syntactic error)
      | .ok program => .ok program

end ToyFrontend
