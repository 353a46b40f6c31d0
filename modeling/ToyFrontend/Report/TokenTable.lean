import ToyFrontend.Text.Padding
import ToyFrontend.Token

namespace ToyFrontend
namespace Report

/-!
The table of tokens: one row for each token, with its kind, its value and the
place where it begins.
-/

/-- One row, in columns that are wide enough for the usual document. -/
def row (kind value line column : String) : String :=
  Text.padRight 16 kind ++ " " ++ Text.padRight 24 value ++ " " ++
    Text.padLeft ' ' 5 line ++ " " ++ Text.padLeft ' ' 7 column ++ "\n"

/-- The row of a token. -/
def tokenRow (token : Token) : String :=
  row token.kind.name token.shown (toString token.span.start.line)
    (toString token.span.start.column)

/-- The rule below the headings. -/
def rule : String :=
  String.ofList (List.replicate 55 '-') ++ "\n"

/-- The table of a list of tokens. -/
def tokenTable (tokens : List Token) : String :=
  row "Type" "Value" "Line" "Column" ++ rule ++ String.join (tokens.map tokenRow)

end Report
end ToyFrontend
