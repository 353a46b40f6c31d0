import ToyFrontend.Command.Run
import ToyFrontend.Log
import ToyFrontend.Main
import ToyFrontend.Proofs.Blame.Aptness
import ToyFrontend.Proofs.Blame.Contract
import ToyFrontend.Proofs.Blame.Expression
import ToyFrontend.Proofs.Blame.Operand
import ToyFrontend.Proofs.Blame.Program
import ToyFrontend.Proofs.Blame.Statement
import ToyFrontend.Proofs.Completeness
import ToyFrontend.Proofs.Concatenation
import ToyFrontend.Proofs.Display
import ToyFrontend.Proofs.Insertion
import ToyFrontend.Proofs.LineEnd
import ToyFrontend.Proofs.Nesting.Entry
import ToyFrontend.Proofs.Nesting.Expression
import ToyFrontend.Proofs.Nesting.Height
import ToyFrontend.Proofs.Nesting.Limit
import ToyFrontend.Proofs.Nesting.Statement
import ToyFrontend.Proofs.Nesting.Verdict
import ToyFrontend.Proofs.Outline.Faithful
import ToyFrontend.Proofs.Outline.Forest
import ToyFrontend.Proofs.Outline.Label
import ToyFrontend.Proofs.Outline.Line
import ToyFrontend.Proofs.Phrase
import ToyFrontend.Proofs.Place
import ToyFrontend.Proofs.Reading.Agreement
import ToyFrontend.Proofs.Reading.Contract
import ToyFrontend.Proofs.Reading.EndMarker
import ToyFrontend.Proofs.Reading.Expression
import ToyFrontend.Proofs.Reading.Layers
import ToyFrontend.Proofs.Reading.Locality
import ToyFrontend.Proofs.Reading.Onward
import ToyFrontend.Proofs.Reading.Passage
import ToyFrontend.Proofs.Reading.Procedure
import ToyFrontend.Proofs.Reading.Program
import ToyFrontend.Proofs.Reading.Relocation
import ToyFrontend.Proofs.Reading.Session
import ToyFrontend.Proofs.Reading.Statement
import ToyFrontend.Proofs.Reading.Termination
import ToyFrontend.Proofs.Relocation
import ToyFrontend.Proofs.Report.Agreement
import ToyFrontend.Proofs.Report.Blank
import ToyFrontend.Proofs.Report.TokenTable
import ToyFrontend.Proofs.Scan.Continuation
import ToyFrontend.Proofs.Scan.Insertion
import ToyFrontend.Proofs.Scan.Layout
import ToyFrontend.Proofs.Scan.LineEnd
import ToyFrontend.Proofs.Scan.Literal
import ToyFrontend.Proofs.Scan.Longest
import ToyFrontend.Proofs.Scan.Lossless
import ToyFrontend.Proofs.Scan.Misspelling
import ToyFrontend.Proofs.Scan.Refusal
import ToyFrontend.Proofs.Scan.Separation
import ToyFrontend.Proofs.Scan.Session
import ToyFrontend.Proofs.Scan.Spelling
import ToyFrontend.Proofs.Shape
import ToyFrontend.Proofs.Snippet
import ToyFrontend.Proofs.Source.Line
import ToyFrontend.Proofs.Source.Split
import ToyFrontend.Proofs.Span
import ToyFrontend.Proofs.Text.Quoted
import ToyFrontend.Proofs.Tree
import ToyFrontend.Proofs.Words
import ToyFrontend.Reading.Session
import ToyFrontend.Report.Example
import ToyFrontend.Scan.Session
