namespace ToyFrontend
namespace SyntaxTree

/-!
The bound on nesting.  Expressions and blocks may stand inside one another up to
a fixed number of levels, so that no document makes reading go deeper than that.
-/

/-- The deepest level of expressions and blocks that a program may have. -/
def nestingLimit : Nat := 256

end SyntaxTree
end ToyFrontend
