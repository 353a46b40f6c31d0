namespace ToyFrontend
namespace Report

/-!
A sample document with every form of statement.
-/

/-- The lines of the sample. -/
def exampleLines : List String :=
  ["// Example toy language program",
    "function factorial(int n) \x7b",
    "    if (n <= 1) \x7b",
    "        return 1;",
    "    \x7d else \x7b",
    "        return n * factorial(n - 1);",
    "    \x7d",
    "\x7d",
    "",
    "var result = factorial(5);",
    "print(result);",
    "",
    "// Variable declarations",
    "int x = 10;",
    "string message = \"Hello World\";",
    "bool flag = true;",
    "",
    "// Control structures",
    "if (x > 5) \x7b",
    "    print(\"x is greater than 5\");",
    "\x7d",
    "",
    "while (x > 0) \x7b",
    "    x = x - 1;",
    "\x7d"]

/-- A sample document. -/
def exampleProgram : String :=
  String.join (exampleLines.map fun line => line ++ "\n")

end Report
end ToyFrontend
