import SystemUnit.Text.CodePoints

namespace SystemUnit

/-!
# The command line

The command line is the name of the program and its parameters.  It is captured once.
-/

/-- The name of the program, and its parameters. -/
structure CommandLine where
  arguments : List Text

namespace CommandLine

/-- The number of parameters. -/
def paramCount (c : CommandLine) : Whole .integer :=
  Whole.ofNat .integer (c.arguments.length - 1)

/-- The parameter of a number; number 0 is the name of the program, and any other number gives an empty
    text. -/
def paramStr (c : CommandLine) (index : Int) : Text :=
  if index < 0 then Text.empty else (c.arguments[index.toNat]?).getD Text.empty

/-- Captures a command line unless one has been captured before. -/
def capture (captured : Option CommandLine) (arguments : List Text) : CommandLine :=
  captured.getD ⟨arguments⟩

end CommandLine

end SystemUnit
