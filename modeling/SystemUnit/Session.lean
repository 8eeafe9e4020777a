import SystemUnit.Fault
import SystemUnit.Random
import SystemUnit.CommandLine
import SystemUnit.File.Context

namespace SystemUnit

/-!
# Sessions

What the parts of a running program share: the message of the last fault, the file operations, the random
numbers and the command line.  Main definitions:

* `Session` — the shared state;
* `Session.outcome` — the outcome of an operation that may fail;
* `Session.startup`, `Session.commandLine` — the command line, captured once.
-/

/-- What the parts of a running program share.  `host` is the command line that the host gives. -/
structure Session where
  message : Text := .empty
  files : FileContext := { }
  generator : Generator := default
  captured : Option CommandLine := none
  host : CommandLine := ⟨[]⟩

instance : Inhabited Session := ⟨{ }⟩

/-- An operation on the shared state. -/
abbrev SessionM := StateM Session

namespace Session

/-- The outcome of an operation; the message of a fault becomes the last one. -/
def outcome {α : Type} (result : Except Fault α) : SessionM (Except Fault α) := do
  if let .error fault := result then modify fun s => { s with message := fault.message }
  return result

/-- Performs a file operation. -/
def file {α : Type} (operation : FileM α) : SessionM α := do
  let s ← get
  let (value, files) := operation.run s.files
  set { s with files }
  return value

/-- Captures the command line, unless that has been done before. -/
def startup (arguments : List Text) : SessionM Unit :=
  modify fun s => { s with captured := some (CommandLine.capture s.captured arguments) }

/-- The command line that was captured, or else that of the host. -/
def commandLine (s : Session) : CommandLine := s.captured.getD s.host

end Session

end SystemUnit
