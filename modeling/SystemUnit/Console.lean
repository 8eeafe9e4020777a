import SystemUnit.File.TextItem
import SystemUnit.File.Context

namespace SystemUnit

/-!
# Standard input and output

The console is read by lines and written by values; like a file, it leaves a code.  Main definitions:

* `Console.Output` — what has been written, and the error of a destination that takes nothing;
* `Console.write`, `Console.writeLn` — a value goes out;
* `Console.readLn` — a line comes in.
-/

namespace Console

/-- What has been written to a destination; with an error, the destination takes nothing. -/
structure Output where
  written : List UInt8 := []
  refusal : Option HostError := none

instance : Inhabited Output := ⟨{ }⟩

/-- The outcome of writing parts to a destination; the first part fails if the destination takes nothing. -/
def Output.add (out : Output) (parts : List (List Char)) : Except HostError Output :=
  match parts, out.refusal with
  | _ :: _, some e => .error e
  | _, _ => .ok { out with written := out.written ++ parts.flatMap Utf8.encode }

/-- Writes parts. -/
def writeParts (parts : List (List Char)) : StateT Output FileM Unit := do
  match ← FileM.report ((← get).add parts) none with
  | some out => set out
  | none => return

/-- Writes a value. -/
def write (value : Argument) : StateT Output FileM Unit := writeParts value.parts

/-- Writes a value and ends the line. -/
def writeLn (value : Argument) : StateT Output FileM Unit := writeParts (value.parts ++ [['\n']])

/-- The next line without its end, or no text at the end of the input. -/
def readLn : StateT ByteStream FileM Text := do
  let (line, rest) := (← get).line
  set rest
  FileM.setCode .success
  return .ofUtf8 (stripLineEnd line)

end Console

end SystemUnit
