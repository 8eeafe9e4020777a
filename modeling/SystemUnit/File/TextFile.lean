import SystemUnit.File.TextItem
import SystemUnit.File.Directory
import SystemUnit.File.Writer

namespace SystemUnit

/-!
# Text files

A text file is a name and, while it is open, a stream of bytes in one direction.  Every operation leaves a
code, except that a question about the position leaves none if it succeeds.  Main definitions:

* `TextFile` — the name and the stream;
* `TextFileM` — an operation on a text file;
* `TextFile.reset`, `TextFile.create`, `TextFile.append`, `TextFile.close` — opening and closing;
* `TextFile.write`, `TextFile.readLn`, `TextFile.read` — writing and reading;
* `TextFile.eof`, `TextFile.eoln`, `TextFile.seekEof`, `TextFile.seekEoln` — questions about the position;
* `TextFile.erase`, `TextFile.rename` — the name.
-/

/-- A file that is open for input, and what has been fetched of it. -/
structure Reader where
  node : NodeId
  offset : Nat := 0
  fetched : List UInt8 := []

/-- Performs an operation on the bytes of an open file. -/
def Reader.perform {α : Type} (r : Reader) (v : Volume) (operation : ByteStream → α × ByteStream) :
    Except HostError (α × Reader) := do
  let pending ← v.readFrom r.node r.offset ByteStream.block
  let (value, rest) := operation ⟨r.fetched, pending⟩
  let offset := r.offset + (pending.length - rest.pending.length)
  return (value, { r with offset, fetched := rest.fetched })

/-- The direction of a text file, if it is open. -/
inductive TextStream where
  | closed
  | input (r : Reader)
  | output (w : Writer)

/-- A text file. -/
structure TextFile where
  name : Option Text := none
  stream : TextStream := .closed

instance : Inhabited TextFile := ⟨{ }⟩

/-- An operation on a text file. -/
abbrev TextFileM := StateT TextFile FileM

namespace TextFile

/-- The name, or no text. -/
def fileName (f : TextFile) : Text := f.name.getD .empty

def isOpen (f : TextFile) : Bool :=
  match f.stream with
  | .closed => false
  | _ => true

/-- The name as a path. -/
def path (f : TextFile) : Option (List Char) := f.name.map Text.codePoints

/-! ### Opening and closing -/

/-- Closes the file, which first writes what is held back. -/
def release : TextFileM (Except HostError Unit) := do
  let f ← get
  set { f with stream := .closed }
  match f.stream with
  | .output w => return (← w.perform Writer.flush).1
  | _ => return .ok ()

/-- Closes the file and leaves the code of a failure. -/
def releaseReported : TextFileM Bool := do
  let path := (← get).path
  match ← release with
  | .ok _ => return true
  | .error e =>
    FileM.fail e path
    return false

/-- Lets go of the file and its name, and leaves no code. -/
def discard : TextFileM Unit := do
  let _ ← release
  set ({ } : TextFile)

/-- Closes the file and gives it a name. -/
def assign (name : Text) : TextFileM Unit := do
  let released ← release
  modify fun f => { f with name := some name }
  let _ ← FileM.report released none

/-- Opens the file, which must have a name. -/
def openAs (mode : Volume.OpenMode) (stream : NodeId → TextStream) : TextFileM Unit := do
  if ← releaseReported then
    match (← get).path with
    | none => FileM.setCode .invalidHandle
    | some path =>
      match ← FileM.report ((← FileM.volume).openFile path mode) (some path) with
      | some (id, v) =>
        FileM.setVolume v
        modify fun f => { f with stream := stream id }
      | none => return

/-- Opens the file for input. -/
def reset : TextFileM Unit := openAs { } fun node => .input { node }

/-- Opens the file for output; what it held is lost. -/
def create : TextFileM Unit :=
  openAs { writes := true, creates := true, truncates := true }
    fun node => .output { node, offset := 0, appends := false }

/-- Opens the file for output at its end. -/
def append : TextFileM Unit :=
  openAs { writes := true, creates := true } fun node => .output { node, offset := 0, appends := true }

/-- Closes the file. -/
def close : TextFileM Unit := do
  if (← get).isOpen then
    if ← releaseReported then FileM.setCode .success
  else FileM.setCode .fileNotOpen

/-! ### Writing -/

/-- Performs an operation on the writer of a file that is open for output. -/
def output (operation : WriterM Unit) : TextFileM (Option (Except HostError Unit)) := do
  match (← get).stream with
  | .output w =>
    let (outcome, w) ← w.perform operation
    modify fun f => { f with stream := .output w }
    return some outcome
  | .input _ =>
    FileM.setCode .invalidAccessMode
    return none
  | .closed =>
    FileM.setCode .fileNotOpen
    return none

/-- Writes what is held back; a file that is open for input has nothing held back. -/
def flush : TextFileM Unit := do
  let f ← get
  match f.stream with
  | .input _ => FileM.setCode .success
  | _ =>
    if let some outcome ← output Writer.flush then
      let _ ← FileM.report outcome f.path

/-- Writes parts, up to the first that fails. -/
def writeParts (parts : List (List Char)) : TextFileM Unit := do
  if let some outcome ← output (parts.forM fun part => Writer.write (Utf8.encode part)) then
    let _ ← FileM.report outcome none

/-- Writes a value. -/
def write (value : Argument) : TextFileM Unit := writeParts value.parts

/-- Writes a value and ends the line. -/
def writeLn (value : Argument) : TextFileM Unit := writeParts (value.parts ++ [['\n']])

/-- Ends the line. -/
def newLine : TextFileM Unit := writeParts [['\n']]

/-! ### Reading -/

/-- Performs an operation on the bytes of a file that is open for input; a failure leaves its code. -/
def input {α : Type} (operation : ByteStream → α × ByteStream) : TextFileM (Option α) := do
  match (← get).stream with
  | .input r =>
    match r.perform (← FileM.volume) operation with
    | .ok (value, r) =>
      modify fun f => { f with stream := .input r }
      return some value
    | .error e =>
      FileM.fail e none
      return none
  | .output _ =>
    FileM.setCode .invalidAccessMode
    return none
  | .closed =>
    FileM.setCode .fileNotOpen
    return none

/-- The rest of the line, without its end. -/
def readLn : TextFileM Text := do
  match ← input ByteStream.line with
  | some line =>
    FileM.setCode .success
    return .ofUtf8 (stripLineEnd line)
  | none => return .empty

/-- The next value of a type; it is an error if there is none. -/
def read (type : TextItem) : TextFileM (Option Argument) := do
  match ← input (·.item type) with
  | some value =>
    FileM.setCode (if value.isSome then .success else .ioError)
    return value
  | none => return none

/-! ### The position -/

/-- The next byte; none also if reading fails. -/
def peek : TextFileM (Option UInt8) := return (← input ByteStream.peek).join

/-- Whether nothing is left to be read. -/
def eof : TextFileM Bool := return (← peek).isNone

/-- Whether nothing is left of the line. -/
def eoln : TextFileM Bool := return (← peek).all fun b => b == 0x0A || b == 0x0D

/-- Takes spaces and tabs. -/
def skipSpaces : TextFileM Unit := do
  let _ ← input (·.span fun b => b == 0x20 || b == 0x09)

/-- Whether nothing but spaces and tabs is left to be read; they are taken. -/
def seekEof : TextFileM Bool := do
  skipSpaces
  eof

/-- Whether nothing but spaces and tabs is left of the line; they are taken. -/
def seekEoln : TextFileM Bool := do
  skipSpaces
  eoln

/-! ### The name -/

/-- Closes the file and takes its name away from the volume, unless what is held back cannot be written. -/
def erase : TextFileM Unit := do
  if ← releaseReported then
    match (← get).name with
    | some name =>
      let _ ← deleteFile name
    | none => FileM.setCode .invalidHandle

/-- Closes the file and gives it another name, which it keeps if the volume accepts it. -/
def rename (new : Text) : TextFileM Unit := do
  if ← releaseReported then
    match (← get).name with
    | some name =>
      if ← renameFile name new then modify fun f => { f with name := some new }
    | none => FileM.setCode .invalidHandle

end TextFile

end SystemUnit
