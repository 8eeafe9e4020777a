import SystemUnit.File.Directory
import SystemUnit.Record

namespace SystemUnit

/-!
# Binary files

A binary file is a name and, while it is open, a position in bytes from the start.  Positions and sizes that
go in and out count records if a size of records is set, and bytes otherwise.  Every operation leaves a code.
Main definitions:

* `BinaryFile` — the name, the open file and the size of records;
* `BinaryFileM` — an operation on a binary file;
* `BinaryFile.reset`, `BinaryFile.create`, `BinaryFile.close` — opening and closing;
* `BinaryFile.read`, `BinaryFile.write` and the operations on blocks — records and bytes;
* `BinaryFile.seek`, `BinaryFile.filePos`, `BinaryFile.fileSize`, `BinaryFile.eof` — the position;
* `BinaryFile.truncate`, `BinaryFile.erase`, `BinaryFile.rename` — the end and the name.
-/

/-- An open binary file. -/
structure OpenBinary where
  node : NodeId
  access : FileMode
  offset : Nat := 0

/-- A binary file. -/
structure BinaryFile where
  name : Option Text := none
  file : Option OpenBinary := none
  recordSize : Option Nat := none

instance : Inhabited BinaryFile := ⟨{ }⟩

/-- An operation on a binary file. -/
abbrev BinaryFileM := StateT BinaryFile FileM

namespace BinaryFile

/-- The name, or no text. -/
def fileName (f : BinaryFile) : Text := f.name.getD .empty

def isOpen (f : BinaryFile) : Bool := f.file.isSome

/-- The number of bytes that a position counts. -/
def unit (f : BinaryFile) : Nat := f.recordSize.getD 1

/-! ### Opening and closing -/

/-- Closes the file and gives it a name; there is no size of records any more. -/
def assign (name : Text) : BinaryFileM Unit := do
  set ({ name := some name } : BinaryFile)
  FileM.setCode .success

/-- Lets go of the file and its name, and leaves no code. -/
def discard : BinaryFileM Unit := set ({ } : BinaryFile)

/-- Sets the size of records; there is none if it is not positive. -/
def setRecordSize (size : Int) : BinaryFileM Unit :=
  modify fun f => { f with recordSize := if 0 < size then some size.toNat else none }

/-- Opens a file as one of several modes says, the next being tried if access is denied. -/
def openFirst (v : Volume) (path : List Char) :
    List (FileMode × Volume.OpenMode) → Except HostError (OpenBinary × Volume)
  | [] => .error .denied
  | (access, mode) :: rest =>
    match v.openFile path mode with
    | .ok (node, v) => .ok ({ node, access }, v)
    | .error .denied => openFirst v path rest
    | .error e => .error e

/-- Opens the file, which must have a name. -/
def openAs (modes : List (FileMode × Volume.OpenMode)) : BinaryFileM Unit := do
  modify fun f => { f with file := none }
  match (← get).name with
  | none => FileM.setCode .invalidHandle
  | some name =>
    match ← FileM.report (openFirst (← FileM.volume) name.codePoints modes) name.codePoints with
    | some (file, v) =>
      FileM.setVolume v
      modify fun f => { f with file := some file }
    | none => return

/-- The ways in which a file that exists is opened: to read and to write, or else only to read. -/
def resetModes : FileMode → List (FileMode × Volume.OpenMode)
  | .readWrite => [(.readWrite, { writes := true }), (.readOnly, { })]
  | access => [(access, { writes := access.canWrite })]

/-- Opens a file that exists, in the mode for binary files. -/
def reset : BinaryFileM Unit := do
  openAs (resetModes (← FileM.mode))

/-- Opens a file to read and to write; what it held is lost. -/
def create : BinaryFileM Unit :=
  openAs [(.readWrite, { writes := true, creates := true, truncates := true })]

/-- Closes the file. -/
def close : BinaryFileM Unit := do
  FileM.setCode (if (← get).isOpen then .success else .fileNotOpen)
  modify fun f => { f with file := none }

/-- The open file, if its access is permitted. -/
def handle (permitted : FileMode → Bool) : BinaryFileM (Option OpenBinary) := do
  match (← get).file with
  | none =>
    FileM.setCode .fileNotOpen
    return none
  | some file =>
    if permitted file.access then return some file
    FileM.setCode .invalidAccessMode
    return none

/-- Moves the position. -/
def moveTo (offset : Nat) : BinaryFileM Unit :=
  modify fun f => { f with file := f.file.map fun file => { file with offset } }

/-- Leaves success: nothing is held back. -/
def flush : BinaryFileM Unit := do
  if (← handle fun _ => true).isSome then FileM.setCode .success

/-! ### Bytes and records -/

/-- Reads bytes from the position on, fewer at the end of the file, and moves the position behind them. -/
def take (file : OpenBinary) (count : Nat) : BinaryFileM (Option (List UInt8)) := do
  let v ← FileM.volume
  let outcome := if count = 0 then .ok [] else v.readAt file.node file.offset count
  let bytes ← FileM.report outcome none
  moveTo (file.offset + (bytes.map List.length).getD 0)
  return bytes

/-- Writes bytes from the position on and moves the position behind them. -/
def put (file : OpenBinary) (bytes : List UInt8) : BinaryFileM Bool := do
  let written ← FileM.attempt (·.writeAt file.node file.offset bytes) none
  if written then moveTo (file.offset + bytes.length)
  return written

/-- Reads a record; it is an error if the file ends before its end. -/
def read (r : RecordType) : BinaryFileM (Option r.Value) := do
  match ← handle FileMode.canRead with
  | none => return none
  | some file =>
    match ← take file r.size with
    | none => return none
    | some bytes =>
      let value := r.decode? bytes
      if value.isNone then FileM.setCode .ioError
      return value

/-- Writes a record. -/
def write (r : RecordType) (value : r.Value) : BinaryFileM Unit := do
  if let some file ← handle FileMode.canWrite then
    let _ ← put file (r.encode value)

/-- The count of no records. -/
def noRecords : Whole .integer := Whole.ofNat .integer 0

/-- Reads at most `count` records into a buffer, as many as it has room for; the number of whole records that
    were read, and the buffer.  A block that would reach behind the greatest offset is refused. -/
def blockRead (buffer : List UInt8) (count : Int) : BinaryFileM (Whole .integer × List UInt8) := do
  let unit := (← get).unit
  match ← handle FileMode.canRead with
  | none => return (noRecords, buffer)
  | some file =>
    let wanted := min count.toNat (buffer.length / unit) * unit
    if !(← FileM.volume).mayMoveTo file.node (file.offset + wanted) then
      FileM.setCode .ioError
      return (noRecords, buffer)
    match ← take file wanted with
    | none => return (noRecords, buffer)
    | some bytes =>
      return (Whole.ofNat .integer (bytes.length / unit), bytes ++ buffer.drop bytes.length)

/-- Writes at most `count` records of a buffer, as many as are in it; the number of records written. -/
def blockWrite (buffer : List UInt8) (count : Int) : BinaryFileM (Whole .integer) := do
  let unit := (← get).unit
  match ← handle FileMode.canWrite with
  | none => return noRecords
  | some file =>
    let records := min count.toNat (buffer.length / unit)
    if ← put file (buffer.take (records * unit)) then return Whole.ofNat .integer records
    return noRecords

/-- Reads at most `count` records of a type, as many as are left. -/
def readRecords (r : RecordType) (count : Int) : BinaryFileM (List r.Value) := do
  let size := max r.size 1
  match ← handle FileMode.canRead with
  | none => return []
  | some file =>
    let v ← FileM.volume
    let left := v.sizeOf file.node - v.offsetIn file.node file.offset
    match ← take file (min count.toNat (left / size) * size) with
    | none => return []
    | some bytes => return r.decodeAll (bytes.length / size) bytes

/-- Writes records of a type; the number of records written. -/
def writeRecords (r : RecordType) (items : List r.Value) : BinaryFileM (Whole .integer) := do
  match ← handle FileMode.canWrite with
  | none => return noRecords
  | some file =>
    if ← put file (items.flatMap r.encode) then return Whole.ofNat .integer items.length
    return noRecords

/-! ### The position -/

/-- The first offset that no file and no device can have. -/
def offsetLimit : Nat := 0x10000000000000000

/-- Moves the position, unless it is negative or too great. -/
def seek (position : Int) : BinaryFileM Unit := do
  let unit := (← get).unit
  if let some file ← handle fun _ => true then
    let offset := position.toNat * unit
    if 0 ≤ position ∧ offset < offsetLimit ∧ (← FileM.volume).mayMoveTo file.node offset then
      moveTo offset
      FileM.setCode .success
    else FileM.setCode .ioError

/-- The value of a question about an open file and its volume, or another one if the file is not open. -/
def ask {α : Type} (closed : α) (question : Volume → OpenBinary → Nat → α) : BinaryFileM α := do
  let unit := (← get).unit
  match ← handle fun _ => true with
  | none => return closed
  | some file =>
    FileM.setCode .success
    return question (← FileM.volume) file unit

/-- The position, or -1 if the file is not open. -/
def filePos : BinaryFileM (Whole .int64) :=
  ask (Whole.ofInt .int64 (-1)) fun v file unit =>
    Whole.ofNat .int64 (v.offsetIn file.node file.offset / unit)

/-- The size of the file, or -1 if it is not open. -/
def fileSize : BinaryFileM (Whole .int64) :=
  ask (Whole.ofInt .int64 (-1)) fun v file unit => Whole.ofNat .int64 (v.sizeOf file.node / unit)

/-- Whether the position is not before the end; so it is if the file is not open. -/
def eof : BinaryFileM Bool :=
  ask true fun v file _ => v.sizeOf file.node ≤ v.offsetIn file.node file.offset

/-- Cuts the file at the position. -/
def truncate : BinaryFileM Unit := do
  if let some file ← handle FileMode.canWrite then
    let _ ← FileM.attempt (fun v => v.resize file.node (v.offsetIn file.node file.offset)) none

/-! ### The name -/

/-- Closes the file and takes its name away from the volume. -/
def erase : BinaryFileM Unit := do
  modify fun f => { f with file := none }
  match (← get).name with
  | some name =>
    let _ ← deleteFile name
  | none => FileM.setCode .invalidHandle

/-- Closes the file and gives it another name, which it keeps if the volume accepts it. -/
def rename (new : Text) : BinaryFileM Unit := do
  modify fun f => { f with file := none }
  match (← get).name with
  | some name =>
    if ← renameFile name new then modify fun f => { f with name := some new }
  | none => FileM.setCode .invalidHandle

end BinaryFile

end SystemUnit
