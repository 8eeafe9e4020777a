import SystemUnit.File.TextFile
import SystemUnit.File.BinaryFile
import SystemUnit.Proofs.File.Perform

namespace SystemUnit

/-!
# The operations on files

All operations on text files, and all on binary files, each with its answer.

* `TextFile.Operation`, `TextFile.Operation.act` — the operations on a text file, and what each does;
* `BinaryFile.Operation`, `BinaryFile.Operation.act` — the same for a binary file;
* `TextFile.perform_output`, `TextFile.perform_input` — an operation gets hold of the writer of a file that is
  open for output, or of the reader of one that is open for input;
* `TextFile.released`, `TextFile.perform_release` — what the host answers when a text file is closed;
* `BinaryFile.perform_handle` — an operation gets hold of the open file if its access is permitted;
* `BinaryFile.taken`, `BinaryFile.perform_take`, `BinaryFile.perform_put` — bytes from the position on.
-/

open FileM

/-! ### Text files -/

namespace TextFile

/-- The operations on a text file. -/
inductive Operation where
  | assign (name : Text)
  | reset
  | create
  | append
  | close
  | flush
  | write (value : Argument)
  | writeLn (value : Argument)
  | newLine
  | readLn
  | read (type : TextItem)
  | eof
  | eoln
  | seekEof
  | seekEoln
  | erase
  | rename (new : Text)

/-- The answers of operations on a text file. -/
inductive Answer where
  | done
  | line (t : Text)
  | value (a : Option Argument)
  | truth (b : Bool)

/-- What an operation does. -/
def Operation.act : Operation → TextFileM Answer
  | assign name => (fun _ => .done) <$> TextFile.assign name
  | reset => (fun _ => .done) <$> TextFile.reset
  | create => (fun _ => .done) <$> TextFile.create
  | append => (fun _ => .done) <$> TextFile.append
  | close => (fun _ => .done) <$> TextFile.close
  | flush => (fun _ => .done) <$> TextFile.flush
  | write value => (fun _ => .done) <$> TextFile.write value
  | writeLn value => (fun _ => .done) <$> TextFile.writeLn value
  | newLine => (fun _ => .done) <$> TextFile.newLine
  | readLn => .line <$> TextFile.readLn
  | read type => .value <$> TextFile.read type
  | eof => .truth <$> TextFile.eof
  | eoln => .truth <$> TextFile.eoln
  | seekEof => .truth <$> TextFile.seekEof
  | seekEoln => .truth <$> TextFile.seekEoln
  | erase => (fun _ => .done) <$> TextFile.erase
  | rename new => (fun _ => .done) <$> TextFile.rename new

/-! #### What an operation gets hold of -/

/-- What the host answers when the file is closed, and the volume then, with what was held back. -/
def released (f : TextFile) (v : Volume) : Except HostError Unit × Volume :=
  match f.stream with
  | .output w => ((w.effect v Writer.flush).1, (w.effect v Writer.flush).2.2)
  | _ => (.ok (), v)

variable (f : TextFile) (c : FileContext)

/-- A file is closed, and what is held back goes to it. -/
theorem perform_release :
    perform release (f, c) =
      ((f.released c.volume).1, { f with stream := .closed }, { c with volume := (f.released c.volume).2 }) := by
  unfold release released
  cases h : f.stream <;> simp [h]

/-- A failure to close it leaves its code, and the rest is not done. -/
theorem perform_releaseReported :
    perform releaseReported (f, c) =
      match f.released c.volume with
      | (.ok _, v) => (true, { f with stream := .closed }, { c with volume := v })
      | (.error e, v) =>
        (false, { f with stream := .closed }, { c with volume := v, result := e.toCode v f.path }) := by
  unfold releaseReported
  simp only [perform_bind, perform_get, perform_release]
  rcases f.released c.volume with ⟨_ | _, v⟩ <;> simp

theorem perform_output (operation : WriterM Unit) :
    perform (output operation) (f, c) =
      match f.stream with
      | .output w =>
        (some (w.effect c.volume operation).1, { f with stream := .output (w.effect c.volume operation).2.1 },
          { c with volume := (w.effect c.volume operation).2.2 })
      | .input _ => (none, f, { c with result := .invalidAccessMode })
      | .closed => (none, f, { c with result := .fileNotOpen }) := by
  unfold output
  cases h : f.stream <;> simp [h]

theorem perform_input {α : Type} (operation : ByteStream → α × ByteStream) :
    perform (input operation) (f, c) =
      match f.stream with
      | .input r =>
        match r.perform c.volume operation with
        | .ok (value, r) => (some value, { f with stream := .input r }, c)
        | .error e => (none, f, { c with result := e.toCode c.volume none })
      | .output _ => (none, f, { c with result := .invalidAccessMode })
      | .closed => (none, f, { c with result := .fileNotOpen }) := by
  unfold input
  cases h : f.stream with
  | input r =>
    simp only [perform_bind, perform_get, perform_volume, h]
    -- only a host that fails leaves a code here; whether there was a value is told by what comes next
    rcases r.perform c.volume operation with _ | ⟨value, r'⟩ <;> simp
  | output w | closed => simp [h]

end TextFile

/-! ### Binary files -/

namespace BinaryFile

/-- The operations on a binary file; a size given to `reset` or `create` is that of records. -/
inductive Operation where
  | assign (name : Text)
  | reset (size : Option Int)
  | create (size : Option Int)
  | close
  | flush
  | read (r : RecordType)
  | write (r : RecordType) (value : r.Value)
  | blockRead (buffer : List UInt8) (count : Int)
  | blockWrite (buffer : List UInt8) (count : Int)
  | readRecords (r : RecordType) (count : Int)
  | writeRecords (r : RecordType) (items : List r.Value)
  | seek (position : Int)
  | filePos
  | fileSize
  | eof
  | truncate
  | erase
  | rename (new : Text)

/-- The answers of operations on a binary file. -/
inductive Answer where
  | done
  | record (r : RecordType) (value : Option r.Value)
  | records (r : RecordType) (values : List r.Value)
  | block (count : Whole .integer) (buffer : List UInt8)
  | count (n : Whole .integer)
  | position (n : Whole .int64)
  | truth (b : Bool)

/-- Sets the size of records if one is given. -/
def sized (size : Option Int) (operation : BinaryFileM Unit) : BinaryFileM Unit := do
  size.forM setRecordSize
  operation

/-- What an operation does. -/
def Operation.act : Operation → BinaryFileM Answer
  | assign name => (fun _ => .done) <$> BinaryFile.assign name
  | reset size => (fun _ => .done) <$> sized size BinaryFile.reset
  | create size => (fun _ => .done) <$> sized size BinaryFile.create
  | close => (fun _ => .done) <$> BinaryFile.close
  | flush => (fun _ => .done) <$> BinaryFile.flush
  | read r => .record r <$> BinaryFile.read r
  | write r value => (fun _ => .done) <$> BinaryFile.write r value
  | blockRead buffer count => (fun x => .block x.1 x.2) <$> BinaryFile.blockRead buffer count
  | blockWrite buffer count => .count <$> BinaryFile.blockWrite buffer count
  | readRecords r count => .records r <$> BinaryFile.readRecords r count
  | writeRecords r items => .count <$> BinaryFile.writeRecords r items
  | seek position => (fun _ => .done) <$> BinaryFile.seek position
  | filePos => .position <$> BinaryFile.filePos
  | fileSize => .position <$> BinaryFile.fileSize
  | eof => .truth <$> BinaryFile.eof
  | truncate => (fun _ => .done) <$> BinaryFile.truncate
  | erase => (fun _ => .done) <$> BinaryFile.erase
  | rename new => (fun _ => .done) <$> BinaryFile.rename new

/-! #### What an operation gets hold of -/

/-- What the host answers when bytes are read from the position on. -/
def taken (v : Volume) (file : OpenBinary) (count : Nat) : Except HostError (List UInt8) :=
  if count = 0 then .ok [] else v.readAt file.node file.offset count

variable (f : BinaryFile) (c : FileContext)

theorem perform_handle (permitted : FileMode → Bool) :
    perform (handle permitted) (f, c) =
      match f.file with
      | none => (none, f, { c with result := .fileNotOpen })
      | some file =>
        if permitted file.access then (some file, f, c)
        else (none, f, { c with result := .invalidAccessMode }) := by
  unfold handle
  rw [perform_bind, perform_get]
  cases f.file with
  | none => rfl
  | some file => simp

/-- Moving the position moves it in the open file. -/
@[simp] theorem perform_moveTo (offset : Nat) :
    perform (moveTo offset) (f, c) = ((), { f with file := f.file.map ({ · with offset }) }, c) := rfl

theorem perform_take (file : OpenBinary) (count : Nat) :
    perform (take file count) (f, c) =
      ((taken c.volume file count).toOption,
        (perform (moveTo (file.offset + ((taken c.volume file count).toOption.map List.length).getD 0))
          (f, { c with result := c.volume.codeOf (taken c.volume file count) none })).2) := by
  unfold take taken
  simp only [perform_bind, perform_volume, perform_report]
  rfl

theorem perform_put (file : OpenBinary) (bytes : List UInt8) :
    perform (put file bytes) (f, c) =
      match c.volume.writeAt file.node file.offset bytes with
      | .ok v =>
        (true, (perform (moveTo (file.offset + bytes.length)) (f, { c with volume := v, result := .success })).2)
      | .error e => (false, f, { c with result := e.toCode c.volume none }) := by
  unfold put
  rw [perform_bind, perform_attempt]
  cases c.volume.writeAt file.node file.offset bytes <;> rfl

end BinaryFile

end SystemUnit
