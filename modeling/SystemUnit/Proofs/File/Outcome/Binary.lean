import SystemUnit.Proofs.File.Operation

namespace SystemUnit

/-!
# Outcomes of operations on binary files

An operation on a binary file leaves the code of its own outcome.

* `BinaryFile.outcome` — the code of an operation, told by the file, the volume and the mode for binary files;
* `BinaryFile.result_operation` — an operation leaves that code.
-/

open FileM

namespace BinaryFile

/-- The code of an operation that needs the name. -/
def whenNamed (f : BinaryFile) (next : Text → IoCode) : IoCode := f.name.elim .invalidHandle next

/-- The code of an operation that opens the file. -/
def openCode (f : BinaryFile) (v : Volume) (modes : List (FileMode × Volume.OpenMode)) : IoCode :=
  f.whenNamed fun name => v.codeOf (openFirst v name.codePoints modes) name.codePoints

/-- The code of an operation on the open file, whose access has to be permitted. -/
def whenPermitted (f : BinaryFile) (permitted : FileMode → Bool) (next : OpenBinary → IoCode) : IoCode :=
  match f.file with
  | none => .fileNotOpen
  | some file => if permitted file.access then next file else .invalidAccessMode

/-- The number of bytes of at most `count` records of a buffer. -/
def blockSize (f : BinaryFile) (buffer : List UInt8) (count : Int) : Nat :=
  min count.toNat (buffer.length / f.unit) * f.unit

/-- The number of bytes of at most `count` records of a type, of those that are left. -/
def recordsSize (v : Volume) (file : OpenBinary) (r : RecordType) (count : Int) : Nat :=
  min count.toNat ((v.sizeOf file.node - v.offsetIn file.node file.offset) / max r.size 1) * max r.size 1

/-- **The code of an operation by its own outcome.** -/
def outcome (f : BinaryFile) (v : Volume) (mode : FileMode) : Operation → IoCode
  | .assign _ => .success
  | .reset _ => f.openCode v (resetModes mode)
  | .create _ => f.openCode v [(.readWrite, { writes := true, creates := true, truncates := true })]
  | .close => if f.isOpen then .success else .fileNotOpen
  | .flush | .filePos | .fileSize | .eof => f.whenPermitted (fun _ => true) fun _ => .success
  | .read r =>
    f.whenPermitted FileMode.canRead fun file =>
      match taken v file r.size with
      | .ok bytes => if (r.decode? bytes).isSome then .success else .ioError
      | .error e => e.toCode v none
  | .write r value =>
    f.whenPermitted FileMode.canWrite fun file => v.codeOf (v.writeAt file.node file.offset (r.encode value)) none
  | .blockRead buffer count =>
    f.whenPermitted FileMode.canRead fun file =>
      if v.mayMoveTo file.node (file.offset + f.blockSize buffer count) then
        v.codeOf (taken v file (f.blockSize buffer count)) none
      else .ioError
  | .blockWrite buffer count =>
    f.whenPermitted FileMode.canWrite fun file =>
      v.codeOf (v.writeAt file.node file.offset (buffer.take (f.blockSize buffer count))) none
  | .readRecords r count =>
    f.whenPermitted FileMode.canRead fun file => v.codeOf (taken v file (recordsSize v file r count)) none
  | .writeRecords r items =>
    f.whenPermitted FileMode.canWrite fun file =>
      v.codeOf (v.writeAt file.node file.offset (items.flatMap r.encode)) none
  | .seek position =>
    f.whenPermitted (fun _ => true) fun file =>
      if 0 ≤ position ∧ position.toNat * f.unit < offsetLimit ∧ v.mayMoveTo file.node (position.toNat * f.unit)
      then .success else .ioError
  | .truncate =>
    f.whenPermitted FileMode.canWrite fun file =>
      v.codeOf (v.resize file.node (v.offsetIn file.node file.offset)) none
  | .erase => f.whenNamed fun name => v.codeOf (v.unlink name.codePoints) name.codePoints
  | .rename new => f.whenNamed fun name => v.codeOf (v.rename name.codePoints new.codePoints) name.codePoints

variable (f : BinaryFile) (c : FileContext)

/-! #### The code of each kind of operation -/

/-- The code of an operation that asks for the open file first: that of a refusal, or that of what comes then. -/
theorem result_handle {α : Type} {permitted : FileMode → Bool} {next : Option OpenBinary → BinaryFileM α}
    {code : OpenBinary → IoCode} (refused : ∀ s, (perform (next none) s).2.2.result = s.2.result)
    (given : ∀ file, (perform (next (some file)) (f, c)).2.2.result = code file) :
    (perform (handle permitted >>= next) (f, c)).2.2.result = f.whenPermitted permitted code := by
  unfold whenPermitted
  rw [perform_bind, perform_handle]
  cases f.file with
  | none => exact refused _
  | some file =>
    simp only
    split
    · exact given file
    · exact refused _

/-- The code of bytes that are read, if what comes then leaves none of its own. -/
theorem result_take {α : Type} {file : OpenBinary} {count : Nat} {next : Option (List UInt8) → BinaryFileM α}
    (h : ∀ bytes s, (perform (next bytes) s).2.2.result = s.2.result) :
    (perform (take file count >>= next) (f, c)).2.2.result = c.volume.codeOf (taken c.volume file count) none := by
  rw [perform_bind, h, perform_take]
  rfl

/-- The code of bytes that are written, if what comes then leaves none of its own. -/
theorem result_put {α : Type} {file : OpenBinary} {bytes : List UInt8} {next : Bool → BinaryFileM α}
    (h : ∀ b s, (perform (next b) s).2.2.result = s.2.result) :
    (perform (put file bytes >>= next) (f, c)).2.2.result =
      c.volume.codeOf (c.volume.writeAt file.node file.offset bytes) none := by
  rw [perform_bind, h, perform_put]
  cases c.volume.writeAt file.node file.offset bytes <;> rfl

/-- The code of a file that is opened by its name. -/
theorem result_openAs (modes : List (FileMode × Volume.OpenMode)) :
    (perform (openAs modes) (f, c)).2.2.result = f.openCode c.volume modes := by
  unfold openAs openCode whenNamed
  simp only [perform_bind, perform_modify, perform_get]
  cases f.name with
  | none => rfl
  | some name =>
    simp only [perform_bind, perform_volume, perform_report, Option.elim_some]
    cases openFirst c.volume name.codePoints modes <;> rfl

/-- The code of an operation that needs a name: without one, that of a handle that is not assigned. -/
theorem result_named {next : Text → BinaryFileM Unit} {code : Text → IoCode}
    (h : ∀ name, (perform (next name) (f, c)).2.2.result = code name) :
    (perform (do
      match (← get).name with
      | some name => next name
      | none => liftM (setCode .invalidHandle)) (f, c)).2.2.result = f.whenNamed code := by
  unfold whenNamed
  rw [perform_bind, perform_get]
  cases f.name with
  | none => rfl
  | some name => exact h name

/-- A record that is cut short, and one whose bytes stand for no value, have codes of their own. -/
theorem result_read (r : RecordType) :
    (perform (BinaryFile.read r) (f, c)).2.2.result = f.outcome c.volume c.mode (.read r) := by
  unfold BinaryFile.read
  refine result_handle f c (fun _ => rfl) fun file => ?_
  simp only
  rw [perform_bind, perform_take]
  -- a failure of the host, and then bytes that may be no value
  cases taken c.volume file r.size with
  | error e => rfl
  | ok bytes => cases value : r.decode? bytes <;> simp [Except.toOption, Volume.codeOf, value]

/-- A block whose end is out of reach is not read at all. -/
theorem result_blockRead (buffer : List UInt8) (count : Int) :
    (perform (BinaryFile.blockRead buffer count) (f, c)).2.2.result =
      f.outcome c.volume c.mode (.blockRead buffer count) := by
  unfold BinaryFile.blockRead
  rw [perform_bind, perform_get]
  refine result_handle f c (fun _ => rfl) fun file => ?_
  simp only
  rw [perform_bind, perform_volume, perform_ite]
  -- the position at the end is looked at before anything is read
  by_cases may : c.volume.mayMoveTo file.node (file.offset + f.blockSize buffer count) = true
  · rw [if_pos may]
    unfold blockSize at may
    rw [if_neg (by simp [may])]
    refine result_take f c fun bytes s => ?_
    cases bytes <;> rfl
  · rw [if_neg may]
    unfold blockSize at may
    rw [if_pos (by simpa using may)]
    rfl

theorem result_blockWrite (buffer : List UInt8) (count : Int) :
    (perform (BinaryFile.blockWrite buffer count) (f, c)).2.2.result =
      f.outcome c.volume c.mode (.blockWrite buffer count) := by
  unfold BinaryFile.blockWrite
  rw [perform_bind, perform_get]
  refine result_handle f c (fun _ => rfl) fun file => result_put f c fun b s => ?_
  cases b <;> rfl

/-- To read no records at the end is a success. -/
theorem result_readRecords (r : RecordType) (count : Int) :
    (perform (BinaryFile.readRecords r count) (f, c)).2.2.result =
      f.outcome c.volume c.mode (.readRecords r count) := by
  unfold BinaryFile.readRecords
  refine result_handle f c (fun _ => rfl) fun file => ?_
  simp only
  rw [perform_bind, perform_volume]
  refine result_take f c fun bytes s => ?_
  cases bytes <;> rfl

theorem result_writeRecords (r : RecordType) (items : List r.Value) :
    (perform (BinaryFile.writeRecords r items) (f, c)).2.2.result =
      f.outcome c.volume c.mode (.writeRecords r items) := by
  unfold BinaryFile.writeRecords
  refine result_handle f c (fun _ => rfl) fun file => result_put f c fun b s => ?_
  cases b <;> rfl

/-- A seek to a place that is none leaves the code of that. -/
theorem result_seek (position : Int) :
    (perform (BinaryFile.seek position) (f, c)).2.2.result = f.outcome c.volume c.mode (.seek position) := by
  unfold BinaryFile.seek
  rw [perform_bind, perform_get]
  refine result_handle f c (fun _ => rfl) fun file => ?_
  simp only
  rw [perform_bind, perform_volume, perform_ite]
  split <;> rfl

/-- A question always succeeds, if the file is open. -/
theorem result_ask {α : Type} (closed : α) (question : Volume → OpenBinary → Nat → α) :
    (perform (ask closed question) (f, c)).2.2.result = f.whenPermitted (fun _ => true) fun _ => .success := by
  unfold ask
  rw [perform_bind, perform_get]
  exact result_handle f c (fun _ => rfl) fun _ => rfl

/-- The code of a file that is cut off is that of the host. -/
theorem result_truncate :
    (perform BinaryFile.truncate (f, c)).2.2.result = f.outcome c.volume c.mode .truncate := by
  unfold BinaryFile.truncate
  refine result_handle f c (fun _ => rfl) fun file => ?_
  exact result_attempt _ (fun v => v.resize file.node (v.offsetIn file.node file.offset)) none
    (fun _ => pure ()) fun _ _ => rfl

/-- A flush succeeds, if the file is open. -/
theorem result_flush : (perform BinaryFile.flush (f, c)).2.2.result = f.outcome c.volume c.mode .flush := by
  unfold BinaryFile.flush
  exact result_handle f c (fun _ => rfl) fun _ => rfl

/-- The code of a record that is written is that of the host. -/
theorem result_write (r : RecordType) (value : r.Value) :
    (perform (BinaryFile.write r value) (f, c)).2.2.result = f.outcome c.volume c.mode (.write r value) := by
  unfold BinaryFile.write
  exact result_handle f c (fun _ => rfl) fun file => result_put f c fun _ _ => rfl

/-- An operation on a binary file leaves the code of its outcome. -/
theorem result_operation (op : Operation) :
    (perform op.act (f, c)).2.2.result = f.outcome c.volume c.mode op := by
  cases op with
  | assign name | close => rfl
  | reset size | create size =>
    cases size with
    | none => exact result_openAs f c _
    | some size => exact result_openAs (perform (setRecordSize size) (f, c)).2.1 c _
  | flush => exact result_flush f c
  | read r => exact result_read f c r
  | write r value => exact result_write f c r value
  | blockRead buffer count => exact result_blockRead f c buffer count
  | blockWrite buffer count => exact result_blockWrite f c buffer count
  | readRecords r count => exact result_readRecords f c r count
  | writeRecords r items => exact result_writeRecords f c r items
  | seek position => exact result_seek f c position
  -- the three questions differ in what they ask, but not in their code
  | filePos =>
    show (perform BinaryFile.filePos (f, c)).2.2.result = _
    exact result_ask f c _ _
  | fileSize =>
    show (perform BinaryFile.fileSize (f, c)).2.2.result = _
    exact result_ask f c _ _
  | eof =>
    show (perform BinaryFile.eof (f, c)).2.2.result = _
    exact result_ask f c _ _
  | truncate => exact result_truncate f c
  | erase =>
    refine result_named { f with file := none } c fun name => ?_
    exact result_attempt _ (·.unlink name.codePoints) name.codePoints (fun _ => pure ()) fun _ _ => rfl
  | rename new =>
    refine result_named { f with file := none } c fun name => ?_
    refine result_attempt _ (·.rename name.codePoints new.codePoints) name.codePoints
      (fun b => if b then modify fun f : BinaryFile => { f with name := some new } else pure ()) fun b _ => ?_
    cases b <;> rfl

end BinaryFile

end SystemUnit
