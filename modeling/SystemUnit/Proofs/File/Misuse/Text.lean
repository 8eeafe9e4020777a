import SystemUnit.Proofs.File.Outcome.Text
import SystemUnit.Proofs.File.Event

namespace SystemUnit

/-!
# Misused text files

An operation on a text file that is of no use to it, as it is, leaves a code and nothing else.

* `TextFile.Operation.need` — what an operation needs of the file;
* `TextFile.refusal?` — the code of an operation whose need is not met;
* `TextFile.Continues`, `TextFile.continues_perform` — what an operation may make of the name, and that it opens a
  file only by its name;
* `TextFile.perform_refused` — an operation whose need is not met leaves its code, and all else as it was.
-/

open FileM

namespace TextFile

/-- What an operation needs of the file. -/
def Operation.need : Operation → Need
  | .assign _ => .nothing
  | .reset | .create | .append | .erase | .rename _ => .name
  | .close | .flush => .opened
  | .write _ | .writeLn _ | .newLine => .writing
  | .readLn | .read _ | .eof | .eoln | .seekEof | .seekEoln => .reading

/-- Whether an operation gives the file a name. -/
def Operation.assigns : Operation → Bool
  | .assign _ => true
  | _ => false

/-- The code of an operation whose need is not met by a file that has been given a name, or has not. -/
def refusal? (f : TextFile) (assigned : Bool) (need : Need) : Option IoCode :=
  match need, f.stream with
  | .name, _ => if assigned then none else some .invalidHandle
  | .opened, .closed | .reading, .closed | .writing, .closed => some .fileNotOpen
  | .reading, .output _ | .writing, .input _ => some .invalidAccessMode
  | _, _ => none

variable {f f' : TextFile} {c : FileContext}

/-! ### What an operation makes of the name and of the stream -/

/-- A file keeps its name, or gets another one in its place, and is open only if it was or has a name. -/
structure Continues (f f' : TextFile) : Prop where
  named : f'.name.isSome = f.name.isSome
  opened : f'.isOpen = true → f.isOpen = true ∨ f.name.isSome = true

/-- A file goes on as it is. -/
theorem Continues.refl (f : TextFile) : f.Continues f := ⟨rfl, .inl⟩

/-- What goes on twice goes on. -/
theorem Continues.trans {f'' : TextFile} (h : f.Continues f') (h' : f'.Continues f'') : f.Continues f'' where
  named := h'.named.trans h.named
  opened isOpen := by
    rcases h'.opened isOpen with wasOpen | hasName
    · exact h.opened wasOpen
    · exact .inr (h.named ▸ hasName)

/-- A file that is closed continues as it was, whatever its name becomes. -/
theorem continues_closed (named : f'.name.isSome = f.name.isSome) (closed : f'.stream = .closed) :
    f.Continues f' := by
  refine ⟨named, fun isOpen => ?_⟩
  unfold TextFile.isOpen at isOpen
  rw [closed] at isOpen
  cases isOpen

/-- What follows when a file has been closed goes on from there. -/
theorem continues_whenReleased {next : TextFileM Unit}
    (h : ∀ c, f.Continues (perform next ({ f with stream := .closed }, c)).2.1) :
    f.Continues (perform (do if ← releaseReported then next) (f, c)).2.1 := by
  simp only [perform_bind, perform_releaseReported]
  rcases f.released c.volume with ⟨_ | _, v⟩
  · exact continues_closed rfl rfl
  · exact h _

/-- A file is opened by the name that it has, and keeps it. -/
theorem continues_openAs (mode : Volume.OpenMode) (stream : NodeId → TextStream) :
    f.Continues (perform (openAs mode stream) (f, c)).2.1 := by
  apply continues_whenReleased
  intro c
  unfold path
  cases name : f.name with
  | none =>
    simp only [perform_bind, perform_get, Option.map_none, perform_setCode]
    exact continues_closed (by rw [name]) rfl
  | some name' =>
    simp only [perform_bind, perform_get, perform_volume, perform_report, Option.map_some]
    cases c.volume.openFile name'.codePoints mode with
    | error e => exact continues_closed (by rw [name]; rfl) rfl
    | ok opened => exact ⟨by rw [name]; rfl, fun _ => .inr (by rw [name]; rfl)⟩

/-- What follows by the name of a file that has been closed leaves it closed, and with a name if it had one. -/
theorem continues_whenNamed {next : Text → TextFileM Unit}
    (h : ∀ name c, f.name = some name → f.Continues (perform (next name) ({ f with stream := .closed }, c)).2.1) :
    f.Continues (perform (do
      if ← releaseReported then
        match (← get).name with
        | some name => next name
        | none => liftM (setCode .invalidHandle)) (f, c)).2.1 := by
  apply continues_whenReleased
  intro c
  obtain ⟨name, stream⟩ := f
  -- without a name there is nothing to go on with, and the file stays closed
  cases name with
  | none => exact continues_closed rfl rfl
  | some name => exact h name c rfl

/-- What is done with the writer leaves the name, and the file open. -/
theorem continues_output (operation : WriterM Unit) : f.Continues (perform (output operation) (f, c)).2.1 := by
  rw [perform_output]
  cases stream : f.stream with
  | output w => exact ⟨rfl, fun _ => .inl (by rw [isOpen, stream])⟩
  | input r | closed => exact .refl f

/-- So does what is read. -/
theorem continues_input {α : Type} (operation : ByteStream → α × ByteStream) :
    f.Continues (perform (input operation) (f, c)).2.1 := by
  rw [perform_input]
  cases stream : f.stream with
  | input r =>
    simp only
    cases r.perform c.volume operation with
    | error e => exact .refl f
    | ok place => exact ⟨rfl, fun _ => .inl (by rw [isOpen, stream])⟩
  | output w | closed => exact .refl f

/-- What is made of the answer of an operation is nothing to the file. -/
theorem Continues.bind {α β : Type} {operation : TextFileM α} {next : α → TextFileM β}
    (h : f.Continues (perform operation (f, c)).2.1) (keeps : ∀ a s, (perform (next a) s).2.1 = s.1) :
    f.Continues (perform (operation >>= next) (f, c)).2.1 := by
  rw [perform_bind, keeps]
  exact h

/-- So does the report of it. -/
theorem continues_writing (operation : WriterM Unit) (path : Option (List Char)) :
    f.Continues (perform (do if let some outcome ← output operation then let _ ← report outcome path : TextFileM Unit)
      (f, c)).2.1 := by
  apply (continues_output operation).bind
  intro outcome s
  cases outcome <;> rfl

/-- Every operation that gives no name continues with the file as it was. -/
theorem continues_perform {op : Operation} (keeps : op.assigns = false) :
    f.Continues (perform op.act (f, c)).2.1 := by
  -- what opens the file does so by its name; all else closes it or leaves it as it is
  cases op with
  | assign name => cases keeps
  | reset | create | append => exact continues_openAs _ _
  | close =>
    show f.Continues (perform close (f, c)).2.1
    unfold close
    rw [perform_bind, perform_get, perform_ite]
    split
    · exact continues_whenReleased fun c => continues_closed rfl rfl
    · exact .refl f
  | flush =>
    show f.Continues (perform flush (f, c)).2.1
    unfold flush
    rw [perform_bind, perform_get]
    cases stream : f.stream with
    | input r => exact .refl f
    | output w | closed => exact continues_writing Writer.flush f.path
  | write value => exact continues_writing (writing value.parts) none
  | writeLn value => exact continues_writing (writing (value.parts ++ [['\n']])) none
  | newLine => exact continues_writing (writing [['\n']]) none
  | readLn =>
    show f.Continues (perform TextFile.readLn (f, c)).2.1
    apply (continues_input ByteStream.line).bind
    intro line s
    cases line <;> rfl
  | read type =>
    show f.Continues (perform (TextFile.read type) (f, c)).2.1
    apply (continues_input (·.item type)).bind
    intro value s
    cases value <;> rfl
  | eof | eoln => exact continues_input ByteStream.peek
  | seekEof | seekEoln => exact (continues_input _).trans (continues_input ByteStream.peek)
  | erase =>
    refine continues_whenNamed fun name c named => ?_
    show f.Continues (perform (liftM (deleteFile name)) ({ f with stream := .closed }, c)).2.1
    unfold deleteFile
    rw [perform_attempt]
    cases c.volume.unlink name.codePoints <;> exact continues_closed rfl rfl
  | rename new =>
    refine continues_whenNamed fun name c named => ?_
    unfold renameFile
    rw [perform_bind, perform_attempt]
    cases c.volume.rename name.codePoints new.codePoints with
    | error e => exact continues_closed rfl rfl
    | ok v => exact continues_closed (by rw [named]; rfl) rfl

/-- A file that is assigned has its name and is closed. -/
theorem perform_assign (f : TextFile) (c : FileContext) (name : Text) :
    (perform (assign name) (f, c)).2.1 = { name := some name } := by
  unfold assign
  rw [perform_bind, perform_release]
  rfl

/-- A file has a name if it had one or is given one. -/
theorem name_perform (op : Operation) (f : TextFile) (c : FileContext) :
    (perform op.act (f, c)).2.1.name.isSome = (f.name.isSome || op.assigns) := by
  cases assigns : op.assigns with
  | false => rw [(continues_perform assigns).named, Bool.or_false]
  | true =>
    cases op with
    | assign name =>
      show (perform (TextFile.assign name) (f, c)).2.1.name.isSome = _
      rw [perform_assign, Bool.or_true]
      rfl
    | _ => cases assigns

/-- Only a file with a name is open, if it was so before. -/
theorem named_perform (op : Operation) (f : TextFile) (c : FileContext)
    (proper : f.isOpen = true → f.name.isSome = true) :
    (perform op.act (f, c)).2.1.isOpen = true → (perform op.act (f, c)).2.1.name.isSome = true := by
  intro opened
  rw [name_perform, Bool.or_eq_true]
  cases assigns : op.assigns with
  | true => exact .inr rfl
  | false =>
    rcases (continues_perform assigns).opened opened with wasOpen | hasName
    · exact .inl (proper wasOpen)
    · exact .inl hasName

/-! ### Operations that are refused -/

variable {assigned : Bool} {code : IoCode}

/-- What is to be written to a file that is not open for output is refused. -/
theorem perform_output_refused (operation : WriterM Unit) (refused : f.refusal? assigned .writing = some code) :
    perform (output operation) (f, c) = (none, f, { c with result := code }) := by
  rw [perform_output]
  unfold refusal? at refused
  cases stream : f.stream with
  | output w =>
    rw [stream] at refused
    cases refused
  | input r | closed =>
    rw [stream] at refused
    cases refused
    rfl

/-- What is to be read from a file that is not open for input is refused. -/
theorem perform_input_refused {α : Type} (operation : ByteStream → α × ByteStream)
    (refused : f.refusal? assigned .reading = some code) :
    perform (input operation) (f, c) = (none, f, { c with result := code }) := by
  rw [perform_input]
  unfold refusal? at refused
  cases stream : f.stream with
  | input r =>
    rw [stream] at refused
    cases refused
  | output w | closed =>
    rw [stream] at refused
    cases refused
    rfl

/-- So are parts that are to be written. -/
theorem perform_writeParts_refused (parts : List (List Char)) (refused : f.refusal? assigned .writing = some code) :
    (perform (writeParts parts) (f, c)).2 = (f, { c with result := code }) := by
  unfold writeParts
  rw [perform_bind, perform_output_refused _ refused]
  rfl

/-- Only a file that is not open is refused where any open file will do. -/
theorem closed_of_refused (refused : f.refusal? assigned .opened = some code) :
    f.stream = .closed ∧ code = .fileNotOpen := by
  unfold refusal? at refused
  cases stream : f.stream with
  | closed =>
    rw [stream] at refused
    cases refused
    exact ⟨rfl, rfl⟩
  | input r | output w =>
    rw [stream] at refused
    cases refused

/-- A file that is refused for want of a name is all that it was when it was fresh. -/
theorem eq_default (named : f.name.isSome = assigned) (proper : f.isOpen = true → f.name.isSome = true)
    (refused : f.refusal? assigned .name = some code) : f = default ∧ code = .invalidHandle := by
  unfold refusal? at refused
  simp only at refused
  split at refused
  · cases refused
  rename_i unassigned
  obtain ⟨name, stream⟩ := f
  cases name with
  | some name => exact absurd named.symm unassigned
  | none =>
    cases refused
    -- without a name the file cannot be open
    cases stream with
    | closed => exact ⟨rfl, rfl⟩
    | input r | output w => cases proper rfl

/-- **An operation whose need is not met leaves its code, and all else as it was.** -/
theorem perform_refused {op : Operation} (named : f.name.isSome = assigned)
    (proper : f.isOpen = true → f.name.isSome = true) (refused : f.refusal? assigned op.need = some code) :
    (perform op.act (f, c)).2 = (f, { c with result := code }) := by
  cases op with
  | assign name => cases refused
  | reset | create | append | erase | rename new =>
    obtain ⟨rfl, rfl⟩ := eq_default named proper refused
    rfl
  | close =>
    obtain ⟨stream, rfl⟩ := closed_of_refused refused
    show (perform close (f, c)).2 = _
    unfold close
    rw [perform_bind, perform_get, perform_ite, isOpen, stream]
    rfl
  | flush =>
    obtain ⟨stream, rfl⟩ := closed_of_refused refused
    show (perform flush (f, c)).2 = _
    unfold flush
    rw [perform_bind, perform_get, stream]
    simp only [perform_bind, perform_output, stream]
    rfl
  | write value => exact perform_writeParts_refused value.parts refused
  | writeLn value => exact perform_writeParts_refused (value.parts ++ [['\n']]) refused
  | newLine => exact perform_writeParts_refused [['\n']] refused
  | readLn =>
    show (perform TextFile.readLn (f, c)).2 = _
    unfold TextFile.readLn
    rw [perform_bind, perform_input_refused _ refused]
    rfl
  | read type =>
    show (perform (TextFile.read type) (f, c)).2 = _
    unfold TextFile.read
    rw [perform_bind, perform_input_refused _ refused]
    rfl
  | eof | eoln =>
    show (perform (input ByteStream.peek) (f, c)).2 = _
    rw [perform_input_refused _ refused]
  | seekEof | seekEoln =>
    -- the spaces are refused first, and then the question, with the same code
    show (perform (input ByteStream.peek)
      (perform (input fun s => s.span fun b => b == 0x20 || b == 0x09) (f, c)).2).2 = _
    rw [perform_input_refused _ refused, perform_input_refused _ refused]

end TextFile

end SystemUnit
