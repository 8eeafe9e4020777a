import SystemUnit.Proofs.File.Operation

namespace SystemUnit

/-!
# Outcomes of operations on text files

An operation on a text file leaves the code of its own outcome.  Only a question about the position leaves no
code if it succeeds.

* `TextFile.outcome` — the code of an operation, told by the file and the volume alone;
* `TextFile.result_operation` — an operation leaves that code;
* `TextFile.result_question` — a question about the position leaves it if it is that of a failure, and else the
  code that was there before.
-/

open FileM

/-- A node that has no bytes has none from any offset on. -/
theorem Volume.readFrom_eq_error {v : Volume} {id : NodeId} {offset block : Nat} {e : HostError}
    (h : v.readFrom id offset block = .error e) (other : Nat) : v.readFrom id other block = .error e := by
  unfold Volume.readFrom at h ⊢
  split at h <;> simp_all

/-- Reading fails only where fetching bytes does, whatever is done with them. -/
theorem Reader.perform_eq_error_iff {α : Type} {r : Reader} {v : Volume}
    {operation : ByteStream → α × ByteStream} {e : HostError} :
    r.perform v operation = .error e ↔ v.readFrom r.node r.offset ByteStream.block = .error e := by
  unfold Reader.perform
  cases v.readFrom r.node r.offset ByteStream.block <;> simp [bind, Except.bind, pure, Except.pure]

/-- Whether the bytes of a reader can be had depends on its node alone. -/
theorem Reader.perform_eq_error {α β : Type} {r r' : Reader} {v : Volume}
    {operation : ByteStream → α × ByteStream} {operation' : ByteStream → β × ByteStream} {e : HostError}
    (node : r.node = r'.node) (h : r.perform v operation = .error e) : r'.perform v operation' = .error e := by
  rw [Reader.perform_eq_error_iff] at h ⊢
  rw [← node]
  exact Volume.readFrom_eq_error h _

/-- A reader stays with its node. -/
theorem Reader.node_of_perform {α : Type} {r r' : Reader} {v : Volume}
    {operation : ByteStream → α × ByteStream} {value : α} (h : r.perform v operation = .ok (value, r')) :
    r'.node = r.node := by
  unfold Reader.perform at h
  cases read : v.readFrom r.node r.offset ByteStream.block with
  | error e => rw [read] at h; cases h
  | ok pending => rw [read] at h; cases h; rfl

namespace TextFile

/-- The code of an operation that closes the file first, and goes on if that succeeds. -/
def whenReleased (f : TextFile) (v : Volume) (next : Volume → IoCode) : IoCode :=
  match f.released v with
  | (.ok _, v) => next v
  | (.error e, v) => e.toCode v f.path

/-- The code of an operation that needs the name. -/
def whenNamed (f : TextFile) (next : Text → IoCode) : IoCode := f.name.elim .invalidHandle next

/-- The code of an operation that opens the file. -/
def openCode (f : TextFile) (v : Volume) (mode : Volume.OpenMode) : IoCode :=
  f.whenReleased v fun v => f.whenNamed fun name => v.codeOf (v.openFile name.codePoints mode) name.codePoints

/-- The code of an operation on the writer. -/
def outputCode (f : TextFile) (v : Volume) (operation : WriterM Unit) (path : Option (List Char)) : IoCode :=
  match f.stream with
  | .output w => (w.effect v operation).2.2.codeOf (w.effect v operation).1 path
  | .input _ => .invalidAccessMode
  | .closed => .fileNotOpen

/-- The code of an operation on the bytes, whose value has to be valid. -/
def inputCode {α : Type} (f : TextFile) (v : Volume) (operation : ByteStream → α × ByteStream)
    (valid : α → Bool) : IoCode :=
  match f.stream with
  | .input r =>
    match r.perform v operation with
    | .ok (value, _) => if valid value then .success else .ioError
    | .error e => e.toCode v none
  | .output _ => .invalidAccessMode
  | .closed => .fileNotOpen

/-- Writes parts, up to the first that fails. -/
def writing (parts : List (List Char)) : WriterM Unit := parts.forM fun part => Writer.write (Utf8.encode part)

/-- **The code of an operation by its own outcome.** -/
def outcome (f : TextFile) (v : Volume) : Operation → IoCode
  | .assign _ => (f.released v).2.codeOf (f.released v).1 none
  | .reset => f.openCode v { }
  | .create => f.openCode v { writes := true, creates := true, truncates := true }
  | .append => f.openCode v { writes := true, creates := true }
  | .close => if f.isOpen then f.whenReleased v fun _ => .success else .fileNotOpen
  | .flush =>
    match f.stream with
    | .input _ => .success
    | _ => f.outputCode v Writer.flush f.path
  | .write value => f.outputCode v (writing value.parts) none
  | .writeLn value => f.outputCode v (writing (value.parts ++ [['\n']])) none
  | .newLine => f.outputCode v (writing [['\n']]) none
  | .readLn => f.inputCode v ByteStream.line fun _ => true
  | .read type => f.inputCode v (·.item type) Option.isSome
  | .eof | .eoln | .seekEof | .seekEoln => f.inputCode v ByteStream.peek fun _ => true
  | .erase =>
    f.whenReleased v fun v => f.whenNamed fun name => v.codeOf (v.unlink name.codePoints) name.codePoints
  | .rename new =>
    f.whenReleased v fun v => f.whenNamed fun name =>
      v.codeOf (v.rename name.codePoints new.codePoints) name.codePoints

/-- Whether an operation is a question about the position. -/
def Operation.asksPosition : Operation → Bool
  | .eof | .eoln | .seekEof | .seekEoln => true
  | _ => false

variable (f : TextFile) (c : FileContext)

/-! #### The code of each kind of operation -/

/-- The code of what is done once the file has been closed, unless closing it fails. -/
theorem result_whenReleased {next : TextFileM Unit} {code : Volume → IoCode}
    (h : ∀ c, (perform next ({ f with stream := .closed }, c)).2.2.result = code c.volume) :
    (perform (do if ← releaseReported then next) (f, c)).2.2.result = f.whenReleased c.volume code := by
  unfold whenReleased
  simp only [perform_bind, perform_releaseReported]
  rcases f.released c.volume with ⟨_ | _, v⟩
  · simp
  · simp [h]

/-- The code of a file that is opened by its name. -/
theorem result_openAs (mode : Volume.OpenMode) (stream : NodeId → TextStream) :
    (perform (openAs mode stream) (f, c)).2.2.result = f.openCode c.volume mode := by
  refine result_whenReleased f c fun c => ?_
  unfold path whenNamed
  cases f.name with
  | none => simp
  | some name =>
    simp only [perform_bind, perform_get, perform_volume, perform_report, Option.map_some, Option.elim_some]
    cases c.volume.openFile name.codePoints mode <;> simp [Except.toOption]

/-- The code of an operation that needs a name: without one, that of a handle that is not assigned. -/
theorem result_named {next : Text → TextFileM Unit} {code : Text → IoCode}
    (h : ∀ name, (perform (next name) (f, c)).2.2.result = code name) :
    (perform (do
      match (← get).name with
      | some name => next name
      | none => liftM (setCode .invalidHandle)) (f, c)).2.2.result = f.whenNamed code := by
  unfold whenNamed
  rw [perform_bind, perform_get]
  cases f.name with
  | none => rfl
  | some name => exact h name

/-- The code of an operation on the writer is that of the host, unless there is no writer. -/
theorem result_output (operation : WriterM Unit) (path : Option (List Char)) :
    (perform (do if let some outcome ← output operation then let _ ← report outcome path : TextFileM Unit)
      (f, c)).2.2.result = f.outputCode c.volume operation path := by
  unfold outputCode
  simp only [perform_bind, perform_output]
  cases f.stream <;> simp

/-- The code of an operation that reads: that of a refusal or of the host, or whether the value is valid. -/
theorem result_input {α β : Type} {operation : ByteStream → α × ByteStream} {valid : α → Bool}
    {next : Option α → TextFileM β} (refused : ∀ s, (perform (next none) s).2.2.result = s.2.result)
    (given : ∀ value s, (perform (next (some value)) s).2.2.result = if valid value then .success else .ioError) :
    (perform (input operation >>= next) (f, c)).2.2.result = f.inputCode c.volume operation valid := by
  unfold inputCode
  rw [perform_bind, perform_input]
  cases f.stream with
  | input r =>
    simp only
    rcases r.perform c.volume operation with e | ⟨value, r'⟩
    · exact refused _
    · exact given value _
  | output w | closed => exact refused _

/-- A question about the position keeps the code if the bytes can be had. -/
theorem result_peek :
    (perform peek (f, c)).2.2.result =
      if f.inputCode c.volume ByteStream.peek (fun _ => true) = .success then c.result
      else f.inputCode c.volume ByteStream.peek fun _ => true := by
  show (perform (input ByteStream.peek) (f, c)).2.2.result = _
  unfold inputCode
  rw [perform_input]
  cases f.stream with
  | input r =>
    simp only
    -- a failure leaves its code, and a success leaves the code of before
    rcases r.perform c.volume ByteStream.peek with e | ⟨value, r'⟩
    · exact (if_neg (e.toCode_ne_success _ _)).symm
    · rfl
  | output w | closed => rfl

/-- Where reading has worked, to look at the next byte works too. -/
theorem inputCode_peek_of_ok {α : Type} {f : TextFile} {v : Volume} {r r' r₁ : Reader}
    {operation : ByteStream → α × ByteStream} {value : α} (had : r.perform v operation = .ok (value, r₁))
    (stream : f.stream = .input r') (node : r'.node = r.node) :
    f.inputCode v ByteStream.peek (fun _ => true) = .success := by
  simp only [inputCode, stream]
  cases peeked : r'.perform v ByteStream.peek with
  | error e =>
    rw [Reader.perform_eq_error node peeked] at had
    cases had
  | ok place => rfl

/-- What has been taken before a question leaves its outcome as it is, and the code. -/
theorem perform_skipSpaces :
    (perform skipSpaces (f, c)).2.1.inputCode c.volume ByteStream.peek (fun _ => true) =
        f.inputCode c.volume ByteStream.peek (fun _ => true) ∧
      (perform skipSpaces (f, c)).2.2.volume = c.volume ∧
      (f.inputCode c.volume ByteStream.peek (fun _ => true) = .success →
        (perform skipSpaces (f, c)).2.2.result = c.result) := by
  have after : (perform skipSpaces (f, c)).2 =
      (perform (input fun s => s.span fun b => b == 0x20 || b == 0x09) (f, c)).2 := rfl
  rw [after, perform_input]
  cases stream : f.stream with
  | input r =>
    simp only
    -- blanks are read from the same node, and so what works before works behind them
    cases taken : r.perform c.volume fun s => s.span fun b => b == 0x20 || b == 0x09 with
    | error e =>
      simp [inputCode, stream, Reader.perform_eq_error rfl taken, e.toCode_ne_success]
    | ok place =>
      obtain ⟨value, r'⟩ := place
      have node := Reader.node_of_perform taken
      rw [inputCode_peek_of_ok taken stream rfl]
      exact ⟨inputCode_peek_of_ok taken rfl node, rfl, fun _ => rfl⟩
  | output w | closed => simp [inputCode, stream]

/-- A question leaves the code of its outcome if it fails, and else the code that was there before. -/
theorem result_question {op : Operation} (asks : op.asksPosition = true) :
    (perform op.act (f, c)).2.2.result =
      if f.outcome c.volume op = .success then c.result else f.outcome c.volume op := by
  -- a failure to skip the spaces is met again by the question behind it
  obtain ⟨same, volume, kept⟩ := perform_skipSpaces f c
  have skipped : (perform peek (perform skipSpaces (f, c)).2).2.2.result =
      if f.outcome c.volume .eof = .success then c.result else f.outcome c.volume .eof := by
    rw [result_peek, volume, same]
    show (if f.outcome c.volume .eof = .success then _ else f.outcome c.volume .eof) = _
    split
    · exact kept (by assumption)
    · rfl
  cases op with
  | eof | eoln => exact result_peek f c
  | seekEof | seekEoln => exact skipped
  | _ => cases asks

/-- Every other operation leaves the code of its outcome. -/
theorem result_operation {op : Operation} (asks : op.asksPosition = false) :
    (perform op.act (f, c)).2.2.result = f.outcome c.volume op := by
  -- one case for each operation, and the lemma of its kind
  cases op with
  | assign name =>
    show (perform (TextFile.assign name) (f, c)).2.2.result = _
    simp [assign, perform_release, outcome]
  | reset | create | append => exact result_openAs f c _ _
  | close =>
    show (perform close (f, c)).2.2.result =
      if f.isOpen then f.whenReleased c.volume fun _ => .success else .fileNotOpen
    unfold close
    rw [perform_bind, perform_get, perform_ite]
    split
    · exact result_whenReleased f c fun c => rfl
    · rfl
  | flush =>
    show (perform flush (f, c)).2.2.result = _
    unfold flush outcome
    rw [perform_bind, perform_get]
    cases f.stream with
    | input r => rfl
    | output w | closed => exact result_output f c Writer.flush f.path
  | write value => exact result_output f c (writing value.parts) none
  | writeLn value => exact result_output f c (writing (value.parts ++ [['\n']])) none
  | newLine => exact result_output f c (writing [['\n']]) none
  | readLn =>
    show (perform TextFile.readLn (f, c)).2.2.result = _
    unfold TextFile.readLn
    exact result_input f c (fun _ => rfl) fun _ _ => rfl
  | read type =>
    show (perform (TextFile.read type) (f, c)).2.2.result = _
    unfold TextFile.read
    exact result_input f c (fun _ => rfl) fun _ _ => rfl
  | erase =>
    refine result_whenReleased f c fun c => result_named _ c fun name => ?_
    exact result_attempt _ (·.unlink name.codePoints) name.codePoints (fun _ => pure ()) fun _ _ => rfl
  | rename new =>
    refine result_whenReleased f c fun c => result_named _ c fun name => ?_
    refine result_attempt _ (·.rename name.codePoints new.codePoints) name.codePoints
      (fun b => if b then modify fun f : TextFile => { f with name := some new } else pure ()) fun b _ => ?_
    cases b <;> rfl
  | eof | eoln | seekEof | seekEoln => cases asks

end TextFile

end SystemUnit
