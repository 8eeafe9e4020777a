import SystemUnit.Proofs.File.Account.Balance

namespace SystemUnit

/-!
# Nothing written is lost

A text file holds back what is written to it, and lets go of it when it is flushed and when it is closed: by itself,
or because it is opened, renamed or given another name.

* `TextFile.Quiet` — operations that leave the volume and the writer alone;
* `TextFile.Closes` — operations that close a file, and change but names;
* `TextFile.closes_perform` — the operations that close a file, all of them;
* `TextFile.balanced_perform` — every operation keeps the accounts balanced;
* `TextFile.files_accounted` — every file holds what its account says whenever nothing is held back.
-/

open FileM

namespace TextFile

variable {accounts : NodeId → Account} {v : Volume} {f f' : TextFile} {c : FileContext} {op : Operation}

/-! ### Operations that leave files alone -/

/-- An operation leaves the volume and the writer as they are. -/
def Quiet {α : Type} (operation : TextFileM α) : Prop :=
  ∀ s, (perform operation s).2.1.writer? = s.1.writer? ∧ (perform operation s).2.2.volume = s.2.volume

/-- What goes on after a quiet operation quietly is quiet as a whole. -/
theorem Quiet.bind {α β : Type} {operation : TextFileM α} {next : α → TextFileM β} (h : Quiet operation)
    (h' : ∀ a, Quiet (next a)) : Quiet (operation >>= next) := by
  intro s
  obtain ⟨writer, volume⟩ := h s
  obtain ⟨writer', volume'⟩ := h' (perform operation s).1 (perform operation s).2
  exact ⟨writer'.trans writer, volume'.trans volume⟩

/-- What becomes of the answer is of no matter. -/
theorem Quiet.map {α β : Type} {operation : TextFileM α} (h : Quiet operation) (g : α → β) : Quiet (g <$> operation) :=
  fun s => h s

theorem quiet_pure {α : Type} (a : α) : Quiet (pure a) := fun _ => ⟨rfl, rfl⟩

/-- A code is left beside the volume and the writer. -/
theorem quiet_setCode (code : IoCode) : Quiet (liftM (setCode code) : TextFileM Unit) := fun _ => ⟨rfl, rfl⟩

/-- What the host answers is told by a code, and that is all. -/
theorem quiet_report {α : Type} (outcome : Except HostError α) (path : Option (List Char)) :
    Quiet (liftM (report outcome path) : TextFileM (Option α)) := by
  intro s
  rw [perform_report]
  exact ⟨rfl, rfl⟩

/-- What is read moves the place of the reader, and a file that is read from has no writer. -/
theorem quiet_input {α : Type} (operation : ByteStream → α × ByteStream) : Quiet (input operation) := by
  intro ⟨f, c⟩
  rw [perform_input]
  cases stream : f.stream with
  | input r =>
    simp only
    -- a failure of the host leaves the reader where it was
    cases r.perform c.volume operation with
    | error e => exact ⟨rfl, rfl⟩
    | ok place => exact ⟨by simp only [writer?, stream], rfl⟩
  | output w | closed => exact ⟨rfl, rfl⟩

/-- To look at the next byte is to read without moving on. -/
theorem quiet_peek : Quiet peek := (quiet_input ByteStream.peek).bind fun _ => quiet_pure _

/-- Whether the file is at its end is told by the next byte. -/
theorem quiet_eof : Quiet eof := quiet_peek.bind fun _ => quiet_pure _

/-- So is whether the line is. -/
theorem quiet_eoln : Quiet eoln := quiet_peek.bind fun _ => quiet_pure _

/-- Blanks are read, and not written. -/
theorem quiet_skipSpaces : Quiet skipSpaces := (quiet_input _).bind fun _ => quiet_pure _

/-- A line that is read changes no file, whether there is one or not. -/
theorem quiet_readLn : Quiet readLn := by
  refine (quiet_input ByteStream.line).bind fun line => ?_
  cases line with
  | none => exact quiet_pure _
  | some line => exact (quiet_setCode _).bind fun _ => quiet_pure _

/-- An item that is read changes no file, whether it can be made out or not. -/
theorem quiet_read (type : TextItem) : Quiet (TextFile.read type) := by
  refine (quiet_input (·.item type)).bind fun value => ?_
  cases value with
  | none => exact quiet_pure _
  | some value => exact (quiet_setCode _).bind fun _ => quiet_pure _

/-! ### Operations that write -/

/-- What an operation on the writer makes of the writer and of the volume. -/
def Outputs (operation : WriterM Unit) (f : TextFile) (c : FileContext) (s : TextFile × FileContext) : Prop :=
  s.1.writer? = f.writer?.map (fun w => (w.effect c.volume operation).2.1) ∧
    s.2.volume = f.writer?.elim c.volume fun w => (w.effect c.volume operation).2.2

/-- What is done with the writer and then reported is what it makes of the writer and of the volume. -/
theorem outputs_report (operation : WriterM Unit) (path : Option (List Char)) (f : TextFile) (c : FileContext) :
    Outputs operation f c (perform (do if let some outcome ← output operation then let _ ← report outcome path :
      TextFileM Unit) (f, c)).2 := by
  have first : Outputs operation f c (perform (output operation) (f, c)).2 := by
    unfold Outputs
    rw [perform_output]
    cases stream : f.stream <;> simp only [writer?, stream] <;> exact ⟨rfl, rfl⟩
  obtain ⟨writer, volume⟩ := first
  -- the report comes after it, and is quiet
  have rest : ∀ outcome? : Option (Except HostError Unit),
      Quiet (do if let some outcome := outcome? then let _ ← report outcome path : TextFileM Unit) := by
    intro outcome?
    cases outcome? with
    | none => exact quiet_pure _
    | some outcome => exact (quiet_report outcome path).bind fun _ => quiet_pure _
  obtain ⟨writer', volume'⟩ := rest (perform (output operation) (f, c)).1 (perform (output operation) (f, c)).2
  exact ⟨writer'.trans writer, volume'.trans volume⟩

/-- Parts of text go to the writer one after another, each by its encoding. -/
theorem outputs_writeParts (parts : List (List Char)) (f : TextFile) (c : FileContext) :
    Outputs (parts.forM fun part => Writer.write (Utf8.encode part)) f c (perform (writeParts parts) (f, c)).2 :=
  outputs_report _ none f c

/-- A flush is one of the writer, if there is one, and else does nothing to the volume. -/
theorem outputs_flush (f : TextFile) (c : FileContext) : Outputs Writer.flush f c (perform flush (f, c)).2 := by
  unfold flush
  rw [perform_bind, perform_get]
  cases stream : f.stream with
  | input r => exact ⟨by simp [writer?, stream], by simp [writer?, stream]⟩
  | closed | output w => exact outputs_report Writer.flush f.path f c

/-! ### Operations that close -/

/-- An operation closes a file, and what is held back goes to it; then it changes but names. -/
def Closes (f : TextFile) (c : FileContext) (s : TextFile × FileContext) : Prop :=
  s.1.writer? = none ∧ (f.released c.volume).2.SameFiles s.2.volume

/-- What is done once the file has been closed may but change names. -/
theorem closes_whenReleased {next : TextFileM Unit}
    (h : ∀ c, (perform next ({ f with stream := .closed }, c)).2.1.writer? = none ∧
      c.volume.SameFiles (perform next ({ f with stream := .closed }, c)).2.2.volume) :
    Closes f c (perform (do if ← releaseReported then next) (f, c)).2 := by
  unfold Closes
  simp only [perform_bind, perform_releaseReported]
  rcases f.released c.volume with ⟨_ | _, v⟩
  · -- if the release fails the file is closed all the same, and the rest is left out
    exact ⟨rfl, .refl v⟩
  · exact h _

/-- The file is closed under its old name, before it gets another one. -/
theorem closes_assign (name : Text) : Closes f c (perform (assign name) (f, c)).2 := by
  unfold Closes assign
  simp only [perform_bind, perform_release, perform_report]
  exact ⟨rfl, .refl _⟩

/-- An open file is closed, and behind one that is not open nothing is held back. -/
theorem closes_close : Closes f c (perform close (f, c)).2 := by
  unfold close
  rw [perform_bind, perform_get, perform_ite]
  split
  · exact closes_whenReleased fun c => ⟨rfl, .refl _⟩
  · rename_i closed
    have stream : f.stream = .closed := by
      unfold isOpen at closed
      split at closed
      · assumption
      · cases closed rfl
    -- nothing is held back without a writer
    refine ⟨by simp only [perform_setCode, writer?, stream], ?_⟩
    rw [released, stream]
    exact .refl _

/-- What is done with the name of a file, once it has been closed, may but change names, too. -/
theorem closes_whenNamed {next : Text → TextFileM Unit}
    (h : ∀ name c, (perform (next name) (⟨some name, .closed⟩, c)).2.1.writer? = none ∧
      c.volume.SameFiles (perform (next name) (⟨some name, .closed⟩, c)).2.2.volume) :
    Closes f c (perform (do
      if ← releaseReported then
        match (← get).name with
        | some name => next name
        | none => liftM (setCode .invalidHandle)) (f, c)).2 := by
  refine closes_whenReleased fun c => ?_
  obtain ⟨name, stream⟩ := f
  cases name with
  | none => exact ⟨rfl, .refl _⟩
  | some name => exact h name c

/-- The file is closed before its name is taken away. -/
theorem closes_erase : Closes f c (perform erase (f, c)).2 := by
  refine closes_whenNamed fun name c => ?_
  show (perform (liftM (deleteFile name)) ((⟨some name, .closed⟩ : TextFile), c)).2.1.writer? = none ∧
    c.volume.SameFiles (perform (liftM (deleteFile name)) ((⟨some name, .closed⟩ : TextFile), c)).2.2.volume
  unfold deleteFile
  rw [perform_attempt]
  cases unlinked : c.volume.unlink name.codePoints with
  | error e => exact ⟨rfl, .refl _⟩
  | ok v => exact ⟨rfl, Volume.sameFiles_unlink _ _ v unlinked⟩

/-- The file is closed under its old name, before the volume gives it another one. -/
theorem closes_rename (new : Text) : Closes f c (perform (rename new) (f, c)).2 := by
  refine closes_whenNamed fun name c => ?_
  unfold renameFile
  rw [perform_bind, perform_attempt]
  cases renamed : c.volume.rename name.codePoints new.codePoints with
  | error e => exact ⟨rfl, .refl _⟩
  | ok v => exact ⟨rfl, Volume.sameFiles_rename _ _ _ v renamed⟩

/-- A file that is opened by its name is closed first, and stays so, with the code of a failure, if it cannot be
    opened. -/
theorem openAs_cases (mode : Volume.OpenMode) (stream : NodeId → TextStream) (f : TextFile) (c : FileContext) :
    Closes f c (perform (openAs mode stream) (f, c)).2 ∧
        (perform (openAs mode stream) (f, c)).2.2.result ≠ .success ∨
      ∃ name id v, f.name = some name ∧ (f.released c.volume).2.openFile name.codePoints mode = .ok (id, v) ∧
        (perform (openAs mode stream) (f, c)).2 = ({ f with stream := stream id }, ⟨.success, c.mode, v⟩) := by
  have released := perform_releaseReported f c
  unfold openAs Closes
  simp only [perform_bind, released]
  rcases f.released c.volume with ⟨e | _, v⟩
  · exact .inl ⟨⟨rfl, .refl v⟩, e.toCode_ne_success v f.path⟩
  · unfold path
    cases named : f.name with
    | none => exact .inl ⟨⟨rfl, .refl v⟩, nofun⟩
    | some name =>
      simp only [if_true, perform_bind, perform_get, perform_volume, perform_report, Option.map_some]
      cases opened : v.openFile name.codePoints mode with
      | error e => exact .inl ⟨⟨rfl, .refl v⟩, e.toCode_ne_success v (some name.codePoints)⟩
      | ok result => exact .inr ⟨name, result.1, result.2, rfl, opened, rfl⟩

/-- The file is closed before it is opened for input, which leaves the volume as it is. -/
theorem closes_reset : Closes f c (perform reset (f, c)).2 := by
  rcases openAs_cases { } (fun node => .input { node }) f c with ⟨closes, -⟩ | ⟨name, id, v, -, opened, done⟩
  · exact closes
  · have same : v = (f.released c.volume).2 := Volume.openFile_keeps _ _ rfl rfl (id, v) opened
    unfold reset
    rw [done, same]
    exact ⟨rfl, .refl _⟩

/-- **What closes a file lets go of what is held back**, whichever operation it is. -/
theorem closes_perform (closing : op.closes = true) : Closes f c (perform op.act (f, c)).2 := by
  cases op with
  | assign name => exact closes_assign name
  | reset => exact closes_reset
  | close => exact closes_close
  | erase => exact closes_erase
  | rename new => exact closes_rename new
  | _ => cases closing

/-! ### Accounts -/

/-- To write nothing is to leave the accounts as they are. -/
theorem enter_nothing (accounts : NodeId → Account) (id? : Option NodeId) :
    enter accounts id? (fun a => { a with since := a.since ++ [] }) = accounts := by
  cases id? with
  | none => rfl
  | some id =>
    simp only [List.append_nil]
    exact Function.update_eq_self id accounts

/-- The accounts stay the same if nothing is written. -/
theorem account_silent (silent : op.written = []) (keeps : op.opensForOutput = false) (before after : Option NodeId) :
    op.account before after accounts = accounts := by
  have same := enter_nothing accounts before
  rw [← silent] at same
  -- the two operations that begin an account anew are left out
  cases op with
  | create | append => cases keeps
  | _ => exact same

/-- The writer of a file that has been flushed holds nothing back. -/
theorem Balanced.flush {w : Writer} (h : Balanced accounts (some w) v) :
    Balanced accounts (some (w.effect v Writer.flush).2.1) (w.effect v Writer.flush).2.2 ∧
      ((w.effect v Writer.flush).2.2.isFile (w.effect v Writer.flush).2.1.node = true →
        (w.effect v Writer.flush).2.1.pending = #[]) := by
  constructor
  · have flushed : Balanced (enter accounts (fileOf (some w) v) fun a => { a with since := a.since ++ [] }) _ _ :=
      h.effect Writer.appends_flush Writer.spares_flush
    rwa [enter_nothing] at flushed
  · intro file'
    cases file : v.isFile w.node with
    | true => rw [Writer.effect_flush (h.target w rfl file)]
    | false =>
      obtain ⟨same, node⟩ := Writer.spares_flush w v file
      rw [same, node, file] at file'
      cases file'

/-- What is held back goes to the file that is closed. -/
theorem Balanced.released (h : Balanced accounts f.writer? v) : Balanced accounts none (f.released v).2 := by
  obtain ⟨name, stream⟩ := f
  cases stream with
  | closed | input r => exact h
  | output w =>
    obtain ⟨balanced, empty⟩ := Balanced.flush h
    -- the writer holds nothing back any more, and so it may go
    refine ⟨balanced.unlimited, fun id bytes file _ => ?_, nofun, balanced.unmade⟩
    refine balanced.settled (fun w' open? file' => ?_) id bytes file
    cases open?
    exact empty file'

/-- Accounts that balance still do so when the file has been closed. -/
theorem Balanced.closes (h : Balanced accounts f.writer? c.volume) {s : TextFile × FileContext}
    (closes : Closes f c s) : Balanced accounts s.1.writer? s.2.volume := by
  rw [closes.1]
  exact h.released.sameFiles closes.2

/-- An operation that opens for output balances the accounts with the account of the file that it opens. -/
theorem Balanced.openAs (h : Balanced accounts f.writer? c.volume) (mode : Volume.OpenMode)
    (writes : mode.writes = true) :
    let s := (perform (TextFile.openAs mode fun node => .output { node, offset := 0, appends := !mode.truncates })
      (f, c)).2
    Balanced (enter accounts (s.1.target? s.2.volume) fun a => if mode.truncates then { } else { held := a.bytes })
      s.1.writer? s.2.volume ∧ ∀ w, s.1.writer? = some w → w.pending = #[] := by
  dsimp only
  -- either the file could not be opened and there is no target, or its account begins anew
  rcases openAs_cases mode (fun node => .output { node, offset := 0, appends := !mode.truncates }) f c with
    ⟨closes, -⟩ | ⟨name, id, v, -, opened, done⟩
  · have balanced := h.closes closes
    rw [target?, closes.1] at *
    exact ⟨balanced, nofun⟩
  · rw [done]
    refine ⟨h.released.opened (Volume.opened_of_openFile writes opened), fun w open? => ?_⟩
    cases open?
    rfl

/-- What is written to a text file is entered into the account of the file that it is open for output to. -/
theorem Balanced.outputs (h : Balanced accounts f.writer? c.volume) {operation : WriterM Unit} {chars : List Char}
    (appends : Writer.Appends operation (Utf8.encode chars)) (spares : Writer.Spares operation)
    {s : TextFile × FileContext} (outputs : Outputs operation f c s) :
    Balanced (enter accounts (f.target? c.volume) fun a => { a with since := a.since ++ chars }) s.1.writer?
      s.2.volume := by
  obtain ⟨writer, volume⟩ := outputs
  rw [writer, volume]
  unfold target?
  -- without a writer nothing is written, and nothing is entered
  cases open? : f.writer? with
  | none =>
    rw [open?] at h
    exact h
  | some w =>
    rw [open?] at h
    exact h.effect appends spares

/-- **Every operation keeps the accounts balanced.** -/
theorem balanced_perform (h : Balanced accounts f.writer? c.volume) (op : Operation) :
    let s := (perform op.act (f, c)).2
    Balanced (op.account (f.target? c.volume) (s.1.target? s.2.volume) accounts) s.1.writer? s.2.volume := by
  intro s
  -- what only reads or only closes writes nothing, and so the accounts stay the same
  have reads (silent : op.written = []) (keeps : op.opensForOutput = false) (quiet : Quiet op.act) :
      Balanced (op.account (f.target? c.volume) (s.1.target? s.2.volume) accounts) s.1.writer? s.2.volume := by
    obtain ⟨writer, volume⟩ := quiet (f, c)
    rw [account_silent silent keeps, writer, volume]
    exact h
  have closes (silent : op.written = []) (keeps : op.opensForOutput = false) (closing : op.closes = true) :
      Balanced (op.account (f.target? c.volume) (s.1.target? s.2.volume) accounts) s.1.writer? s.2.volume := by
    rw [account_silent silent keeps]
    exact h.closes (closes_perform closing)
  cases op with
  | assign | reset | close | erase | rename => exact closes rfl rfl rfl
  | create => exact (h.openAs { writes := true, creates := true, truncates := true } rfl).1
  | append => exact (h.openAs { writes := true, creates := true } rfl).1
  | flush => exact h.outputs Writer.appends_flush Writer.spares_flush (outputs_flush f c)
  | write value =>
    exact h.outputs (Writer.appends_writing value.parts) (Writer.spares_writing _) (outputs_writeParts _ f c)
  | writeLn value =>
    exact h.outputs (Writer.appends_writing (value.parts ++ [['\n']])) (Writer.spares_writing _)
      (outputs_writeParts _ f c)
  | newLine =>
    exact h.outputs (Writer.appends_writing [['\n']]) (Writer.spares_writing _) (outputs_writeParts _ f c)
  | readLn => exact reads rfl rfl (quiet_readLn.map _)
  | read type => exact reads rfl rfl ((quiet_read type).map _)
  | eof => exact reads rfl rfl (quiet_eof.map _)
  | eoln => exact reads rfl rfl (quiet_eoln.map _)
  | seekEof => exact reads rfl rfl ((quiet_skipSpaces.bind fun _ => quiet_eof).map _)
  | seekEoln => exact reads rfl rfl ((quiet_skipSpaces.bind fun _ => quiet_eoln).map _)

/-- Flushing, closing and opening leave nothing held back. -/
theorem pending_perform (h : Balanced accounts f.writer? c.volume) (settles : op.settles = true) :
    let s := (perform op.act (f, c)).2
    ∀ w, s.1.writer? = some w → s.2.volume.isFile w.node = true → w.pending = #[] := by
  intro s w open? file
  -- there is no writer any more once the file is closed
  have shut (closing : op.closes = true) : w.pending = #[] := by
    have none : s.1.writer? = none := (closes_perform closing).1
    rw [none] at open?
    cases open?
  cases op with
  | assign | reset | close | erase | rename => exact shut rfl
  | create =>
    exact (h.openAs { writes := true, creates := true, truncates := true } rfl).2 w open?
  | append => exact (h.openAs { writes := true, creates := true } rfl).2 w open?
  | flush =>
    obtain ⟨writer, volume⟩ : Outputs Writer.flush f c s := outputs_flush f c
    rw [writer] at open?
    obtain ⟨w', was, rfl⟩ := Option.map_eq_some_iff.mp open?
    rw [was] at h
    apply h.flush.2
    rwa [volume, was] at file
  | _ => cases settles

/-- A file that is opened for output without a failure is the one that its name leads to. -/
theorem opened_perform (opens : op.opensForOutput = true)
    (success : (perform op.act (f, c)).2.2.result = .success) :
    let s := (perform op.act (f, c)).2
    ∃ name w, s.1.name = some name ∧ s.1.writer? = some w ∧
      s.2.volume.openFile name.codePoints { } = .ok (w.node, s.2.volume) := by
  have leads (mode : Volume.OpenMode) (writes : mode.writes = true) (appends : Bool)
      (success : (perform (openAs mode fun node => .output { node, offset := 0, appends }) (f, c)).2.2.result =
        .success) :
      let s := (perform (openAs mode fun node => .output { node, offset := 0, appends }) (f, c)).2
      ∃ name w, s.1.name = some name ∧ s.1.writer? = some w ∧
        s.2.volume.openFile name.codePoints { } = .ok (w.node, s.2.volume) := by
    -- a file that could not be opened has left a code
    rcases openAs_cases mode (fun node => .output { node, offset := 0, appends }) f c with
      ⟨-, failure⟩ | ⟨name, id, v, named, opened, done⟩
    · exact absurd success failure
    · rw [done]
      exact ⟨name, _, named, rfl, Volume.openFile_again writes opened⟩
  cases op with
  | create => exact leads { writes := true, creates := true, truncates := true } rfl false success
  | append => exact leads { writes := true, creates := true } rfl true success
  | _ => cases opens

/-! ### Runs -/

/-- **Every run keeps the accounts balanced**: those after it. -/
theorem balanced_after (run : List Operation) {s : TextFile × FileContext}
    (h : Balanced accounts s.1.writer? s.2.volume) :
    let t := after s (run.map Operation.act)
    Balanced (accountsAfter s accounts run) t.1.writer? t.2.volume := by
  induction run generalizing accounts s with
  | nil => exact h
  | cons op run ih => exact ih (balanced_perform h op)

/-- **Nothing written is lost, and nothing is written twice.**  After every run on a volume without a limit, each file
    but the one that the text file is open for output to holds what it held when it was opened for output last, and
    behind it what has been written since.  So does that one too if the run ends with a flush, or with an operation
    that closes the file before it does anything else: what is held back then goes to the file under its old name.  No
    file is open for output any more behind an operation that assigns, opens for input, closes, erases or renames, and
    what is opened for output without a failure is the file that the name leads to. -/
theorem files_accounted (c : FileContext) (unlimited : c.volume.greatestSize = none) (run : List Operation) :
    let s := after ((default, c) : TextFile × FileContext) (run.map Operation.act)
    let accounts := accountsAfter (default, c) c.volume.accounts run
    (∀ id bytes, s.2.volume.node? id = some (.file bytes) →
      s.1.target? s.2.volume ≠ some id ∨ run.getLast?.any Operation.settles = true → (accounts id).bytes = bytes) ∧
    (run.getLast?.any Operation.closes = true → s.1.writer? = none) ∧
    (run.getLast?.any Operation.opensForOutput = true → s.2.result = .success →
      ∃ name w, s.1.name = some name ∧ s.1.writer? = some w ∧
        s.2.volume.openFile name.codePoints { } = .ok (w.node, s.2.volume)) := by
  intro s accounts
  have start : Balanced c.volume.accounts (default : TextFile).writer? c.volume := balanced_accounts unlimited
  have balanced : Balanced accounts s.1.writer? s.2.volume := balanced_after run start
  rcases List.eq_nil_or_concat run with rfl | ⟨before, op, rfl⟩
  · -- nothing is open yet
    exact ⟨fun id bytes file _ => balanced.others id bytes file nofun, fun _ => rfl, nofun⟩
  have earlier := balanced_after (s := ((default, c) : TextFile × FileContext)) before start
  have now : s = (perform op.act (after (default, c) (before.map Operation.act))).2 := by
    show after (default, c) ((before.concat op).map Operation.act) = _
    rw [List.concat_eq_append, List.map_append, after_append]
    rfl
  have last : (before.concat op).getLast? = some op := by rw [List.concat_eq_append, List.getLast?_concat]
  rw [last]
  refine ⟨fun id bytes file settled => ?_, fun closing => ?_, fun opens success => ?_⟩
  · rcases settled with other | settles
    · exact balanced.others id bytes file other
    · have empty := pending_perform earlier settles
      rw [← now] at empty
      exact balanced.settled empty id bytes file
  · rw [now]
    exact (closes_perform closing).1
  · rw [now] at success ⊢
    exact opened_perform opens success

/-- Two files are written, the second one at its end, and the first one before it got its last name.  What is held back
    goes to the first file, too, if the text file is just given the name of another one. -/
theorem files_accounted_renamed :
    let first : List Operation := [.assign (.singleton 0x61), .create, .write (.text (.singleton 0x78))]
    let run := first ++ [.rename (.singleton 0x62), .assign (.singleton 0x61), .append,
      .writeLn (.text (.singleton 0xE9)), .append, .newLine, .flush]
    let s := after ((default, default) : TextFile × FileContext) (run.map Operation.act)
    let accounts := accountsAfter (default, default) Volume.initial.accounts run
    let assigned := first ++ [.assign (.singleton 0x62)]
    let t := after ((default, default) : TextFile × FileContext) (assigned.map Operation.act)
    Volume.initial.greatestSize = none ∧
      (s.2.volume.node? 5 = some (.file [0x78]) ∧ s.2.volume.node? 6 = some (.file [0xC3, 0xA9, 0x0A, 0x0A]) ∧
        s.1.target? s.2.volume = some 6 ∧
        (accounts 5).bytes = [0x78] ∧ (accounts 6).bytes = [0xC3, 0xA9, 0x0A, 0x0A]) ∧
      t.2.volume.node? 5 = some (.file [0x78]) ∧ t.1.writer? = none ∧
        (accountsAfter (default, default) Volume.initial.accounts assigned 5).bytes = [0x78] := by
  intro first run s accounts assigned t
  have renamed : s.2.volume.node? 5 = some (.file [0x78]) := by decide +kernel
  have second : s.2.volume.node? 6 = some (.file [0xC3, 0xA9, 0x0A, 0x0A]) := by decide +kernel
  have target : s.1.target? s.2.volume = some 6 := by decide +kernel
  have released : t.2.volume.node? 5 = some (.file [0x78]) := by decide +kernel
  obtain ⟨accounted, -⟩ := files_accounted default rfl run
  obtain ⟨accounted', closed, -⟩ := files_accounted default rfl assigned
  refine ⟨rfl, ⟨renamed, second, target, accounted 5 _ renamed (.inl ?_), accounted 6 _ second (.inr rfl)⟩,
    released, closed rfl, accounted' 5 _ released (.inr rfl)⟩
  rw [target]
  decide

end TextFile

end SystemUnit
