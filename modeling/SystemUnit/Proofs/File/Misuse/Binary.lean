import SystemUnit.Proofs.File.Operation
import SystemUnit.Proofs.File.Event

namespace SystemUnit

/-!
# Misused binary files

An operation on a binary file that is of no use to it, as it is, leaves a code and nothing else, but for a size of
records that it gives.

* `BinaryFile.Operation.need` — what an operation needs of the file;
* `Need.permits` — the access that serves a need;
* `BinaryFile.refusal?` — the code of an operation whose need is not met;
* `BinaryFile.Operation.opensWith` — the access that a file is opened with;
* `BinaryFile.Continues`, `BinaryFile.continues_perform` — what an operation may make of the name and of the access,
  and that it opens a file only by its name;
* `BinaryFile.perform_refused` — an operation whose need is not met leaves its code, and all else as it was.
-/

open FileM

/-- The access that serves a need. -/
def Need.permits : Need → FileMode → Bool
  | .reading => FileMode.canRead
  | .writing => FileMode.canWrite
  | .nothing | .name | .opened => fun _ => true

namespace BinaryFile

/-- What an operation needs of the file. -/
def Operation.need : Operation → Need
  | .assign _ => .nothing
  | .reset _ | .create _ | .erase | .rename _ => .name
  | .close | .flush | .seek _ | .filePos | .fileSize | .eof => .opened
  | .read _ | .blockRead _ _ | .readRecords _ _ => .reading
  | .write _ _ | .blockWrite _ _ | .writeRecords _ _ | .truncate => .writing

/-- Whether an operation gives the file a name. -/
def Operation.assigns : Operation → Bool
  | .assign _ => true
  | _ => false

/-- The code of an operation whose need is not met by a file that has been given a name, or has not. -/
def refusal? (f : BinaryFile) (assigned : Bool) (need : Need) : Option IoCode :=
  match need, f.file with
  | .nothing, _ => none
  | .name, _ => if assigned then none else some .invalidHandle
  | _, none => some .fileNotOpen
  | _, some file => if need.permits file.access then none else some .invalidAccessMode

/-- The file once the size of records that an operation gives has been set. -/
def sizedBy (f : BinaryFile) (op : Operation) : BinaryFile :=
  match op with
  | .reset (some size) | .create (some size) =>
    { f with recordSize := if 0 < size then some size.toNat else none }
  | _ => f

/-- The access that an operation opens a file with: what the mode for binary files asks for, or reading alone if the
    host denies to open the file for reading and writing. -/
def Operation.opensWith (op : Operation) (f : BinaryFile) (c : FileContext) (access : FileMode) : Prop :=
  match op with
  | .reset _ =>
    access = c.mode ∨ c.mode = .readWrite ∧ access = .readOnly ∧
      ∃ name, f.name = some name ∧ c.volume.openFile name.codePoints { writes := true } = .error .denied
  | .create _ => access = .readWrite
  | _ => False

variable {f f' : BinaryFile} {c : FileContext} {op : Operation}

/-! ### What an operation makes of the name and of the open file -/

/-- After an operation, the file has its name or another one in its place.  If it is open, then either it was so with
    the same access, or it has a name and the operation has opened it. -/
structure Continues (op : Operation) (c : FileContext) (f f' : BinaryFile) : Prop where
  named : f'.name.isSome = f.name.isSome
  opened : ∀ file, f'.file = some file →
    (∃ old, f.file = some old ∧ old.access = file.access) ∨ f.name.isSome = true ∧ op.opensWith f c file.access

/-- A file that is closed and has its name, or another one, is fine. -/
theorem continues_closed (named : f'.name.isSome = f.name.isSome) (closed : f'.file = none) :
    Continues op c f f' := by
  refine ⟨named, fun file opened => ?_⟩
  rw [closed] at opened
  cases opened

/-! #### Operations that may move the position -/

/-- An operation keeps the name of a file, and the access of an open one. -/
def Moving {α : Type} (operation : BinaryFileM α) : Prop :=
  ∀ s, (perform operation s).2.1.name = s.1.name ∧
    (perform operation s).2.1.file.map OpenBinary.access = s.1.file.map OpenBinary.access

section Moving

variable {α β : Type}

/-- To answer moves nothing. -/
theorem moving_pure (a : α) : Moving (pure a) := fun _ => ⟨rfl, rfl⟩

/-- What goes on after an operation keeps what the operation has kept. -/
theorem Moving.bind {operation : BinaryFileM α} {next : α → BinaryFileM β} (h : Moving operation)
    (h' : ∀ a, Moving (next a)) : Moving (operation >>= next) := by
  intro s
  rw [perform_bind]
  obtain ⟨named, opened⟩ := h s
  obtain ⟨named', opened'⟩ := h' (perform operation s).1 (perform operation s).2
  exact ⟨named'.trans named, opened'.trans opened⟩

/-- Either way the name and the access are kept. -/
theorem Moving.ite {p : Prop} [Decidable p] {m n : BinaryFileM α} (h : Moving m) (h' : Moving n) :
    Moving (if p then m else n) := by
  split
  · exact h
  · exact h'

theorem moving_get : Moving (get : BinaryFileM BinaryFile) := fun _ => ⟨rfl, rfl⟩

/-- What is done to the volume and the code is nothing to the file. -/
theorem moving_lift (operation : FileM α) : Moving (liftM operation) := fun _ => ⟨rfl, rfl⟩

/-- To look for a file that permits the access leaves at most a code. -/
theorem moving_handle (permitted : FileMode → Bool) : Moving (handle permitted) := by
  intro ⟨f, c⟩
  have same : (perform (handle permitted) (f, c)).2.1 = f := by
    rw [perform_handle]
    cases f.file with
    | none => rfl
    | some file =>
      simp only
      split <;> rfl
  rw [same]
  exact ⟨rfl, rfl⟩

/-- Only the position of the open file is another one. -/
theorem moving_moveTo (offset : Nat) : Moving (moveTo offset) := by
  intro ⟨f, c⟩
  rw [perform_moveTo]
  exact ⟨rfl, by rw [Option.map_map]; rfl⟩

/-- Bytes are read, and the position moves behind them. -/
theorem moving_take (file : OpenBinary) (count : Nat) : Moving (take file count) := by
  unfold take
  refine (moving_lift _).bind fun v => (moving_lift _).bind fun bytes => ?_
  exact (moving_moveTo _).bind fun _ => moving_pure bytes

/-- Bytes are written, and the position moves behind them if that has worked. -/
theorem moving_put (file : OpenBinary) (bytes : List UInt8) : Moving (put file bytes) := by
  unfold put
  refine (moving_lift _).bind fun written => ?_
  cases written with
  | false => exact moving_pure _
  | true => exact (moving_moveTo _).bind fun _ => moving_pure true

/-- An operation on the open file, or a value if it is refused. -/
theorem moving_given {permitted : FileMode → Bool} {next : Option OpenBinary → BinaryFileM α} {a : α}
    (refused : next none = pure a) (given : ∀ file, Moving (next (some file))) :
    Moving (handle permitted >>= next) := by
  refine (moving_handle permitted).bind fun file? => ?_
  cases file? with
  | none =>
    rw [refused]
    exact moving_pure a
  | some file => exact given file

/-- A record is read, whether or not its bytes stand for a value. -/
theorem moving_read (r : RecordType) : Moving (BinaryFile.read r) := by
  unfold BinaryFile.read
  refine moving_given rfl fun file => (moving_take file r.size).bind fun bytes => ?_
  cases bytes with
  | none => exact moving_pure none
  | some bytes =>
    refine Moving.ite ?_ (moving_pure _)
    exact (moving_lift _).bind fun _ => moving_pure _

theorem moving_write (r : RecordType) (value : r.Value) : Moving (BinaryFile.write r value) := by
  unfold BinaryFile.write
  exact moving_given rfl fun file => (moving_put file _).bind fun _ => moving_pure _

/-- A block is read, unless its end is out of reach. -/
theorem moving_blockRead (buffer : List UInt8) (count : Int) : Moving (BinaryFile.blockRead buffer count) := by
  unfold BinaryFile.blockRead
  refine moving_get.bind fun f => moving_given rfl fun file => (moving_lift _).bind fun v => ?_
  refine Moving.ite ((moving_lift _).bind fun _ => moving_pure _) ?_
  refine (moving_take file _).bind fun bytes => ?_
  cases bytes <;> exact moving_pure _

theorem moving_blockWrite (buffer : List UInt8) (count : Int) : Moving (BinaryFile.blockWrite buffer count) := by
  unfold BinaryFile.blockWrite
  refine moving_get.bind fun f => moving_given rfl fun file => (moving_put file _).bind fun written => ?_
  exact Moving.ite (moving_pure _) (moving_pure _)

/-- As many records are read as there are whole ones left. -/
theorem moving_readRecords (r : RecordType) (count : Int) : Moving (BinaryFile.readRecords r count) := by
  unfold BinaryFile.readRecords
  refine moving_given rfl fun file => (moving_lift _).bind fun v => (moving_take file _).bind fun bytes => ?_
  cases bytes <;> exact moving_pure _

theorem moving_writeRecords (r : RecordType) (items : List r.Value) : Moving (BinaryFile.writeRecords r items) := by
  unfold BinaryFile.writeRecords
  refine moving_given rfl fun file => (moving_put file _).bind fun written => ?_
  exact Moving.ite (moving_pure _) (moving_pure _)

/-- A seek moves the position, or leaves the code of a place that is none. -/
theorem moving_seek (position : Int) : Moving (BinaryFile.seek position) := by
  unfold BinaryFile.seek
  refine moving_get.bind fun f => moving_given rfl fun file => (moving_lift _).bind fun v => ?_
  exact Moving.ite ((moving_moveTo _).bind fun _ => moving_lift _) (moving_lift _)

/-- A question about the file changes nothing in it. -/
theorem moving_ask (closed : α) (question : Volume → OpenBinary → Nat → α) : Moving (ask closed question) := by
  unfold ask
  refine moving_get.bind fun f => moving_given rfl fun file => (moving_lift _).bind fun _ => ?_
  exact (moving_lift _).bind fun v => moving_pure _

/-- The file is cut off at the position, which stays. -/
theorem moving_truncate : Moving BinaryFile.truncate := by
  unfold BinaryFile.truncate
  exact moving_given rfl fun file => (moving_lift _).bind fun _ => moving_pure _

/-- Nothing is held back by a binary file, and so a flush leaves but a code. -/
theorem moving_flush : Moving BinaryFile.flush := by
  unfold BinaryFile.flush
  exact (moving_handle _).bind fun file? => Moving.ite (moving_lift _) (moving_pure _)

theorem Moving.map {operation : BinaryFileM α} (h : Moving operation) (g : α → β) : Moving (g <$> operation) :=
  fun s => h s

end Moving

/-! #### Operations by name -/

/-- The access of a file that is opened in one of several modes is that of the first that is not denied. -/
theorem access_openFirst {v v' : Volume} {path : List Char} {file : OpenBinary}
    {modes : List (FileMode × Volume.OpenMode)} (h : openFirst v path modes = .ok (file, v')) :
    ∃ denied mode rest, modes = denied ++ (file.access, mode) :: rest ∧
      ∀ m ∈ denied, v.openFile path m.2 = .error .denied := by
  induction modes with
  | nil => cases h
  | cons m modes ih =>
    obtain ⟨access, mode⟩ := m
    unfold openFirst at h
    -- the first access that is not denied is the one that counts, and so the list is split there
    cases opened : v.openFile path mode with
    | ok result =>
      rw [opened] at h
      cases h
      exact ⟨[], mode, modes, rfl, by simp⟩
    | error e =>
      rw [opened] at h
      -- every other failure ends the search
      cases e with
      | denied =>
        obtain ⟨before, mode', rest, same, denied⟩ := ih h
        refine ⟨(access, mode) :: before, mode', rest, by rw [same]; rfl, ?_⟩
        intro m mem
        rcases List.mem_cons.mp mem with rfl | mem
        · exact opened
        · exact denied m mem
      | notFound | full | tooManyOpen | other => cases h

/-- A file with a name is open as the first mode says that the host does not deny, or closed if there is none. -/
theorem perform_openAs (f : BinaryFile) (name : Text) (modes : List (FileMode × Volume.OpenMode)) :
    (perform (openAs modes) ({ f with name := some name }, c)).2.1 =
      { f with name := some name, file := (openFirst c.volume name.codePoints modes).toOption.map Prod.fst } := by
  unfold openAs
  simp only [perform_bind, perform_modify, perform_get, perform_volume, perform_report]
  cases openFirst c.volume name.codePoints modes <;> rfl

/-- A file is opened by its name in one of the modes, or is closed. -/
theorem continues_openAs {g : BinaryFile} {modes : List (FileMode × Volume.OpenMode)} (same : g.name = f.name)
    (opens : ∀ name file v, f.name = some name → openFirst c.volume name.codePoints modes = .ok (file, v) →
      op.opensWith f c file.access) :
    Continues op c f (perform (openAs modes) (g, c)).2.1 := by
  obtain ⟨gname, gfile, size⟩ := g
  obtain rfl : gname = f.name := same
  cases named : f.name with
  | none => exact continues_closed (by rw [named]; rfl) rfl
  | some name =>
    rw [perform_openAs ⟨some name, gfile, size⟩ name modes]
    -- the file has been closed, so that only the new access is left to be told
    refine ⟨by rw [named], fun file opened => .inr ⟨by rw [named]; rfl, ?_⟩⟩
    cases first : openFirst c.volume name.codePoints modes with
    | error e =>
      rw [first] at opened
      cases opened
    | ok result =>
      rw [first] at opened
      cases opened
      exact opens name result.1 result.2 named first

/-- A file that exists is opened as the mode for binary files says, or only to be read if more is denied. -/
theorem continues_reset {g : BinaryFile} (same : g.name = f.name) (size : Option Int) :
    Continues (.reset size) c f (perform BinaryFile.reset (g, c)).2.1 := by
  show Continues _ c f (perform (openAs (resetModes c.mode)) (g, c)).2.1
  apply continues_openAs same
  intro name file v named first
  obtain ⟨denied, mode, rest, modes, all⟩ := access_openFirst first
  show file.access = c.mode ∨ _
  cases mode : c.mode with
  | readOnly | writeOnly =>
    rw [mode] at modes
    cases denied with
    | nil => exact .inl (Prod.mk.inj (List.cons.inj modes).1).1.symm
    | cons m denied => cases denied <;> cases (List.cons.inj modes).2
  | readWrite =>
    rw [mode] at modes
    cases denied with
    | nil => exact .inl (Prod.mk.inj (List.cons.inj modes).1).1.symm
    | cons m denied =>
      -- the first mode was denied, and so the file is only read
      obtain ⟨rfl, rest'⟩ := List.cons.inj modes
      have readOnly : file.access = .readOnly := by
        cases denied with
        | nil => exact ((Prod.mk.inj (List.cons.inj rest').1).1).symm
        | cons m denied => cases denied <;> cases rest'
      exact .inr ⟨rfl, readOnly, name, named, all _ List.mem_cons_self⟩

/-- A file that is created is open for reading and writing. -/
theorem continues_create {g : BinaryFile} (same : g.name = f.name) (size : Option Int) :
    Continues (.create size) c f (perform BinaryFile.create (g, c)).2.1 := by
  apply continues_openAs same
  intro name file v named first
  obtain ⟨denied, mode, rest, modes, -⟩ := access_openFirst first
  show file.access = .readWrite
  -- there is but one access to try
  cases denied with
  | nil => exact (Prod.mk.inj (List.cons.inj modes).1).1.symm
  | cons m denied => cases denied <;> cases (List.cons.inj modes).2

/-- Every operation that gives no name continues with the file as it was. -/
theorem continues_perform (keeps : op.assigns = false) : Continues op c f (perform op.act (f, c)).2.1 := by
  have moves (moving : Moving op.act) : Continues op c f (perform op.act (f, c)).2.1 := by
    obtain ⟨same, access⟩ := moving (f, c)
    refine ⟨by rw [same], fun file opened => .inl ?_⟩
    rw [opened] at access
    obtain ⟨old, was, eq⟩ := Option.map_eq_some_iff.mp access.symm
    exact ⟨old, was, eq⟩
  -- what opens or closes the file goes by the name that it has; all else may but move the position
  cases op with
  | assign name => cases keeps
  | reset size =>
    cases size with
    | none => exact continues_reset rfl none
    | some size =>
      show Continues _ c f (perform BinaryFile.reset ((perform (setRecordSize size) (f, c)).2.1, c)).2.1
      apply continues_reset
      rfl
  | create size =>
    cases size with
    | none => exact continues_create rfl none
    | some size =>
      show Continues _ c f (perform BinaryFile.create ((perform (setRecordSize size) (f, c)).2.1, c)).2.1
      apply continues_create
      rfl
  | close => exact continues_closed rfl rfl
  | erase =>
    obtain ⟨name, file, size⟩ := f
    cases name with
    | none => exact continues_closed rfl rfl
    | some name =>
      show Continues _ c _ (perform (liftM (deleteFile name)) (⟨some name, none, size⟩, c)).2.1
      exact continues_closed rfl rfl
  | rename new =>
    obtain ⟨name, file, size⟩ := f
    cases name with
    | none => exact continues_closed rfl rfl
    | some name =>
      show Continues _ c _ (perform (do
        if ← renameFile name new then modify fun f : BinaryFile => { f with name := some new })
        (⟨some name, none, size⟩, c)).2.1
      unfold renameFile
      rw [perform_bind, perform_attempt]
      cases c.volume.rename name.codePoints new.codePoints <;> exact continues_closed rfl rfl
  | flush => exact moves (moving_flush.map _)
  | read r => exact moves ((moving_read r).map _)
  | write r value => exact moves ((moving_write r value).map _)
  | blockRead buffer count => exact moves ((moving_blockRead buffer count).map _)
  | blockWrite buffer count => exact moves ((moving_blockWrite buffer count).map _)
  | readRecords r count => exact moves ((moving_readRecords r count).map _)
  | writeRecords r items => exact moves ((moving_writeRecords r items).map _)
  | seek position => exact moves ((moving_seek position).map _)
  | filePos | fileSize | eof => exact moves ((moving_ask _ _).map _)
  | truncate => exact moves (moving_truncate.map _)

/-- A file has a name if it had one or is given one. -/
theorem name_perform (op : Operation) (f : BinaryFile) (c : FileContext) :
    (perform op.act (f, c)).2.1.name.isSome = (f.name.isSome || op.assigns) := by
  cases assigns : op.assigns with
  | false => rw [(continues_perform assigns).named, Bool.or_false]
  | true =>
    cases op with
    | assign name => exact (Bool.or_true _).symm
    | _ => cases assigns

/-- The access of a file that is open after an operation is the one that it had before or that it was opened with. -/
theorem access_perform {file : OpenBinary} (opened : (perform op.act (f, c)).2.1.file = some file) :
    (∃ old, f.file = some old ∧ old.access = file.access) ∨ op.opensWith f c file.access := by
  cases assigns : op.assigns with
  | false => exact ((continues_perform assigns).opened file opened).imp_right And.right
  | true =>
    cases op with
    | assign name => cases opened
    | _ => cases assigns

/-- Only a file with a name is open, if it was so before. -/
theorem named_perform (op : Operation) (f : BinaryFile) (c : FileContext)
    (proper : f.isOpen = true → f.name.isSome = true) :
    (perform op.act (f, c)).2.1.isOpen = true → (perform op.act (f, c)).2.1.name.isSome = true := by
  intro isOpen
  rw [name_perform, Bool.or_eq_true]
  cases assigns : op.assigns with
  | true => exact .inr rfl
  | false =>
    obtain ⟨file, opened⟩ := Option.isSome_iff_exists.mp isOpen
    rcases (continues_perform assigns).opened file opened with ⟨old, was, -⟩ | ⟨hasName, -⟩
    · exact .inl (proper (Option.isSome_iff_exists.mpr ⟨old, was⟩))
    · exact .inl hasName

/-! ### Operations that are refused -/

variable {assigned : Bool} {code : IoCode}

/-- An operation does no more than to ask for the open file where that is refused. -/
def Guarded {α : Type} (permitted : FileMode → Bool) (operation : BinaryFileM α) : Prop :=
  ∀ s, (perform (handle permitted) s).1 = none → (perform operation s).2 = (perform (handle permitted) s).2

section Guarded

variable {α β : Type} {permitted : FileMode → Bool}

/-- What asks for the open file first, and then does nothing without one, is guarded. -/
theorem guarded_given {next : Option OpenBinary → BinaryFileM α} {a : α} (without : next none = pure a) :
    Guarded permitted (handle permitted >>= next) := by
  intro s refused
  rw [perform_bind, refused, without]
  rfl

/-- It does no harm to look at the handle before. -/
theorem Guarded.get {next : BinaryFile → BinaryFileM α} (h : ∀ f, Guarded permitted (next f)) :
    Guarded permitted (get >>= next) :=
  fun s => h s.1 s

theorem Guarded.map {operation : BinaryFileM α} (h : Guarded permitted operation) (g : α → β) :
    Guarded permitted (g <$> operation) :=
  fun s => h s

end Guarded

/-- To close a file asks for an open one, whatever its access. -/
theorem guarded_close : Guarded (fun _ => true) BinaryFile.close := by
  intro ⟨⟨name, file, size⟩, c⟩ refused
  cases file with
  | none => rfl
  | some file => cases refused

/-- A flush asks for an open file, whatever its access. -/
theorem guarded_flush : Guarded (fun _ => true) BinaryFile.flush := by
  unfold BinaryFile.flush
  exact guarded_given rfl

/-- Records are read through an access that permits reading. -/
theorem guarded_read (r : RecordType) : Guarded FileMode.canRead (BinaryFile.read r) := by
  unfold BinaryFile.read
  exact guarded_given rfl

/-- Records are written through an access that permits writing. -/
theorem guarded_write (r : RecordType) (value : r.Value) : Guarded FileMode.canWrite (BinaryFile.write r value) := by
  unfold BinaryFile.write
  exact guarded_given rfl

/-- So are blocks read. -/
theorem guarded_blockRead (buffer : List UInt8) (count : Int) :
    Guarded FileMode.canRead (BinaryFile.blockRead buffer count) := by
  unfold BinaryFile.blockRead
  exact Guarded.get fun f => guarded_given rfl

/-- So are blocks written. -/
theorem guarded_blockWrite (buffer : List UInt8) (count : Int) :
    Guarded FileMode.canWrite (BinaryFile.blockWrite buffer count) := by
  unfold BinaryFile.blockWrite
  exact Guarded.get fun f => guarded_given rfl

theorem guarded_readRecords (r : RecordType) (count : Int) :
    Guarded FileMode.canRead (BinaryFile.readRecords r count) := by
  unfold BinaryFile.readRecords
  exact guarded_given rfl

theorem guarded_writeRecords (r : RecordType) (items : List r.Value) :
    Guarded FileMode.canWrite (BinaryFile.writeRecords r items) := by
  unfold BinaryFile.writeRecords
  exact guarded_given rfl

/-- A seek asks for an open file, whatever its access. -/
theorem guarded_seek (position : Int) : Guarded (fun _ => true) (BinaryFile.seek position) := by
  unfold BinaryFile.seek
  exact Guarded.get fun f => guarded_given rfl

/-- A file is cut off through an access that permits writing. -/
theorem guarded_truncate : Guarded FileMode.canWrite BinaryFile.truncate := by
  unfold BinaryFile.truncate
  exact guarded_given rfl

/-- So does a question about the file ask for an open file first. -/
theorem guarded_ask {α : Type} (closed : α) (question : Volume → OpenBinary → Nat → α) :
    Guarded (fun _ => true) (ask closed question) := by
  unfold ask
  exact Guarded.get fun f => guarded_given rfl

/-- Every operation that needs an open file asks for one whose access serves its need. -/
theorem guarded_act (something : op.need ≠ .nothing) (noName : op.need ≠ .name) :
    Guarded op.need.permits op.act := by
  -- one need for each operation, and the lemma above that serves it
  cases op with
  | assign name => exact absurd rfl something
  | reset size | create size | erase | rename new => exact absurd rfl noName
  | close => exact guarded_close.map _
  | flush => exact guarded_flush.map _
  | read r => exact (guarded_read r).map _
  | write r value => exact (guarded_write r value).map _
  | blockRead buffer count => exact (guarded_blockRead buffer count).map _
  | blockWrite buffer count => exact (guarded_blockWrite buffer count).map _
  | readRecords r count => exact (guarded_readRecords r count).map _
  | writeRecords r items => exact (guarded_writeRecords r items).map _
  | seek position => exact (guarded_seek position).map _
  | filePos | fileSize | eof => exact (guarded_ask _ _).map _
  | truncate => exact guarded_truncate.map _

/-- Where a need of access is not met, no file is given, and the code of the refusal is left. -/
theorem perform_handle_refused {need : Need} (noName : need ≠ .name) (refused : f.refusal? assigned need = some code) :
    perform (handle need.permits) (f, c) = (none, f, { c with result := code }) := by
  rw [perform_handle]
  unfold refusal? at refused
  cases need with
  | nothing => cases refused
  | name => exact absurd rfl noName
  | opened | reading | writing =>
    cases opened : f.file with
    | none =>
      rw [opened] at refused
      cases refused
      rfl
    | some file =>
      rw [opened] at refused
      simp only at refused ⊢
      split at refused
      · cases refused
      · rename_i denied
        cases refused
        exact if_neg denied

/-- A file that is refused for want of a name is closed, and has but a size of records. -/
theorem eq_sized (named : f.name.isSome = assigned) (proper : f.isOpen = true → f.name.isSome = true)
    (refused : f.refusal? assigned .name = some code) : f = { recordSize := f.recordSize } ∧ code = .invalidHandle := by
  unfold refusal? at refused
  simp only at refused
  split at refused
  · cases refused
  rename_i unassigned
  obtain ⟨name, file, size⟩ := f
  -- without a name the file cannot be open, so that only the size of a record is left
  cases name with
  | some name => exact absurd named.symm unassigned
  | none =>
    cases refused
    cases file with
    | none => exact ⟨rfl, rfl⟩
    | some file => cases proper rfl

/-- **An operation whose need is not met leaves its code, and all else as it was, but for a size of records.** -/
theorem perform_refused (named : f.name.isSome = assigned) (proper : f.isOpen = true → f.name.isSome = true)
    (refused : f.refusal? assigned op.need = some code) :
    (perform op.act (f, c)).2 = (f.sizedBy op, { c with result := code }) := by
  -- what needs an open file goes no further than to ask for it
  have given (something : op.need ≠ .nothing) (noName : op.need ≠ .name) :
      (perform op.act (f, c)).2 = (f, { c with result := code }) := by
    have handle := perform_handle_refused (c := c) noName refused
    rw [guarded_act something noName (f, c) (by rw [handle]), handle]
  cases op with
  | assign name => cases refused
  | reset size | create size =>
    obtain ⟨unnamed, rfl⟩ := eq_sized named proper refused
    rw [unnamed]
    cases size <;> rfl
  | erase | rename new =>
    obtain ⟨unnamed, rfl⟩ := eq_sized named proper refused
    rw [unnamed]
    rfl
  | close | flush | read _ | write _ _ | blockRead _ _ | blockWrite _ _ | readRecords _ _ | writeRecords _ _ | seek _
  | filePos | fileSize | eof | truncate => exact given nofun nofun

end BinaryFile

end SystemUnit
