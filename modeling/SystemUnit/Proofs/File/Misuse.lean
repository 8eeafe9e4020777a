import SystemUnit.Proofs.File.Misuse.Text
import SystemUnit.Proofs.File.Misuse.Binary

namespace SystemUnit

/-!
# Misused handles

A handle is open only if it has been given a name, and an operation that a handle cannot serve as it is leaves the
code that says so, and the handle and all files as they were.

* `refused_changes_nothing` — so it is at every moment of what may happen to a handle, of either kind.
-/

open FileM

/-- **An operation that a handle cannot serve changes nothing but the code**, whatever has happened to the handle
    since it was fresh.  Without an open file, the code is that a file is not open; without a name that was ever given,
    that the handle is invalid; and with a file that is open for something else, that the access is invalid.  Only the
    size of records that an operation gives is set first, and the access of an open file is the one that it was opened
    with. -/
theorem refused_changes_nothing (c : FileContext) :
    (∀ run : List (Event TextFile.Operation),
      let s := after ((default, c) : TextFile × FileContext) (run.map (Event.act TextFile.Operation.act))
      let assigned := run.any (Event.isOperation TextFile.Operation.assigns)
      (s.1.isOpen = true → assigned = true) ∧
        ∀ (op : TextFile.Operation) code, s.1.refusal? assigned op.need = some code →
          (perform op.act s).2 = (s.1, { s.2 with result := code })) ∧
    ∀ run : List (Event BinaryFile.Operation),
      let s := after ((default, c) : BinaryFile × FileContext) (run.map (Event.act BinaryFile.Operation.act))
      let assigned := run.any (Event.isOperation BinaryFile.Operation.assigns)
      (s.1.isOpen = true → assigned = true) ∧
        (∀ (op : BinaryFile.Operation) code, s.1.refusal? assigned op.need = some code →
          (perform op.act s).2 = (s.1.sizedBy op, { s.2 with result := code })) ∧
        (∀ (op : BinaryFile.Operation) file, (perform op.act s).2.1.file = some file →
          (∃ old, s.1.file = some old ∧ old.access = file.access) ∨ op.opensWith s.1 s.2 file.access) ∧
        ∀ size, (perform (BinaryFile.Operation.reset (some size)).act s).2 =
            (perform (BinaryFile.Operation.reset none).act (s.1.sizedBy (.reset (some size)), s.2)).2 ∧
          (perform (BinaryFile.Operation.create (some size)).act s).2 =
            (perform (BinaryFile.Operation.create none).act (s.1.sizedBy (.create (some size)), s.2)).2 := by
  constructor
  · intro run s assigned
    have named : s.1.name.isSome = assigned :=
      Event.after_isOperation (p := fun f : TextFile => f.name.isSome) TextFile.name_perform run (default, c)
    have proper : s.1.isOpen = true → s.1.name.isSome = true :=
      Event.after_invariant (P := fun f : TextFile => f.isOpen = true → f.name.isSome = true)
        TextFile.named_perform run (s := (default, c)) nofun
    refine ⟨fun isOpen => named ▸ proper isOpen, fun op code refused => ?_⟩
    exact TextFile.perform_refused named proper refused
  · intro run s assigned
    have named : s.1.name.isSome = assigned :=
      Event.after_isOperation (p := fun f : BinaryFile => f.name.isSome) BinaryFile.name_perform run (default, c)
    have proper : s.1.isOpen = true → s.1.name.isSome = true :=
      Event.after_invariant (P := fun f : BinaryFile => f.isOpen = true → f.name.isSome = true)
        BinaryFile.named_perform run (s := (default, c)) nofun
    refine ⟨fun isOpen => named ▸ proper isOpen, fun op code refused => ?_, fun op file opened => ?_, fun size => ?_⟩
    · exact BinaryFile.perform_refused named proper refused
    · exact BinaryFile.access_perform opened
    · exact ⟨rfl, rfl⟩

/-- A file that is written is not read, and a record of any size is no help to a file without a name. -/
theorem refused_reading_and_naming :
    (let run : List (Event TextFile.Operation) :=
      [.operation (.assign (.singleton 0x61)), .operation .create, .elsewhere fun c => { c with result := .diskFull },
        .operation (.write (.text (.singleton 0x78)))]
    let s := after ((default, default) : TextFile × FileContext) (run.map (Event.act TextFile.Operation.act))
    s.1.refusal? true .reading = some .invalidAccessMode ∧
      (perform TextFile.Operation.readLn.act s).2 = (s.1, { s.2 with result := .invalidAccessMode })) ∧
    (perform (BinaryFile.Operation.reset (some 4)).act (default, default)).2 =
      ({ recordSize := some 4 }, { (default : FileContext) with result := .invalidHandle }) :=
  have refused : _ = some IoCode.invalidAccessMode := by decide +kernel
  ⟨⟨refused, ((refused_changes_nothing default).1 _).2 .readLn .invalidAccessMode refused⟩,
    ((refused_changes_nothing default).2 []).2.1 (.reset (some 4)) .invalidHandle rfl⟩

end SystemUnit
