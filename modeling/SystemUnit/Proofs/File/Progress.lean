import SystemUnit.Proofs.File.Outcome.Binary
import SystemUnit.Proofs.Record.Codec
import SystemUnit.Proofs.Volume.Files

namespace SystemUnit

/-!
# Records that are left in a file

Whether a binary file is at its end is asked in bytes, and records are read from it as far as whole ones are left.  In
between lies the end of a record that was cut off: the file is not at its end, no record is read, and no code says so.
A loop that reads records until the end gets there if whole records are left, and stays before the cut one otherwise.

* `Volume.leftIn` — the bytes from the position of an open file on;
* `BinaryFile.perform_eof`, `BinaryFile.perform_readRecords` — the two operations of the loop;
* `BinaryFile.HasLeft`, `BinaryFile.HasLeft.readRecords` — what is left of a regular file, and what reading records
  takes of it;
* `BinaryFile.endsWithin`, `BinaryFile.HasLeft.ends_iff` — the loop, and when it comes to an end;
* `BinaryFile.readRecords_progress` — reading records makes progress exactly if a whole one is left;
* `BinaryFile.readRecords_stalls` — the first bytes of a record, before which the loop stays.
-/

open FileM

/-- The number of bytes from the position of an open file on. -/
def Volume.leftIn (v : Volume) (file : OpenBinary) : Nat := v.sizeOf file.node - v.offsetIn file.node file.offset

/-- There are as many whole records as are asked for, if there are bytes for them. -/
theorem RecordType.length_decodeAll (r : RecordType) {count : Nat} {bytes : List UInt8}
    (enough : count * r.size ≤ bytes.length) : (r.decodeAll count bytes).length = count := by
  induction count generalizing bytes with
  | zero => rfl
  | succ count ih =>
    rw [Nat.succ_mul] at enough
    -- the first record has its bytes, and so it is decoded
    have whole : (r.decode? (bytes.take r.size)).isSome = true := by
      rw [r.isSome_decode?, List.length_take]
      omega
    obtain ⟨v, decoded⟩ := Option.isSome_iff_exists.mp whole
    have rest : count * r.size ≤ (bytes.drop r.size).length := by
      rw [List.length_drop]
      omega
    rw [decodeAll, decoded]
    exact congrArg (· + 1) (ih rest)

/-- The records that are read are among those that are left. -/
theorem RecordType.mul_size_le (r : RecordType) (count : Int) (left : Nat) :
    min count.toNat (left / r.size) * r.size ≤ left :=
  Nat.le_trans (Nat.mul_le_mul_right r.size (Nat.min_le_right _ _)) (Nat.div_mul_le_self _ _)

namespace BinaryFile

variable {f : BinaryFile} {c : FileContext} {file : OpenBinary} {r : RecordType} {count : Int} {bytes : List UInt8}

/-! ### The two operations of a loop -/

/-- An open file is at its end if nothing is left; the question leaves success. -/
theorem perform_eof (opened : f.file = some file) :
    perform eof (f, c) = (decide (c.volume.leftIn file = 0), f, { c with result := .success }) := by
  have question : decide (c.volume.sizeOf file.node ≤ c.volume.offsetIn file.node file.offset) =
      decide (c.volume.leftIn file = 0) := decide_eq_decide.mpr Nat.sub_eq_zero_iff_le.symm
  unfold eof ask
  rw [perform_bind, perform_get, perform_bind, perform_handle, opened]
  exact congrArg (·, f, { c with result := .success }) question

/-- Records are read from the bytes that the host hands out, and the position moves behind these bytes. -/
theorem perform_readRecords (r : RecordType) (count : Int) (opened : f.file = some file)
    (readable : file.access.canRead = true) :
    perform (readRecords r count) (f, c) =
      match taken c.volume file (recordsSize c.volume file r count) with
      | .ok bytes =>
        (r.decodeAll (bytes.length / max r.size 1) bytes,
          { f with file := some { file with offset := file.offset + bytes.length } }, { c with result := .success })
      | .error e => ([], f, { c with result := e.toCode c.volume none }) := by
  obtain ⟨name, _, recordSize⟩ := f
  cases opened
  unfold readRecords
  rw [perform_bind, perform_handle]
  dsimp only
  rw [if_pos readable]
  dsimp only
  rw [perform_bind, perform_volume, perform_bind, perform_take]
  show perform _ _ = match taken c.volume file (recordsSize c.volume file r count) with | _ => _
  -- what the operation asks for is that size, by its definition
  unfold recordsSize
  cases taken c.volume file _ <;> rfl

/-- Where less than a record is left, reading records changes nothing and leaves success. -/
theorem readRecords_of_lt (count : Int) (opened : f.file = some file) (readable : file.access.canRead = true)
    (short : c.volume.leftIn file < r.size) :
    perform (readRecords r count) (f, c) = ([], f, { c with result := .success }) := by
  have none : recordsSize c.volume file r count = 0 := by
    have size : max r.size 1 = r.size := Nat.max_eq_left (by omega)
    -- less than a record is none
    have whole : c.volume.leftIn file / r.size = 0 := Nat.div_eq_of_lt short
    rw [recordsSize, size]
    unfold Volume.leftIn at whole
    rw [whole, Nat.min_zero, Nat.zero_mul]
  obtain ⟨name, _, recordSize⟩ := f
  cases opened
  rw [perform_readRecords r count rfl readable, none, taken, if_pos rfl]
  simp [RecordType.decodeAll]

/-- A regular file is open to be read, and so many bytes are left from the position on. -/
def HasLeft (left : Nat) (s : BinaryFile × FileContext) : Prop :=
  ∃ file bytes, s.1.file = some file ∧ file.access.canRead = true ∧
    s.2.volume.node? file.node = some (.file bytes) ∧ bytes.length - file.offset = left

/-- A file that is open for reading has as many bytes left as lie behind its position. -/
theorem hasLeft_leftIn (opened : f.file = some file) (readable : file.access.canRead = true)
    (node : c.volume.node? file.node = some (.file bytes)) : HasLeft (c.volume.leftIn file) (f, c) := by
  refine ⟨file, bytes, opened, readable, node, ?_⟩
  rw [Volume.leftIn, Volume.sizeOf_of_file node, Volume.offsetIn_of_file node]

namespace HasLeft

variable {left : Nat} (h : HasLeft left (f, c))
include h

/-- The code that is left is no part of what is left to be read. -/
theorem setCode (code : IoCode) : HasLeft left (f, { c with result := code }) := h

/-- A file is at its end when nothing is left. -/
theorem eof : perform BinaryFile.eof (f, c) = (decide (left = 0), f, { c with result := .success }) := by
  obtain ⟨file, bytes, opened, -, node, rfl⟩ := h
  dsimp only at node
  rw [perform_eof opened, Volume.leftIn, Volume.sizeOf_of_file node, Volume.offsetIn_of_file node]

/-- As many records are read as are asked for and left, and their bytes are left no more. -/
theorem readRecords (count : Int) (pos : 0 < r.size) :
    let records := min count.toNat (left / r.size)
    let s := perform (readRecords r count) (f, c)
    s.1.length = records ∧ s.2.2.result = .success ∧ HasLeft (left - records * r.size) s.2 := by
  obtain ⟨file, bytes, opened, readable, node, rfl⟩ := h
  dsimp only at opened node
  intro records
  have size : max r.size 1 = r.size := Nat.max_eq_left pos
  have wanted : recordsSize c.volume file r count = records * r.size := by
    rw [recordsSize, size, Volume.sizeOf_of_file node, Volume.offsetIn_of_file node]
  -- no more is asked for than is there
  have fits : records * r.size ≤ bytes.length - file.offset := r.mul_size_le count _
  have had : taken c.volume file (records * r.size) = .ok ((bytes.drop file.offset).take (records * r.size)) := by
    unfold taken
    split
    · rename_i none
      rw [none, List.take_zero]
    · exact Volume.readAt_of_file node file.offset _
  have length_had : ((bytes.drop file.offset).take (records * r.size)).length = records * r.size := by
    rw [List.length_take, List.length_drop, Nat.min_eq_left fits]
  have performed := perform_readRecords (c := c) r count opened readable
  rw [wanted, had] at performed
  dsimp only at performed
  rw [length_had, size, Nat.mul_div_cancel _ pos] at performed
  dsimp only
  rw [performed]
  refine ⟨r.length_decodeAll (Nat.le_of_eq length_had.symm), rfl, _, bytes, rfl, readable, node, ?_⟩
  exact Nat.sub_add_eq _ _ _

end HasLeft

/-! ### A loop over the records of a file -/

/-- What a round of a loop over a file leaves, which reads records if the file is not at its end. -/
def round (r : RecordType) (count : Int) (s : BinaryFile × FileContext) : BinaryFile × FileContext :=
  (perform (readRecords r count) (perform eof s).2).2

/-- Whether the loop comes to its end within some rounds: at the end of the file, or where a code is left that is not
    success. -/
def endsWithin (r : RecordType) (count : Int) : Nat → BinaryFile × FileContext → Prop
  | 0, _ => False
  | rounds + 1, s =>
    (perform eof s).1 = true ∨ (round r count s).2.result ≠ .success ∨ endsWithin r count rounds (round r count s)

/-- A round takes whole records, and leaves success. -/
theorem HasLeft.round {left : Nat} {s : BinaryFile × FileContext} (h : HasLeft left s) (pos : 0 < r.size) :
    (round r count s).2.result = .success ∧
      HasLeft (left - min count.toNat (left / r.size) * r.size) (round r count s) := by
  obtain ⟨f, c⟩ := s
  obtain ⟨-, code, next⟩ := (h.setCode .success).readRecords count pos
  unfold BinaryFile.round
  rw [h.eof]
  exact ⟨code, next⟩

/-- A loop ends if it is at the end, or does so in a round fewer. -/
theorem HasLeft.endsWithin_succ_iff {left rounds : Nat} {s : BinaryFile × FileContext} (h : HasLeft left s)
    (pos : 0 < r.size) :
    endsWithin r count (rounds + 1) s ↔ left = 0 ∨ endsWithin r count rounds (BinaryFile.round r count s) := by
  obtain ⟨f, c⟩ := s
  rw [endsWithin, (h.round pos).1, h.eof]
  simp

/-- **The loop comes to its end exactly if whole records are left.** -/
theorem HasLeft.ends_iff {left : Nat} {s : BinaryFile × FileContext} (h : HasLeft left s) (pos : 0 < r.size)
    (asked : 0 < count) : (∃ rounds, endsWithin r count rounds s) ↔ r.size ∣ left := by
  constructor
  · rintro ⟨rounds, ends⟩
    induction rounds generalizing left s with
    | zero => exact ends.elim
    | succ rounds ih =>
      rcases (h.endsWithin_succ_iff pos).mp ends with rfl | later
      · exact Nat.dvd_zero _
      · exact (Nat.dvd_sub_iff_left (r.mul_size_le count left) (Nat.dvd_mul_left _ _)).mp (ih (h.round pos).2 later)
  · intro whole
    -- as long as the file is not at its end, a round takes at least one record
    induction left using Nat.strongRecOn generalizing s with
    | _ left ih =>
      by_cases atEnd : left = 0
      · exact ⟨1, (h.endsWithin_succ_iff pos).mpr (.inl atEnd)⟩
      · have one : 0 < left / r.size := Nat.div_pos (Nat.le_of_dvd (Nat.pos_of_ne_zero atEnd) whole) pos
        have taken : 0 < min count.toNat (left / r.size) * r.size := Nat.mul_pos (by omega) pos
        have fewer := Nat.sub_lt (Nat.pos_of_ne_zero atEnd) taken
        have rest := Nat.dvd_sub whole (Nat.dvd_mul_left r.size (min count.toNat (left / r.size)))
        obtain ⟨rounds, ends⟩ := ih _ fewer (h.round pos).2 rest
        exact ⟨rounds + 1, (h.endsWithin_succ_iff pos).mpr (.inr ends)⟩

/-! ### Progress -/

/-- Bytes are handed out by what is a regular file, or has none left. -/
theorem exists_node_of_taken {wanted : Nat} (more : c.volume.leftIn file ≠ 0) (pos : 0 < wanted)
    (had : taken c.volume file wanted = .ok bytes) :
    ∃ bytes, c.volume.node? file.node = some (.file bytes) := by
  rw [taken, if_neg (by omega)] at had
  unfold Volume.readAt at had
  unfold Volume.leftIn Volume.sizeOf at more
  cases node : c.volume.node? file.node with
  | none =>
    rw [node] at had
    cases had
  | some n =>
    rw [node] at had more
    -- a device has no size, and so nothing is left of it
    cases n with
    | file bytes => exact ⟨bytes, rfl⟩
    | directory parent removed entries => cases had
    | sink | fullDevice => exact absurd (Nat.zero_sub _) more

/-- Where at least a record is left, reading records gives one or leaves the code of a failure. -/
theorem readRecords_of_le (opened : f.file = some file) (readable : file.access.canRead = true) (pos : 0 < r.size)
    (asked : 0 < count) (enough : r.size ≤ c.volume.leftIn file) :
    let s := perform (readRecords r count) (f, c)
    s.1 ≠ [] ∨ s.2.2.result ≠ .success := by
  have records : 0 < min count.toNat (c.volume.leftIn file / r.size) := by
    have whole : 0 < c.volume.leftIn file / r.size := Nat.div_pos enough pos
    omega
  have size : max r.size 1 = r.size := Nat.max_eq_left pos
  -- at least one record is asked for, which is there
  have wanted : 0 < recordsSize c.volume file r count := by
    rw [recordsSize, size]
    exact Nat.mul_pos records pos
  cases had : taken c.volume file (recordsSize c.volume file r count) with
  | error e =>
    right
    rw [perform_readRecords r count opened readable, had]
    exact e.toCode_ne_success c.volume none
  | ok bytes =>
    left
    obtain ⟨bytes, node⟩ := exists_node_of_taken (by omega) wanted had
    have length := ((hasLeft_leftIn opened readable node).readRecords count pos).1
    intro none
    rw [none, List.length_nil] at length
    omega

/-- **Reading records makes progress exactly if a whole record is left**: where the file is not at its end, a record
    comes back, or the code of a failure is left, if there are bytes for one; and else nothing comes back, the code is
    success, and the file stays as it is.  So a loop that reads records up to the end of a regular file gets there
    exactly if whole records are left. -/
theorem readRecords_progress (opened : f.file = some file) (readable : file.access.canRead = true)
    (pos : 0 < r.size) (asked : 0 < count) :
    ((perform eof (f, c)).1 = false →
      let s := perform (readRecords r count) (perform eof (f, c)).2
      ((s.1 ≠ [] ∨ s.2.2.result ≠ .success) ↔ r.size ≤ c.volume.leftIn file) ∧
        (c.volume.leftIn file < r.size → s = ([], (perform eof (f, c)).2) ∧ s.2.2.result = .success)) ∧
    ∀ bytes, c.volume.node? file.node = some (.file bytes) →
      ((∃ rounds, endsWithin r count rounds (f, c)) ↔ r.size ∣ c.volume.leftIn file) := by
  constructor
  · intro _
    rw [perform_eof opened]
    dsimp only
    have short (lt : c.volume.leftIn file < r.size) :=
      readRecords_of_lt (c := { c with result := .success }) count opened readable lt
    refine ⟨⟨?_, ?_⟩, fun lt => ?_⟩
    · intro progress
      -- with less than a record left the round gives nothing, and says that it has worked
      by_contra lt
      rw [short (Nat.lt_of_not_le lt)] at progress
      simp at progress
    · intro enough
      exact readRecords_of_le (c := { c with result := .success }) opened readable pos asked enough
    · rw [short lt]
      exact ⟨rfl, rfl⟩
  · intro bytes node
    exact (hasLeft_leftIn opened readable node).ends_iff pos asked

/-- A file that bytes have been written to, with the position set. -/
def positioned (bytes : List UInt8) (position : Int) : BinaryFile × FileContext :=
  after ((default, default) : BinaryFile × FileContext)
    ([Operation.assign (.singleton 0x61), .create none, .blockWrite bytes bytes.length, .seek position].map
      Operation.act)

/-- Three pairs of bytes behind one that is not read. -/
theorem readRecords_progress_pairs :
    let r : RecordType := .scalar (.whole .smallInt)
    let s := positioned [0, 1, 2, 3, 4, 5, 6] 1
    s.1.file = some ⟨5, .readWrite, 1⟩ ∧ 0 < r.size ∧ (perform eof s).1 = false ∧
      ((perform (readRecords r 2) (perform eof s).2).1 ≠ [] ∨
        (perform (readRecords r 2) (perform eof s).2).2.2.result ≠ .success) ∧
      ∃ rounds, endsWithin r 2 rounds s := by
  intro r s
  have node : s.2.volume.node? 5 = some (.file [0, 1, 2, 3, 4, 5, 6]) := by decide +kernel
  have opened : s.1.file = some ⟨5, .readWrite, 1⟩ := rfl
  have asked : (0 : Int) < 2 := by decide
  obtain ⟨once, loop⟩ := readRecords_progress (c := s.2) (r := r) opened rfl (by decide) asked
  have more : (perform eof s).1 = false := by decide +kernel
  exact ⟨opened, by decide, more, (once more).1.mpr (by decide +kernel), (loop _ node).mpr (by decide +kernel)⟩

/-- Before the first three bytes of a record of four the file is not at its end, no record is read, and the code is
    success; a loop stays there. -/
theorem readRecords_stalls :
    let r : RecordType := .scalar (.whole .integer)
    let s := positioned [1, 2, 3] 0
    let read := perform (readRecords r 1) (perform eof s).2
    (perform eof s).1 = false ∧ 0 < r.size ∧ read.1 = [] ∧ read.2.2.result = .success ∧
      ¬ (read.1 ≠ [] ∨ read.2.2.result ≠ .success) ∧ ∀ rounds, ¬ endsWithin r 1 rounds s := by
  intro r s read
  -- three bytes, of a record of four
  have left : HasLeft 3 s := ⟨⟨5, .readWrite, 0⟩, [1, 2, 3], rfl, rfl, by decide +kernel, rfl⟩
  have none : read.1 = [] := by decide +kernel
  have code : read.2.2.result = .success := by decide +kernel
  refine ⟨by decide +kernel, by decide, none, code, ?_, ?_⟩
  · rw [none, code]
    simp
  · intro rounds ends
    exact absurd ((left.ends_iff (by decide) (by decide)).mp ⟨rounds, ends⟩) (by decide +kernel)

end BinaryFile

end SystemUnit
