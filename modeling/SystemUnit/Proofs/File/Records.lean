import SystemUnit.Proofs.File.Operation
import SystemUnit.Proofs.Record.Codec
import SystemUnit.Proofs.Volume.Files
import SystemUnit.Proofs.Whole.Range
import Mathlib.Algebra.Group.Int.Defs

namespace SystemUnit

/-!
# Files of records

A binary file that was created with the size of a type of records is a list of such records and an index, as long
as it is used for records of that type and the host refuses nothing but a position.

* `RecordList`, `RecordCall` — a list with an index, and the operations on a file of records;
* `RecordList.step` — the answer, the code and the list after an operation;
* `RecordList.Represents` — a file holds the bytes of the records and stands at the index;
* `RecordList.Represents.step`, `RecordList.Represents.run` — it still does after one operation, and after a run,
  and gives the answers of the list;
* `trace_of_created` — from the creation of a file on.
-/

open FileM BinaryFile

variable {r : RecordType}

/-- The operations on a file of records of a type. -/
inductive RecordCall (r : RecordType) where
  | write (value : r.Value)
  | read
  | seek (position : Int)
  | truncate
  | filePos
  | fileSize
  | eof

/-- An operation on a file of records, as one on a binary file. -/
def RecordCall.operation : RecordCall r → BinaryFile.Operation
  | write value => .write r value
  | read => .read r
  | seek position => .seek position
  | truncate => .truncate
  | filePos => .filePos
  | fileSize => .fileSize
  | eof => .eof

/-- Records and the index of the next one. -/
structure RecordList (r : RecordType) where
  records : List r.Value := []
  index : Nat := 0

namespace RecordList

variable (l : RecordList r)

/-- The records before the index; records of zero bytes fill a gap. -/
def cut : List r.Value := l.records.take l.index ++ List.replicate (l.index - l.records.length) r.zero

/-- The records with another one at the index; records of zero bytes fill a gap. -/
def put (value : r.Value) : List r.Value :=
  if l.index < l.records.length then l.records.set l.index value
  else l.records ++ List.replicate (l.index - l.records.length) r.zero ++ [value]

/-- What an operation answers, the code that it leaves, and the list after it. -/
def step : RecordCall r → (Answer × IoCode) × RecordList r
  | .write value => ((.done, .success), ⟨l.put value, l.index + 1⟩)
  | .read =>
    match l.records[l.index]? with
    | some value => ((.record r (some value), .success), ⟨l.records, l.index + 1⟩)
    | none => ((.record r none, .ioError), l)
  | .seek position =>
    if 0 ≤ position ∧ position * r.size ≤ 2 ^ 63 - 1 then ((.done, .success), ⟨l.records, position.toNat⟩)
    else ((.done, .ioError), l)
  | .truncate => ((.done, .success), ⟨l.cut, l.index⟩)
  | .filePos => ((.position (Whole.ofNat .int64 l.index), .success), l)
  | .fileSize => ((.position (Whole.ofNat .int64 l.records.length), .success), l)
  | .eof => ((.truth (l.records.length ≤ l.index), .success), l)

/-- The list after a run. -/
def after : RecordList r → List (RecordCall r) → RecordList r
  | l, [] => l
  | l, call :: rest => after (l.step call).2 rest

/-- The answers and the codes of a run. -/
def trace : RecordList r → List (RecordCall r) → List (Answer × IoCode)
  | _, [] => []
  | l, call :: rest => (l.step call).1 :: trace (l.step call).2 rest

/-- A file of an unlimited volume is open to read and to write.  It holds the bytes of the records, counts in
    records, and stands at the index. -/
structure Represents (id : NodeId) (s : BinaryFile × FileContext) : Prop where
  file : s.1.file = some ⟨id, .readWrite, l.index * r.size⟩
  size : s.1.recordSize = some r.size
  bytes : s.2.volume.node? id = some (.file (r.encodeAll l.records))
  unlimited : s.2.volume.greatestSize = none

/-! ### Records and their bytes -/

/-- A record that is put at the index stands between those before it and those behind it. -/
theorem put_eq (value : r.Value) : l.put value = l.cut ++ value :: l.records.drop (l.index + 1) := by
  unfold put cut
  split
  · rename_i inside
    rw [List.set_eq_take_append_cons_drop, if_pos inside, Nat.sub_eq_zero_of_le (Nat.le_of_lt inside)]
    simp
  · rename_i outside
    rw [List.take_of_length_le (by omega), List.drop_of_length_le (by omega)]

/-- What is before the index takes the bytes before the offset. -/
theorem encodeAll_cut :
    r.encodeAll l.cut = (r.encodeAll l.records).take (l.index * r.size) ++
      List.replicate (l.index * r.size - (r.encodeAll l.records).length) 0 := by
  rw [cut, r.encodeAll_append, r.take_encodeAll, r.encodeAll_replicate_zero, r.length_encodeAll, Nat.sub_mul]

/-- A record is put where its bytes are put. -/
theorem encodeAll_put (value : r.Value) :
    r.encodeAll (l.put value) =
      Volume.splice (r.encodeAll l.records) (l.index * r.size) (r.encode value) := by
  have behind : l.index * r.size + (r.encode value).length = (l.index + 1) * r.size := by
    rw [r.length_encode, Nat.succ_mul]
  rw [put_eq, r.encodeAll_append, encodeAll_cut, Volume.splice, behind, r.drop_encodeAll, r.encodeAll_cons,
    List.append_assoc (_ ++ _)]

/-- The bytes from the offset on, as many as a record has, are those of the record at the index. -/
theorem take_drop_encodeAll :
    ((r.encodeAll l.records).drop (l.index * r.size)).take r.size = (l.records[l.index]?).elim [] r.encode := by
  rw [r.drop_encodeAll]
  cases at_index : l.records[l.index]? with
  | none =>
    rw [List.drop_of_length_le (List.getElem?_eq_none_iff.mp at_index), r.encodeAll_nil, List.take_nil]
    rfl
  | some value =>
    obtain ⟨lt, rfl⟩ := List.getElem?_eq_some_iff.mp at_index
    rw [List.drop_eq_getElem_cons lt]
    exact List.take_left' (r.length_encode _)

/-! ### One operation -/

namespace Represents

variable {l} {id : NodeId} {f : BinaryFile} {c : FileContext} (h : l.Represents id (f, c))
include h

/-- The file is there for every access. -/
theorem handle {permitted : FileMode → Bool} (both : permitted .readWrite = true) :
    perform (handle permitted) (f, c) = (some ⟨id, .readWrite, l.index * r.size⟩, f, c) := by
  have file := h.file
  dsimp only at file
  rw [perform_handle, file]
  exact if_pos both

/-- The size of a record is the unit of the file. -/
theorem unit : f.unit = r.size := by
  have size := h.size
  dsimp only at size
  rw [BinaryFile.unit, size]
  rfl

/-- The code that is left is no part of what a file holds. -/
theorem setCode (code : IoCode) : l.Represents id (f, { c with result := code }) :=
  ⟨h.file, h.size, h.bytes, h.unlimited⟩

/-- The index moves with the position. -/
theorem moveTo (index : Nat) :
    (⟨l.records, index⟩ : RecordList r).Represents id (perform (moveTo (index * r.size)) (f, c)).2 := by
  refine ⟨?_, h.size, h.bytes, h.unlimited⟩
  rw [perform_moveTo, h.file]
  rfl

/-- Other records have taken the place of those that were there. -/
theorem setBytes (records : List r.Value) :
    (⟨records, l.index⟩ : RecordList r).Represents id
      (f, { c with volume := c.volume.set id (.file (r.encodeAll records)), result := .success }) :=
  ⟨h.file, h.size, Volume.node?_set_self h.bytes _, h.unlimited⟩

/-- **A record that is written is put at the index**, which moves on by one. -/
theorem write (pos : 0 < r.size) (value : r.Value) :
    let s := (perform (BinaryFile.write r value) (f, c)).2
    s.2.result = .success ∧ (⟨l.put value, l.index + 1⟩ : RecordList r).Represents id s := by
  -- a record takes a byte at least, and so there is something to write
  have data : r.encode value ≠ [] := by
    intro none
    have length_eq := r.length_encode value
    rw [none] at length_eq
    exact absurd length_eq (Nat.ne_of_lt pos)
  have written := Volume.writeAt_of_file h.bytes (l.index * r.size) h.unlimited data
  have next : l.index * r.size + (r.encode value).length = (l.index + 1) * r.size := by
    rw [r.length_encode, Nat.succ_mul]
  have performed : (perform (BinaryFile.write r value) (f, c)).2 =
      (perform (BinaryFile.moveTo ((l.index + 1) * r.size)) (f, { c with
        volume := c.volume.set id (.file (r.encodeAll (l.put value))), result := .success })).2 := by
    unfold BinaryFile.write
    rw [perform_bind, h.handle rfl]
    simp only
    rw [perform_bind, perform_put, written, next, encodeAll_put]
    rfl
  rw [performed]
  exact ⟨rfl, (h.setBytes (l.put value)).moveTo (l.index + 1)⟩

/-- **A record that is read is the one at the index**; beyond the last one there is none, and an error. -/
theorem read (pos : 0 < r.size) :
    let s := perform (BinaryFile.read r) (f, c)
    match l.records[l.index]? with
    | some value =>
      s.1 = some value ∧ s.2.2.result = .success ∧
        (⟨l.records, l.index + 1⟩ : RecordList r).Represents id s.2
    | none => s.1 = none ∧ s.2.2.result = .ioError ∧ l.Represents id s.2 := by
  have read := Volume.readAt_of_file h.bytes (l.index * r.size) r.size
  rw [take_drop_encodeAll] at read
  have had : taken c.volume ⟨id, .readWrite, l.index * r.size⟩ r.size =
      .ok ((l.records[l.index]?).elim [] r.encode) := by
    rw [taken, if_neg (Nat.pos_iff_ne_zero.mp pos)]
    exact read
  unfold BinaryFile.read
  rw [perform_bind, h.handle rfl]
  simp only
  rw [perform_bind, perform_take, had]
  -- the bytes that are left are none, or those of one record at least
  cases at_index : l.records[l.index]? with
  | some value =>
    have back := r.decode?_encode_append value []
    rw [List.append_nil] at back
    have next : l.index * r.size + (r.encode value).length = (l.index + 1) * r.size := by
      rw [r.length_encode, Nat.succ_mul]
    simp only [Except.toOption, Option.map_some, Option.getD_some, Volume.codeOf, Option.elim_some, next, back]
    exact ⟨rfl, rfl, (h.setCode .success).moveTo (l.index + 1)⟩
  | none =>
    have short : r.decode? [] = none := by
      rw [← Option.not_isSome_iff_eq_none, r.isSome_decode?]
      exact Nat.not_le.mpr pos
    simp only [Except.toOption, Option.map_some, Option.getD_some, Volume.codeOf, Option.elim_none, short]
    exact ⟨rfl, rfl, (h.setCode .ioError).moveTo l.index⟩

/-- **A seek moves the index**, also beyond the last record, unless its offset is too great for a file. -/
theorem seek (position : Int) :
    let s := perform (BinaryFile.seek position) (f, c)
    if 0 ≤ position ∧ position * r.size ≤ 2 ^ 63 - 1 then
      s.2.2.result = .success ∧ (⟨l.records, position.toNat⟩ : RecordList r).Represents id s.2
    else s.2.2.result = .ioError ∧ l.Represents id s.2 := by
  -- the greatest offset of a file is below that of a number of 64 bits
  have accepted : (0 ≤ position ∧ position.toNat * r.size < offsetLimit ∧
      c.volume.mayMoveTo id (position.toNat * r.size) = true) ↔
        0 ≤ position ∧ position * r.size ≤ 2 ^ 63 - 1 := by
    have may := Volume.mayMoveTo_of_file h.bytes (position.toNat * r.size)
    dsimp only at may
    rw [may, decide_eq_true_eq, Volume.greatestOffset, offsetLimit]
    refine and_congr_right fun nonneg => ?_
    obtain ⟨n, rfl⟩ := Int.eq_ofNat_of_zero_le nonneg
    have product : (n : Int) * r.size = (n * r.size : Nat) := (Int.natCast_mul n r.size).symm
    rw [Int.toNat_natCast, product]
    omega
  unfold BinaryFile.seek
  rw [perform_bind, perform_get, perform_bind, h.handle rfl]
  simp only [h.unit]
  rw [perform_bind, perform_volume, perform_ite]
  simp only [accepted]
  split
  · exact ⟨rfl, (h.moveTo position.toNat).setCode .success⟩
  · exact ⟨rfl, h.setCode .ioError⟩

/-- **To truncate is to leave out the records from the index on**, or to fill the gap up to it with zeros. -/
theorem truncate :
    let s := (perform BinaryFile.truncate (f, c)).2
    s.2.result = .success ∧ (⟨l.cut, l.index⟩ : RecordList r).Represents id s := by
  have resized := Volume.resize_of_file h.bytes (l.index * r.size) h.unlimited
  rw [← encodeAll_cut, ← Volume.offsetIn_of_file h.bytes (l.index * r.size)] at resized
  have performed : (perform BinaryFile.truncate (f, c)).2 =
      (f, { c with volume := c.volume.set id (.file (r.encodeAll l.cut)), result := .success }) := by
    unfold BinaryFile.truncate
    rw [perform_bind, h.handle rfl]
    simp only
    rw [perform_bind, perform_attempt]
    dsimp only at resized ⊢
    rw [resized]
    rfl
  rw [performed]
  exact ⟨rfl, h.setBytes l.cut⟩

/-- A question is answered by the volume, the place in the file and the size of a record. -/
theorem ask {α : Type} (closed : α) (question : Volume → OpenBinary → Nat → α) :
    perform (ask closed question) (f, c) =
      (question c.volume ⟨id, .readWrite, l.index * r.size⟩ r.size, f, { c with result := .success }) := by
  unfold BinaryFile.ask
  rw [perform_bind, perform_get, perform_bind, h.handle rfl, h.unit]
  rfl

/-- **One operation** answers as the list does, leaves its code, and leaves a file that holds the list after it. -/
theorem step (pos : 0 < r.size) (call : RecordCall r) :
    let s := perform call.operation.act (f, c)
    (s.1, s.2.2.result) = (l.step call).1 ∧ (l.step call).2.Represents id s.2 := by
  -- the questions about the position are answered in records
  have offset := Volume.offsetIn_of_file h.bytes (l.index * r.size)
  have size := Volume.sizeOf_of_file h.bytes
  dsimp only at offset size
  rw [r.length_encodeAll] at size
  cases call with
  | write value =>
    obtain ⟨code, after⟩ := h.write pos value
    exact ⟨congrArg (Answer.done, ·) code, after⟩
  | read =>
    have read := h.read pos
    dsimp only [RecordCall.operation, Operation.act, RecordList.step]
    rw [perform_map]
    cases at_index : l.records[l.index]? with
    | some value | none =>
      rw [at_index] at read
      obtain ⟨answer, code, after⟩ := read
      exact ⟨by rw [answer, code], after⟩
  | seek position =>
    have sought := h.seek position
    dsimp only [RecordCall.operation, Operation.act, RecordList.step]
    rw [perform_map]
    split
    · rename_i accepted
      rw [if_pos accepted] at sought
      exact ⟨congrArg (Answer.done, ·) sought.1, sought.2⟩
    · rename_i refused
      rw [if_neg refused] at sought
      exact ⟨congrArg (Answer.done, ·) sought.1, sought.2⟩
  | truncate =>
    obtain ⟨code, after⟩ := h.truncate
    exact ⟨congrArg (Answer.done, ·) code, after⟩
  | filePos =>
    dsimp only [RecordCall.operation, Operation.act, RecordList.step, filePos]
    rw [perform_map, h.ask, offset, Nat.mul_div_cancel l.index pos]
    exact ⟨rfl, h.setCode .success⟩
  | fileSize =>
    dsimp only [RecordCall.operation, Operation.act, RecordList.step, fileSize]
    rw [perform_map, h.ask, size, Nat.mul_div_cancel _ pos]
    exact ⟨rfl, h.setCode .success⟩
  | eof =>
    dsimp only [RecordCall.operation, Operation.act, RecordList.step, eof]
    rw [perform_map, h.ask, offset, size]
    exact ⟨by simp only [Nat.mul_le_mul_right_iff pos], h.setCode .success⟩

end Represents

/-! ### Runs -/

/-- **A run** on a file of records answers as the list does and leaves its codes. -/
theorem Represents.run {l : RecordList r} {id : NodeId} {s : BinaryFile × FileContext} (h : l.Represents id s)
    (pos : 0 < r.size) (calls : List (RecordCall r)) :
    FileM.trace s (calls.map (·.operation.act)) = l.trace calls ∧
      (l.after calls).Represents id (FileM.after s (calls.map (·.operation.act))) := by
  -- the rest of the run starts from the list after the first operation
  induction calls generalizing l s with
  | nil => exact ⟨rfl, h⟩
  | cons call calls ih =>
    obtain ⟨answer, next⟩ := h.step pos call
    obtain ⟨answers, last⟩ := ih next
    refine ⟨?_, last⟩
    rw [List.map_cons, FileM.trace, RecordList.trace, answer, answers]

/-! ### From the creation on -/

/-- A file that was just created for records holds none. -/
theorem represents_created {name : Text} {id : NodeId} {v : Volume} {f : BinaryFile} {c : FileContext}
    (pos : 0 < r.size) (named : f.name = some name)
    (opened : c.volume.openFile name.codePoints { writes := true, creates := true, truncates := true } =
      .ok (id, v))
    (file : v.isFile id = true) (unlimited : c.volume.greatestSize = none) :
    let s := perform (Operation.create (some r.size)).act (f, c)
    (s.1, s.2.2.result) = (.done, .success) ∧ (⟨[], 0⟩ : RecordList r).Represents id s.2 := by
  obtain ⟨empty, same⟩ := Volume.node?_of_openFile rfl rfl opened file
  -- the size that is given is that of the records, and not the one of before
  have size : (if 0 < (r.size : Int) then some (r.size : Int).toNat else none) = some r.size :=
    if_pos (Int.natCast_pos.mpr pos)
  have first : openFirst c.volume name.codePoints
      [(.readWrite, { writes := true, creates := true, truncates := true })] =
        .ok (⟨id, .readWrite, 0⟩, v) := by
    unfold openFirst
    rw [opened]
  have performed : perform (Operation.create (some r.size)).act (f, c) =
      (.done, ⟨some name, some ⟨id, .readWrite, 0⟩, some r.size⟩,
        { c with volume := v, result := .success }) := by
    dsimp only [Operation.act, sized, create, openAs, setRecordSize, Option.forM]
    simp only [perform_map, perform_bind, perform_modify, perform_get, perform_volume, perform_report, named,
      first, size]
    rfl
  dsimp only
  rw [performed]
  exact ⟨rfl, by rw [Nat.zero_mul], rfl, empty, same.trans unlimited⟩

/-- Positions and sizes below the greatest integer of 64 bits are answered as they are. -/
theorem toInt_ofNat_int64 {n : Nat} (lt : n < 2 ^ 63) : (Whole.ofNat .int64 n).toInt = n := by
  have greatest : WholeKind.int64.greatest = 2 ^ 63 - 1 := by decide
  exact Whole.toInt_ofNat (by omega)

/-- **A file that was created for records is a list of records with an index**: every run on it answers as the
    list does, which starts empty, and leaves the same codes; and the file always holds the bytes of the list.
    The counts that it answers are exact as long as they fit. -/
theorem trace_of_created {name : Text} {id : NodeId} {v : Volume} {f : BinaryFile} {c : FileContext}
    (pos : 0 < r.size) (named : f.name = some name)
    (opened : c.volume.openFile name.codePoints { writes := true, creates := true, truncates := true } =
      .ok (id, v))
    (file : v.isFile id = true) (unlimited : c.volume.greatestSize = none) (calls : List (RecordCall r)) :
    let run := (Operation.create (some r.size)).act :: calls.map (·.operation.act)
    FileM.trace (f, c) run = (.done, .success) :: (⟨[], 0⟩ : RecordList r).trace calls ∧
      ((⟨[], 0⟩ : RecordList r).after calls).Represents id (FileM.after (f, c) run) ∧
      ∀ n < 2 ^ 63, (Whole.ofNat .int64 n).toInt = n := by
  obtain ⟨created, empty⟩ := represents_created pos named opened file unlimited
  obtain ⟨answers, last⟩ := empty.run pos calls
  -- the list begins empty, and the run goes on from there
  refine ⟨?_, last, fun n lt => toInt_ofNat_int64 lt⟩
  rw [FileM.trace, created, answers]

/-- A record behind a gap, and what is read before it. -/
theorem trace_of_created_pairs :
    let r : RecordType := .array (.scalar (.whole .smallInt)) 2
    let seven : r.Value := .replicate 2 (Whole.ofNat .smallInt 7)
    let calls : List (RecordCall r) := [.seek 2, .write seven, .fileSize, .seek 1, .read, .read, .read, .eof]
    let f : BinaryFile := { name := some (.singleton 0x61) }
    FileM.trace (f, ({ } : FileContext)) ((Operation.create (some r.size)).act :: calls.map (·.operation.act)) =
      [(.done, .success), (.done, .success), (.done, .success), (.position (Whole.ofNat .int64 3), .success),
        (.done, .success), (.record r (some r.zero), .success), (.record r (some seven), .success),
        (.record r none, .ioError), (.truth true, .success)] := by
  intro r seven calls f
  obtain ⟨answers, -, -⟩ := trace_of_created (f := f) (c := { }) (by decide) rfl rfl (by decide) rfl calls
  rw [answers]
  unfold calls seven r
  rfl

end RecordList

end SystemUnit
