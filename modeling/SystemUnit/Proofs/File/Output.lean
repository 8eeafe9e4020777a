import SystemUnit.Proofs.File.Operation
import SystemUnit.Proofs.Volume.Files
import SystemUnit.Proofs.Text.Ascii

namespace SystemUnit

/-!
# Writing to a text file

What has been written to a text file is what its node holds and behind it what is held back.  As long as the
host refuses nothing, every operation that writes adds its characters there, and all of it is in the node when
the file is closed, so that it can be read from the start when the file is opened again.

* `Writer.Holds` — what has been written with a writer;
* `Writer.Appends`, `Writer.appends_write`, `Writer.effect_flush` — operations on a writer that add bytes;
* `TextFile.Written`, `TextFile.Written.write` — what has been written to a text file, and one operation more;
* `TextFile.Written.close` — the file that is closed;
* `TextFile.trace_of_written` — a file that is created, written to, closed and opened again.
-/

open FileM

namespace Writer

variable {base v : Volume} {bytes written : List UInt8} {w : Writer} {a b : WriterM Unit}

/-! ### Operations on a writer -/

/-- Operations one after the other; the second is performed if the first succeeds. -/
theorem effect_seq (w : Writer) (v : Volume) (a b : WriterM Unit) :
    w.effect v (do a; b) =
      match w.effect v a with
      | (.ok _, w, v) => w.effect v b
      | (.error e, w, v) => (.error e, w, v) := by
  unfold effect
  rw [ExceptT.run_bind, StateT.run_bind]
  rcases a.run.run (w, v) with ⟨_ | _, _, _⟩ <;> rfl

/-- What is sent is written at the end of the file, or at the place of the writer. -/
theorem effect_emit (w : Writer) (v : Volume) (data : List UInt8) :
    w.effect v (emit data) =
      match v.writeAt w.node (if w.appends then v.sizeOf w.node else w.offset) data with
      | .ok v' =>
        (.ok (), { w with offset := (if w.appends then v.sizeOf w.node else w.offset) + data.length }, v')
      | .error e => (.error e, w, v) := by
  have got : StateT.run (ExceptT.run (get : WriterM (Writer × Volume))) (w, v) =
      pure (Except.ok (w, v), (w, v)) := rfl
  unfold effect emit
  rw [ExceptT.run_bind, StateT.run_bind, got, pure_bind]
  dsimp only
  cases v.writeAt w.node (if w.appends then v.sizeOf w.node else w.offset) data <;> rfl

/-- A writer of a file has written what the node holds and behind it what is held back.  Nothing but the bytes of
    the node has changed in the volume, which sets no limit. -/
structure Holds (base : Volume) (written : List UInt8) (w : Writer) (v : Volume) : Prop where
  unlimited : base.greatestSize = none
  file : ∃ old, base.node? w.node = some (.file old)
  bytes : ∃ bytes, v = base.set w.node (.file bytes) ∧ (w.appends = true ∨ w.offset = bytes.length) ∧
    bytes ++ w.pending.toList = written

/-- Bytes that are not held back go behind those of the node. -/
theorem effect_emit_of_file (unlimited : base.greatestSize = none)
    (file : ∃ old, base.node? w.node = some (.file old))
    (place : w.appends = true ∨ w.offset = bytes.length) (data : List UInt8) :
    w.effect (base.set w.node (.file bytes)) (emit data) =
      (.ok (), { w with offset := bytes.length + data.length }, base.set w.node (.file (bytes ++ data))) := by
  obtain ⟨old, node⟩ := file
  have self := Volume.node?_set_self node (.file bytes)
  -- either way it is written behind the bytes that are there
  have start : (if w.appends then (base.set w.node (.file bytes)).sizeOf w.node else w.offset) =
      bytes.length := by
    split
    · exact Volume.sizeOf_of_file self
    · rename_i inPlace
      exact place.resolve_left inPlace
  have written : (base.set w.node (.file bytes)).writeAt w.node bytes.length data =
      .ok (base.set w.node (.file (bytes ++ data))) := by
    cases data with
    | nil => rw [List.append_nil]; rfl
    | cons b data =>
      rw [Volume.writeAt_of_file self _ unlimited (List.cons_ne_nil b data), Volume.set_set,
        Volume.splice_length]
  rw [effect_emit, start, written]

/-- A flush sends what is held back, and then holds back nothing. -/
theorem effect_flush_eq (w : Writer) (v : Volume) :
    w.effect v flush =
      w.effect v (do emit w.pending.toList
                     modify fun (w, v) => ({ w with pending := #[] }, v)) := rfl

/-- Everything that was written is in the node when nothing is held back. -/
theorem effect_flush (h : Holds base written w v) :
    w.effect v flush =
      (.ok (), { w with offset := written.length, pending := #[] }, base.set w.node (.file written)) := by
  obtain ⟨unlimited, file, bytes, rfl, place, rfl⟩ := h
  rw [effect_flush_eq, effect_seq, effect_emit_of_file unlimited file place, List.length_append]
  rfl

/-! ### Operations that add bytes -/

/-- An operation adds bytes to what has been written. -/
def Appends (operation : WriterM Unit) (data : List UInt8) : Prop :=
  ∀ ⦃base written w v⦄, Holds base written w v →
    ∃ w' v', w.effect v operation = (.ok (), w', v') ∧ w'.node = w.node ∧ Holds base (written ++ data) w' v'

/-- What is appended step by step is appended one behind the other. -/
theorem Appends.seq {x y : List UInt8} (ha : Appends a x) (hb : Appends b y) :
    Appends (do a; b) (x ++ y) := by
  intro base written w v h
  obtain ⟨w₁, v₁, first, node₁, h₁⟩ := ha h
  obtain ⟨w₂, v₂, second, node₂, h₂⟩ := hb h₁
  refine ⟨w₂, v₂, ?_, node₂.trans node₁, by rwa [← List.append_assoc]⟩
  rw [effect_seq, first]
  exact second

/-- To do nothing appends nothing. -/
theorem appends_pure : Appends (pure ()) [] := by
  intro base written w v h
  exact ⟨w, v, rfl, rfl, by rwa [List.append_nil]⟩

/-- Bytes that are held back are added behind the others that are. -/
theorem appends_hold (data : List UInt8) :
    Appends (modify fun (w, v) => ({ w with pending := w.pending ++ data }, v)) data := by
  intro base written w v ⟨unlimited, file, bytes, same, place, all⟩
  refine ⟨{ w with pending := w.pending ++ data }, v, rfl, rfl, unlimited, file, bytes, same, place, ?_⟩
  rw [← all]
  simp

/-- Holds bytes back, or emits them if they would fill the buffer. -/
def add (data : List UInt8) : WriterM Unit :=
  if data.length < capacity then modify fun (w, v) => ({ w with pending := w.pending ++ data }, v) else emit data

/-- A write makes room first, if what it adds would not fit. -/
theorem effect_write (w : Writer) (v : Volume) (data : List UInt8) :
    w.effect v (write data) =
      w.effect v (do if capacity < w.pending.size + data.length then flush
                     add data) := rfl

/-- Bytes that fill the buffer are added if none are held back. -/
theorem holds_add (h : Holds base written w v) (data : List UInt8)
    (empty : capacity ≤ data.length → w.pending = #[]) :
    ∃ w' v', w.effect v (add data) = (.ok (), w', v') ∧ w'.node = w.node ∧
      Holds base (written ++ data) w' v' := by
  unfold add
  -- what fits is held back; else nothing is, and the data goes to the file at once
  by_cases fits : data.length < capacity
  · rw [if_pos fits]
    exact appends_hold data h
  · have none := empty (Nat.le_of_not_lt fits)
    obtain ⟨unlimited, file, bytes, rfl, place, rfl⟩ := h
    rw [if_neg fits]
    refine ⟨_, _, effect_emit_of_file unlimited file place data, rfl, unlimited, file, bytes ++ data, rfl,
      .inr (by simp), ?_⟩
    simp [none]

/-- **A write appends its bytes**, whether they are held back or sent. -/
theorem appends_write (data : List UInt8) : Appends (write data) data := by
  intro base written w v h
  rw [effect_write]
  by_cases full : capacity < w.pending.size + data.length
  · -- what is held back goes first, so that nothing is
    have emptied : Holds base written { w with offset := written.length, pending := #[] }
        (base.set w.node (.file written)) :=
      ⟨h.unlimited, h.file, written, rfl, .inr rfl, by simp⟩
    rw [if_pos full, effect_seq, effect_flush h]
    exact holds_add emptied data fun _ => rfl
  · rw [if_neg full]
    apply holds_add h data
    intro le
    apply Array.eq_empty_of_size_eq_zero
    omega

/-- Parts that are written one after the other are written as a whole. -/
theorem appends_writing (parts : List (List Char)) :
    Appends (parts.forM fun part => write (Utf8.encode part)) (Utf8.encode parts.flatten) := by
  induction parts with
  | nil => exact appends_pure
  | cons part parts ih =>
    have both := (appends_write (Utf8.encode part)).seq ih
    rw [← Utf8.encode_append] at both
    exact both

end Writer

namespace TextFile

/-! ### What has been written to a text file -/

/-- The parts that an operation writes, if it is one that writes. -/
def Operation.parts? : Operation → Option (List (List Char))
  | .write value => some value.parts
  | .writeLn value => some (value.parts ++ [['\n']])
  | .newLine => some [['\n']]
  | _ => none

/-- The characters that an operation writes. -/
def Operation.written (op : Operation) : List Char := (op.parts?.getD []).flatten

/-- A text file with a name is open for output to a node, and these bytes have been written to it. -/
structure Written (name : Text) (mode : FileMode) (base : Volume) (id : NodeId) (written : List UInt8)
    (s : TextFile × FileContext) : Prop where
  named : s.1.name = some name
  mode : s.2.mode = mode
  writer : ∃ w, s.1.stream = .output w ∧ w.node = id ∧ w.Holds base written s.2.volume

/-- A text file can be created: what it is open for can be closed, and its name leads to a node that is a file.
    The host refuses nothing. -/
structure Creatable (f : TextFile) (c : FileContext) (name : Text) (id : NodeId) (base : Volume) : Prop where
  named : f.name = some name
  opened : ∃ v, f.released c.volume = (.ok (), v) ∧
    v.openFile name.codePoints { writes := true, creates := true, truncates := true } = .ok (id, base)
  file : base.isFile id = true
  unlimited : base.greatestSize = none

variable {base v v' : Volume} {id : NodeId} {bytes : List UInt8} {f : TextFile} {c : FileContext} {name : Text}
  {mode : FileMode} {op : Operation}

/-- A file is opened by its name, once it has been closed. -/
theorem perform_openAs {mode : Volume.OpenMode} (stream : NodeId → TextStream) (named : f.name = some name)
    (released : f.released c.volume = (.ok (), v)) (opened : v.openFile name.codePoints mode = .ok (id, v')) :
    perform (openAs mode stream) (f, c) =
      ((), { f with stream := stream id }, { c with volume := v', result := .success }) := by
  unfold openAs path
  simp only [perform_bind, perform_releaseReported, released, if_true, perform_get, named, Option.map_some,
    perform_volume, perform_report, opened]
  rfl

/-- An operation that writes adds its characters. -/
theorem Written.write (h : Written name mode base id bytes (f, c)) {parts : List (List Char)}
    (writes : op.parts? = some parts) :
    let s := perform op.act (f, c)
    (s.1, s.2.2.result) = (.done, .success) ∧
      Written name mode base id (bytes ++ Utf8.encode op.written) s.2 := by
  -- the operations that write are alike but for their parts
  have act : op.act = (fun _ => Answer.done) <$> writeParts parts := by
    cases op with
    | write value | writeLn value | newLine =>
      cases writes
      rfl
    | _ => cases writes
  obtain ⟨named, sameMode, w, stream, node, holds⟩ := h
  obtain ⟨w', v', effect, node', holds'⟩ := Writer.appends_writing parts holds
  have performed : perform op.act (f, c) =
      (.done, { f with stream := .output w' }, { c with volume := v', result := .success }) := by
    dsimp only at stream effect
    rw [act, perform_map]
    unfold writeParts
    simp only [perform_bind, perform_output, stream, effect, perform_report]
    rfl
  have written : op.written = parts.flatten := by
    rw [Operation.written, writes]
    rfl
  dsimp only
  rw [performed, written]
  exact ⟨rfl, named, sameMode, w', rfl, node'.trans node, holds'⟩

/-- A file that was just created holds nothing. -/
theorem Creatable.node (h : Creatable f c name id base) : base.node? id = some (.file []) := by
  obtain ⟨v, -, opened⟩ := h.opened
  exact (Volume.node?_of_openFile rfl rfl opened h.file).1

/-- A file that was just created has nothing written to it. -/
theorem Creatable.create (h : Creatable f c name id base) :
    let s := perform Operation.create.act (f, c)
    (s.1, s.2.2.result) = (.done, .success) ∧ Written name c.mode base id [] s.2 := by
  have empty := h.node
  obtain ⟨named, ⟨v, released, opened⟩, -, unlimited⟩ := h
  have performed : perform Operation.create.act (f, c) =
      (.done, { f with stream := .output { node := id, offset := 0, appends := false } },
        { c with volume := base, result := .success }) := by
    dsimp only [Operation.act, TextFile.create]
    rw [perform_map, perform_openAs _ named released opened]
  dsimp only
  rw [performed]
  -- nothing has been written yet, and the file is empty
  refine ⟨rfl, named, rfl, _, rfl, rfl, unlimited, ⟨[], empty⟩, [], ?_, .inr rfl, rfl⟩
  exact (Volume.set_eq_self empty).symm

/-- Operations that write add their characters one after the other. -/
theorem Written.writes {s : TextFile × FileContext} (h : Written name mode base id bytes s) {ops : List Operation}
    (writes : ∀ op ∈ ops, op.parts?.isSome = true) :
    trace s (ops.map Operation.act) = List.replicate ops.length (.done, .success) ∧
      Written name mode base id (bytes ++ Utf8.encode (ops.flatMap Operation.written))
        (after s (ops.map Operation.act)) := by
  induction ops generalizing bytes s with
  | nil =>
    refine ⟨rfl, ?_⟩
    rw [List.flatMap_nil, Utf8.encode_nil, List.append_nil]
    exact h
  | cons op ops ih =>
    obtain ⟨parts, eq⟩ := Option.isSome_iff_exists.mp (writes op List.mem_cons_self)
    -- one operation appends its text, and the others append theirs to that
    obtain ⟨answer, written⟩ := h.write eq
    obtain ⟨answers, all⟩ := ih written fun op mem => writes op (List.mem_cons_of_mem _ mem)
    refine ⟨?_, ?_⟩
    · rw [List.map_cons, FileM.trace, answer, answers, List.length_cons, List.replicate_succ]
    · rw [List.flatMap_cons, Utf8.encode_append, ← List.append_assoc]
      exact all

/-- Everything that was written is in the node when the file is closed. -/
theorem Written.close (h : Written name mode base id bytes (f, c)) :
    perform Operation.close.act (f, c) =
      (.done, ⟨some name, .closed⟩, ⟨.success, mode, base.set id (.file bytes)⟩) := by
  obtain ⟨named, rfl, w, stream, rfl, holds⟩ := h
  dsimp only at named stream
  -- what is held back is written when the file is closed
  have flushed := Writer.effect_flush holds
  have released : f.released c.volume = (.ok (), base.set w.node (.file bytes)) := by
    dsimp only at flushed
    rw [TextFile.released, stream]
    simp only [flushed]
  have isOpen : f.isOpen = true := by
    rw [TextFile.isOpen, stream]
  dsimp only [Operation.act, TextFile.close]
  simp only [perform_map, perform_bind, perform_get, isOpen, if_true, perform_releaseReported, released, named]
  rfl

/-- It is there to be read when the file is opened again. -/
theorem Written.close_reset (h : Written name mode base id bytes (f, c))
    (reopened : (base.set id (.file bytes)).openFile name.codePoints { } = .ok (id, base.set id (.file bytes))) :
    let run := [Operation.close, .reset].map Operation.act
    trace (f, c) run = List.replicate 2 (.done, .success) ∧
      after (f, c) run = (⟨some name, .input { node := id }⟩, ⟨.success, mode, base.set id (.file bytes)⟩) := by
  have closed := h.close
  -- the name leads to the same file after it has been closed
  have opened : perform Operation.reset.act
      ((⟨some name, .closed⟩ : TextFile), ⟨.success, mode, base.set id (.file bytes)⟩) =
        (.done, ⟨some name, .input { node := id }⟩, ⟨.success, mode, base.set id (.file bytes)⟩) := by
    dsimp only [Operation.act, TextFile.reset]
    rw [perform_map, perform_openAs _ rfl rfl reopened]
  refine ⟨?_, ?_⟩
  · simp only [List.map_cons, List.map_nil, FileM.trace, closed, opened]
    rfl
  · simp only [List.map_cons, List.map_nil, FileM.after, closed, opened]

/-- **What is written is there to be read**: a file that is created, written to, closed and opened again leaves
    success behind every operation, and is open for input at the start of the bytes of all that was written. -/
theorem trace_of_written (h : Creatable f c name id base) {ops : List Operation}
    (writes : ∀ op ∈ ops, op.parts?.isSome = true) :
    let run := Operation.create :: ops ++ [.close, .reset]
    trace (f, c) (run.map Operation.act) = List.replicate run.length (.done, .success) ∧
      after (f, c) (run.map Operation.act) = (⟨some name, .input { node := id }⟩,
        ⟨.success, c.mode, base.set id (.file (Utf8.encode (ops.flatMap Operation.written)))⟩) := by
  obtain ⟨answer, empty⟩ := h.create
  obtain ⟨answers, all⟩ := empty.writes writes
  obtain ⟨v, -, opened⟩ := h.opened
  -- what the file holds makes no difference to the path that leads to it
  have again := Volume.openFile_of_opened rfl opened h.node (Utf8.encode (ops.flatMap Operation.written))
  rw [List.nil_append] at all
  obtain ⟨last, ends⟩ := all.close_reset again
  have rest : trace (after (f, c) (Operation.create.act :: ops.map Operation.act))
      ([Operation.close, .reset].map Operation.act) = _ := last
  dsimp only
  rw [List.map_append, List.map_cons, trace_append, after_append, rest]
  refine ⟨?_, ends⟩
  rw [FileM.trace, answer, answers, ← List.replicate_succ, List.replicate_append_replicate]
  simp

end TextFile

end SystemUnit
