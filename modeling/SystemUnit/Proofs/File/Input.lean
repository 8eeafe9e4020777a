import SystemUnit.Proofs.File.Output

namespace SystemUnit

/-!
# Reading from a text file

What is left to be read of a text file is what has been fetched of its node, and behind it what has not been.  An
operation that reads works on these bytes alone: how many of them have been fetched makes no difference.

* `ByteStream.Takes` — an operation whose value, and the bytes it leaves, are told by the bytes of a stream;
* `ByteStream.takes_peek`, `ByteStream.takes_line`, `ByteStream.takes_word` — the operations that read;
* `TextFile.Unread`, `TextFile.Unread.input` — what is left of a text file, and what an operation leaves of it;
* `TextFile.Unread.eof`, `TextFile.Unread.readLn`, `TextFile.Unread.read` — the operations on a text file;
* `TextFile.Readable`, `TextFile.Readable.reset` — a file that is opened for input;
* `TextFile.unread_of_written` — what was written to a file is left to be read when it is opened again.
-/

open FileM

namespace ByteStream

variable {α β : Type}

/-- An operation whose value is told by the bytes that a stream hands out, and that leaves some of these bytes.  It
    never gives back what has been fetched. -/
structure Takes (operation : ByteStream → α × ByteStream) (value : List UInt8 → α)
    (rest : List UInt8 → List UInt8) : Prop where
  value_eq : ∀ s, (operation s).1 = value s.bytes
  rest_eq : ∀ s, (operation s).2.bytes = rest s.bytes
  pending : ∀ s, (operation s).2.pending <:+ s.pending

/-- What is pending after more bytes have been fetched was pending before. -/
theorem pending_fill (s : ByteStream) : s.fill.pending <:+ s.pending := by
  unfold fill
  split
  · exact List.drop_suffix _ _
  · exact List.suffix_refl _

/-- What is pending after bytes have been passed over was pending before. -/
theorem pending_drop (s : ByteStream) (count : Nat) : (s.drop count).pending <:+ s.pending := by
  unfold drop
  split
  · exact List.suffix_refl _
  · exact List.drop_suffix _ _

/-- The byte that has been fetched first is the next one. -/
theorem head?_fetched_fill (s : ByteStream) : s.fill.fetched.head? = s.bytes.head? := by
  obtain ⟨fetched, pending⟩ := s
  cases fetched with
  | nil =>
    show (pending.take block).head? = pending.head?
    rw [List.head?_take, if_neg (by decide)]
  | cons b fetched => rfl

/-- To look at the next byte is to take none. -/
theorem takes_peek : Takes peek List.head? id where
  value_eq s := head?_fetched_fill s
  rest_eq s := bytes_fill s
  pending s := pending_fill s

/-- A run of bytes is taken, however many of them have been fetched. -/
theorem takes_span (kind : UInt8 → Bool) : Takes (span · kind) (List.takeWhile kind) (List.dropWhile kind) where
  value_eq s := rfl
  rest_eq s := by
    show ((s.drop (s.bytes.takeWhile kind).length).fill).bytes = _
    rw [bytes_fill, bytes_drop]
    calc s.bytes.drop (s.bytes.takeWhile kind).length
        = (s.bytes.takeWhile kind ++ s.bytes.dropWhile kind).drop (s.bytes.takeWhile kind).length := by
          rw [List.takeWhile_append_dropWhile]
      _ = s.bytes.dropWhile kind := List.drop_left
  pending s := (pending_fill _).trans (pending_drop _ _)

/-- The number of bytes through the next line feed. -/
def lineLength (bytes : List UInt8) : Nat := (bytes.takeWhile (· ≠ 0x0A)).length + 1

/-- A line is taken with its end. -/
theorem takes_line : Takes line (fun l => l.take (lineLength l)) (fun l => l.drop (lineLength l)) where
  value_eq _ := rfl
  rest_eq s := bytes_drop s _
  pending s := pending_drop s _

/-- An operation on what another one leaves. -/
theorem Takes.andThen {a : ByteStream → α × ByteStream} {b : ByteStream → β × ByteStream}
    {x : List UInt8 → α} {y : List UInt8 → β} {p q : List UInt8 → List UInt8} (ha : Takes a x p)
    (hb : Takes b y q) : Takes (fun s => b (a s).2) (fun l => y (p l)) (fun l => q (p l)) where
  value_eq s := by rw [hb.value_eq, ha.rest_eq]
  rest_eq s := by rw [hb.rest_eq, ha.rest_eq]
  pending s := (hb.pending _).trans (ha.pending s)

/-- An operation with another value for each of its own. -/
theorem Takes.map {a : ByteStream → α × ByteStream} {x : List UInt8 → α} {p : List UInt8 → List UInt8}
    (h : Takes a x p) (g : α → β) : Takes (fun s => (g (a s).1, (a s).2)) (fun l => g (x l)) p where
  value_eq s := congrArg g (h.value_eq s)
  rest_eq := h.rest_eq
  pending := h.pending

/-- The bytes of the next word. -/
def wordBytes (bytes : List UInt8) : List UInt8 := (bytes.dropWhile isBlankByte).takeWhile (!isBlankByte ·)

/-- The bytes behind the next word. -/
def behindWord (bytes : List UInt8) : List UInt8 := (bytes.dropWhile isBlankByte).dropWhile (!isBlankByte ·)

/-- A word is taken with the blanks before it. -/
theorem takes_word : Takes word (fun l => .ofChars (Utf8.decodeMarked (wordBytes l))) behindWord :=
  ((takes_span isBlankByte).andThen (takes_span (!isBlankByte ·))).map fun l =>
    Text.ofChars (Utf8.decodeMarked l)

/-- An integer is taken as a word. -/
theorem takes_item_whole (k : WholeKind) :
    Takes (item · (.whole k))
      (fun l => TextItem.ofWord? (.ofChars (Utf8.decodeMarked (wordBytes l))) (.whole k)) behindWord :=
  takes_word.map fun word => TextItem.ofWord? word (.whole k)

/-- So is a text. -/
theorem takes_item_text :
    Takes (item · .text)
      (fun l => TextItem.ofWord? (.ofChars (Utf8.decodeMarked (wordBytes l))) .text) behindWord :=
  takes_word.map fun word => TextItem.ofWord? word .text

end ByteStream

/-- An operation on the bytes of a file that is open for input takes them from what is left. -/
theorem Reader.perform_of_takes {α : Type} {operation : ByteStream → α × ByteStream} {value : List UInt8 → α}
    {rest : List UInt8 → List UInt8} (takes : ByteStream.Takes operation value rest) {r : Reader} {v : Volume}
    {bytes : List UInt8} (node : v.node? r.node = some (.file bytes)) :
    ∃ r', r.perform v operation = .ok (value (r.fetched ++ bytes.drop r.offset), r') ∧ r'.node = r.node ∧
      r'.fetched ++ bytes.drop r'.offset = rest (r.fetched ++ bytes.drop r.offset) := by
  have value_eq := takes.value_eq ⟨r.fetched, bytes.drop r.offset⟩
  have rest_eq := takes.rest_eq ⟨r.fetched, bytes.drop r.offset⟩
  have pending := takes.pending ⟨r.fetched, bytes.drop r.offset⟩
  unfold Reader.perform
  rw [Volume.readFrom_of_file node]
  dsimp only [bind, Except.bind]
  generalize operation ⟨r.fetched, bytes.drop r.offset⟩ = result at value_eq rest_eq pending ⊢
  obtain ⟨found, left⟩ := result
  dsimp only [ByteStream.bytes] at value_eq rest_eq pending
  refine ⟨⟨r.node, r.offset + ((bytes.drop r.offset).length - left.pending.length), left.fetched⟩,
    by rw [← value_eq]; rfl, rfl, ?_⟩
  -- the offset goes as far as the stream has fetched
  rw [← rest_eq]
  obtain ⟨taken, split⟩ := pending
  have count : (bytes.drop r.offset).length - left.pending.length = taken.length := by
    rw [← split, List.length_append, Nat.add_sub_cancel]
  dsimp only
  rw [count, ← List.drop_drop, ← split, List.drop_left]

namespace TextFile

/-- A text file is open for input, and these bytes are left to be read. -/
def Unread (left : List UInt8) (s : TextFile × FileContext) : Prop :=
  ∃ r bytes, s.1.stream = .input r ∧ s.2.volume.node? r.node = some (.file bytes) ∧
    r.fetched ++ bytes.drop r.offset = left

/-- A file that was just opened for input has all its bytes left. -/
theorem unread_opened {name : Option Text} {id : NodeId} {c : FileContext} {bytes : List UInt8}
    (node : c.volume.node? id = some (.file bytes)) : Unread bytes (⟨name, .input { node := id }⟩, c) :=
  ⟨{ node := id }, bytes, rfl, node, rfl⟩

namespace Unread

variable {left : List UInt8} {f : TextFile} {c : FileContext}

/-- The code that is left is no part of what is left to be read. -/
theorem setCode (h : Unread left (f, c)) (code : IoCode) : Unread left (f, { c with result := code }) := h

/-- An operation that reads gives what the bytes that are left tell, and leaves those behind them. -/
theorem input {α : Type} {operation : ByteStream → α × ByteStream} {value : List UInt8 → α}
    {rest : List UInt8 → List UInt8} (h : Unread left (f, c)) (takes : ByteStream.Takes operation value rest) :
    ∃ f', perform (input operation) (f, c) = (some (value left), f', c) ∧ Unread (rest left) (f', c) := by
  obtain ⟨r, bytes, stream, node, rfl⟩ := h
  obtain ⟨r', performed, same, rest_eq⟩ := Reader.perform_of_takes takes node
  dsimp only at stream performed
  refine ⟨{ f with stream := .input r' }, ?_, r', bytes, rfl, by rw [same]; exact node, rest_eq⟩
  rw [perform_input, stream]
  simp only [performed]

/-- A file is at its end if nothing is left; nothing is taken, and no code is left behind. -/
theorem eof (h : Unread left (f, c)) :
    ∃ f', perform eof (f, c) = (left.isEmpty, f', c) ∧ Unread left (f', c) := by
  obtain ⟨f', performed, unread⟩ := h.input ByteStream.takes_peek
  refine ⟨f', ?_, unread⟩
  unfold TextFile.eof peek
  rw [perform_bind, perform_bind, performed]
  cases left <;> rfl

/-- A line is what is left through the next line feed. -/
theorem readLn (h : Unread left (f, c)) :
    ∃ f', perform readLn (f, c) =
        (.ofUtf8 (stripLineEnd (left.take (ByteStream.lineLength left))), f', { c with result := .success }) ∧
      Unread (left.drop (ByteStream.lineLength left)) (f', { c with result := .success }) := by
  obtain ⟨f', performed, unread⟩ := h.input ByteStream.takes_line
  refine ⟨f', ?_, unread.setCode .success⟩
  unfold TextFile.readLn
  rw [perform_bind, performed]
  rfl

/-- A value is that of the next word, and it is an error if the word has none. -/
theorem read {type : TextItem} {value : List UInt8 → Option Argument} {rest : List UInt8 → List UInt8}
    (h : Unread left (f, c)) (takes : ByteStream.Takes (·.item type) value rest) :
    ∃ f', perform (read type) (f, c) =
        (value left, f', { c with result := if (value left).isSome then .success else .ioError }) ∧
      Unread (rest left) (f', { c with result := if (value left).isSome then .success else .ioError }) := by
  obtain ⟨f', performed, unread⟩ := h.input takes
  refine ⟨f', ?_, unread.setCode _⟩
  unfold TextFile.read
  rw [perform_bind, performed]
  rfl

end Unread

/-- A text file can be opened for input: what it is open for can be closed, and its name leads to a file with these
    bytes. -/
structure Readable (f : TextFile) (c : FileContext) (name : Text) (bytes : List UInt8) : Prop where
  named : f.name = some name
  opened : ∃ v id v', f.released c.volume = (.ok (), v) ∧ v.openFile name.codePoints { } = .ok (id, v') ∧
    v'.node? id = some (.file bytes)

/-- All bytes of a file are left when it is opened for input. -/
theorem Readable.reset {f : TextFile} {c : FileContext} {name : Text} {bytes : List UInt8}
    (h : Readable f c name bytes) :
    let s := perform Operation.reset.act (f, c)
    (s.1, s.2.2.result) = (.done, .success) ∧ Unread bytes s.2 := by
  obtain ⟨named, v, id, v', released, opened, node⟩ := h
  have performed : perform Operation.reset.act (f, c) =
      (.done, ⟨f.name, .input { node := id }⟩, { c with volume := v', result := .success }) := by
    dsimp only [Operation.act, TextFile.reset]
    rw [perform_map, perform_openAs _ named released opened]
  dsimp only
  rw [performed]
  exact ⟨rfl, unread_opened node⟩

/-- A file that is created, written to, closed and opened again leaves success behind every operation, and all that
    was written is left to be read. -/
theorem unread_of_written {f : TextFile} {c : FileContext} {name : Text} {id : NodeId} {base : Volume}
    (h : Creatable f c name id base) {ops : List Operation} (writes : ∀ op ∈ ops, op.parts?.isSome = true) :
    let run := Operation.create :: ops ++ [.close, .reset]
    trace (f, c) (run.map Operation.act) = List.replicate run.length (.done, .success) ∧
      (after (f, c) (run.map Operation.act)).2.result = .success ∧
      Unread (Utf8.encode (ops.flatMap Operation.written)) (after (f, c) (run.map Operation.act)) := by
  obtain ⟨answers, opened⟩ := trace_of_written h writes
  dsimp only at opened ⊢
  rw [opened]
  exact ⟨answers, rfl, unread_opened (Volume.node?_set_self h.node _)⟩

end TextFile

end SystemUnit
