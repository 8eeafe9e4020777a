import SystemUnit.Proofs.File.Input

namespace SystemUnit

/-!
# Lines of a text file

The lines of a file end with a line feed each, and what is behind the last line feed is a line too unless there is
nothing.  A loop that reads a line as long as the file is not at its end reads all of them and stops.

* `linesOf` — the lines of the bytes of a file;
* `lineBytes` — the bytes of the line that is next;
* `TextFile.LinesRead` — the loop has read lines, and success was left behind every operation;
* `TextFile.Unread.linesRead_iff` — the loop reads the lines of the bytes that are left, and no others;
* `linesOf_flatMap` — lines that are written are the lines of what was written;
* `TextFile.lines_of_file` — the lines of every file, and lines that are written and then read.
-/

open FileM

/-! ### The lines of some bytes -/

/-- A line without a carriage return at its end. -/
def withoutReturn (line : List UInt8) : List UInt8 :=
  if line.getLast? = some 0x0D then line.dropLast else line

/-- The lines of some bytes: what is before each line feed, without a carriage return there, and what is behind
    the last one unless there is nothing. -/
def linesOf (bytes : List UInt8) : List Text :=
  let parts := bytes.splitOn 0x0A
  parts.dropLast.map (fun part => .ofUtf8 (withoutReturn part)) ++
    (parts.getLast?.toList.filter (· ≠ [])).map Text.ofUtf8

variable {part bytes : List UInt8}

/-- Where there are no bytes there are no lines. -/
theorem linesOf_nil : linesOf [] = [] := rfl

/-- Bytes without a line feed are one line. -/
theorem linesOf_of_not_mem (none : 0x0A ∉ bytes) (ne : bytes ≠ []) : linesOf bytes = [.ofUtf8 bytes] := by
  have single : bytes.splitOn 0x0A = [bytes] := List.splitOn_eq_singleton none
  rw [linesOf, single]
  simp [ne]

/-- The bytes before the first line feed are a line, and the others are the lines behind it. -/
theorem linesOf_append_cons (none : 0x0A ∉ part) (rest : List UInt8) :
    linesOf (part ++ 0x0A :: rest) = .ofUtf8 (withoutReturn part) :: linesOf rest := by
  have ne := List.splitOn_ne_nil 0x0A rest
  rw [linesOf, List.splitOn_append_cons_self_of_not_mem none, List.dropLast_cons_of_ne_nil ne,
    List.getLast?_cons_of_ne_nil ne]
  rfl

/-- **Bytes, line by line.** -/
theorem lines_induction {motive : List UInt8 → Prop} (nil : motive [])
    (last : ∀ part, 0x0A ∉ part → part ≠ [] → motive part)
    (line : ∀ part rest, 0x0A ∉ part → motive rest → motive (part ++ 0x0A :: rest)) (bytes : List UInt8) :
    motive bytes := by
  induction size : bytes.length using Nat.strongRecOn generalizing bytes with
  | ind size shorter =>
    -- the bytes are split at the first line feed, so that the induction is on their number
    by_cases ends : 0x0A ∈ bytes
    · obtain ⟨part, rest, rfl, none⟩ := List.eq_append_cons_of_mem ends
      refine line part rest none (shorter rest.length ?_ rest rfl)
      rw [List.length_append, List.length_cons] at size
      omega
    · by_cases empty : bytes = []
      · rw [empty]
        exact nil
      · exact last bytes ends empty

/-! ### One line -/

/-- A part without a line feed is passed over whole. -/
theorem takeWhile_append (none : 0x0A ∉ part) (rest : List UInt8) :
    (part ++ rest).takeWhile (· ≠ 0x0A) = part ++ rest.takeWhile (· ≠ 0x0A) := by
  apply List.takeWhile_append_of_pos
  intro b mem
  rw [decide_eq_true_eq]
  rintro rfl
  exact none mem

/-- A line ends behind its line feed. -/
theorem lineLength_append_cons (none : 0x0A ∉ part) (rest : List UInt8) :
    ByteStream.lineLength (part ++ 0x0A :: rest) = part.length + 1 := by
  rw [ByteStream.lineLength, takeWhile_append none, List.takeWhile_cons_of_neg (by decide), List.append_nil]

/-- Without a line feed a line goes beyond all bytes. -/
theorem lineLength_of_not_mem (none : 0x0A ∉ bytes) : ByteStream.lineLength bytes = bytes.length + 1 := by
  have all := takeWhile_append none []
  rw [List.takeWhile_nil, List.append_nil] at all
  rw [ByteStream.lineLength, all]

/-- A line that ends with a line feed loses that, and a carriage return before it. -/
theorem stripLineEnd_append (part : List UInt8) : stripLineEnd (part ++ [0x0A]) = withoutReturn part := by
  unfold withoutReturn
  rcases List.eq_nil_or_concat part with rfl | ⟨init, b, rfl⟩
  · rfl
  · rw [List.concat_eq_append, List.getLast?_concat, List.dropLast_concat]
    unfold stripLineEnd
    rw [List.reverse_append, List.reverse_append]
    by_cases back : b = 0x0D
    · subst back
      simp
    · simp [back]

/-- What does not end with a line feed is left as it is. -/
theorem stripLineEnd_of_not_mem (none : 0x0A ∉ bytes) : stripLineEnd bytes = bytes := by
  unfold stripLineEnd
  split
  · rename_i rest reversed
    exact absurd (List.mem_reverse.mp (by rw [reversed]; exact List.mem_cons_self)) none
  · rename_i rest reversed
    exact absurd (List.mem_reverse.mp (by rw [reversed]; exact List.mem_cons_self)) none
  · rfl

/-- The bytes of the line that some bytes start with, without its end. -/
def lineBytes (bytes : List UInt8) : List UInt8 := stripLineEnd (bytes.take (ByteStream.lineLength bytes))

/-- The next line goes to the line feed, but for a carriage return before it. -/
theorem lineBytes_append_cons (none : 0x0A ∉ part) (rest : List UInt8) :
    lineBytes (part ++ 0x0A :: rest) = withoutReturn part := by
  have line : (part ++ 0x0A :: rest).take (part.length + 1) = part ++ [0x0A] := by
    rw [List.append_cons, List.take_left' (by simp)]
  rw [lineBytes, lineLength_append_cons none, line, stripLineEnd_append]

/-- Without a line feed all bytes are the next line. -/
theorem lineBytes_of_not_mem (none : 0x0A ∉ bytes) : lineBytes bytes = bytes := by
  rw [lineBytes, lineLength_of_not_mem none, List.take_of_length_le (Nat.le_succ _), stripLineEnd_of_not_mem none]

namespace TextFile

/-! ### The loop -/

/-- A loop asks whether the file is at its end, and reads a line as long as it is not.  It has read these lines and
    stopped; the codes are those left behind each question and each line. -/
inductive LinesRead : TextFile × FileContext → List Text → List IoCode → TextFile × FileContext → Prop where
  | atEnd {s s' : TextFile × FileContext} (asked : perform eof s = (true, s')) :
      LinesRead s [] [s'.2.result] s'
  | line {s s₁ s₂ s' : TextFile × FileContext} {t : Text} {lines : List Text} {codes : List IoCode}
      (asked : perform eof s = (false, s₁)) (read : perform readLn s₁ = (t, s₂))
      (rest : LinesRead s₂ lines codes s') :
      LinesRead s (t :: lines) (s₁.2.result :: s₂.2.result :: codes) s'

variable {s s' s'' : TextFile × FileContext} {lines lines' : List Text} {codes codes' : List IoCode}
  {left : List UInt8}

/-- The loop stops in one way only. -/
theorem LinesRead.unique (h : LinesRead s lines codes s') (h' : LinesRead s lines' codes' s'') :
    lines = lines' ∧ codes = codes' := by
  -- the same question has one answer, so that both loops take the same step
  induction h generalizing lines' codes' with
  | atEnd asked =>
    cases h' with
    | atEnd asked' =>
      cases asked.symm.trans asked'
      exact ⟨rfl, rfl⟩
    | line asked' =>
      cases asked.symm.trans asked'
  | line asked read _ ih =>
    cases h' with
    | atEnd asked' =>
      cases asked.symm.trans asked'
    | line asked' read' rest' =>
      cases asked.symm.trans asked'
      cases read.symm.trans read'
      obtain ⟨rfl, rfl⟩ := ih rest'
      exact ⟨rfl, rfl⟩

/-- A line that is read takes at least its line feed, or all that is left, so that the loop stops. -/
theorem Unread.linesRead (h : Unread left s) :
    ∃ s', LinesRead s (linesOf left) (s.2.result :: List.replicate (2 * (linesOf left).length) .success) s' := by
  induction left using lines_induction generalizing s with
  | nil =>
    obtain ⟨f, c⟩ := s
    obtain ⟨f', asked, -⟩ := h.eof
    exact ⟨(f', c), .atEnd asked⟩
  | last part none ne =>
    obtain ⟨f, c⟩ := s
    obtain ⟨f₁, asked, h₁⟩ := h.eof
    obtain ⟨f₂, read, h₂⟩ := h₁.readLn
    rw [lineLength_of_not_mem none, List.take_of_length_le (Nat.le_succ _), stripLineEnd_of_not_mem none] at read
    rw [lineLength_of_not_mem none, List.drop_of_length_le (Nat.le_succ _)] at h₂
    -- nothing is left behind a line without an end
    obtain ⟨f₃, asked', -⟩ := h₂.eof
    rw [List.isEmpty_eq_false_iff.mpr ne] at asked
    rw [linesOf_of_not_mem none ne]
    exact ⟨(f₃, { c with result := .success }), .line asked read (.atEnd asked')⟩
  | line part rest none ih =>
    obtain ⟨f, c⟩ := s
    obtain ⟨f₁, asked, h₁⟩ := h.eof
    obtain ⟨f₂, read, h₂⟩ := h₁.readLn
    have whole : (part ++ 0x0A :: rest).take (part.length + 1) = part ++ [0x0A] := by
      rw [List.append_cons, List.take_left' (by simp)]
    have behind : (part ++ 0x0A :: rest).drop (part.length + 1) = rest := by
      rw [List.append_cons, List.drop_left' (by simp)]
    rw [lineLength_append_cons none, whole, stripLineEnd_append] at read
    rw [lineLength_append_cons none, behind] at h₂
    obtain ⟨s', lines⟩ := ih h₂
    have more : (part ++ 0x0A :: rest).isEmpty = false := by simp
    rw [more] at asked
    rw [linesOf_append_cons none, List.length_cons, Nat.mul_succ, List.replicate_succ, List.replicate_succ]
    exact ⟨s', .line asked read lines⟩

/-- **The loop stops, and reads the lines of the bytes that are left**, and no others.  The first question keeps
    the code that was there, and success is left behind everything that follows. -/
theorem Unread.linesRead_iff (h : Unread left s) :
    (∃ s', LinesRead s lines codes s') ↔
      lines = linesOf left ∧ codes = s.2.result :: List.replicate (2 * lines.length) .success := by
  obtain ⟨s', read⟩ := h.linesRead
  constructor
  · rintro ⟨s'', read'⟩
    obtain ⟨rfl, rfl⟩ := read'.unique read
    exact ⟨rfl, rfl⟩
  · rintro ⟨rfl, rfl⟩
    exact ⟨s', read⟩

end TextFile

/-! ### Lines that are written -/

/-- A text is a line of a file: it has no line feed, no carriage return at its end, and no unpaired surrogate. -/
structure Text.IsLine (t : Text) : Prop where
  noFeed : 0x0A ∉ t.units
  noReturn : t.units.getLast? ≠ some 0x0D
  paired : ∀ i, Text.isUnpaired t.units i = false

namespace Text.IsLine

variable {t : Text} (h : t.IsLine)
include h

/-- The encoding of a line has no line feed. -/
theorem not_mem_toUtf8 : 0x0A ∉ t.toUtf8 := fun mem =>
  h.noFeed (mem_units_of_mem_toUtf8 h.paired (by decide) mem)

/-- The encoding of a line does not end with a carriage return. -/
theorem withoutReturn_toUtf8 : withoutReturn t.toUtf8 = t.toUtf8 := by
  apply if_neg
  intro last
  exact h.noReturn (getLast?_units_of_toUtf8 h.paired (by decide) last)

/-- A line is read back from its encoding. -/
theorem ofUtf8_toUtf8 : ofUtf8 t.toUtf8 = t := by
  rw [Text.ofUtf8_toUtf8, ofChars_codePoints, withoutUnpaired_eq_self_iff.mpr h.paired]

end Text.IsLine

/-- **Lines that are written are the lines of what was written.** -/
theorem linesOf_flatMap {lines : List Text} (h : ∀ t ∈ lines, t.IsLine) :
    linesOf (lines.flatMap fun t => t.toUtf8 ++ [0x0A]) = lines := by
  induction lines with
  | nil => exact linesOf_nil
  | cons t lines ih =>
    have line := h t List.mem_cons_self
    rw [List.flatMap_cons, List.append_assoc, List.singleton_append, linesOf_append_cons line.not_mem_toUtf8,
      line.withoutReturn_toUtf8, line.ofUtf8_toUtf8, ih fun u mem => h u (List.mem_cons_of_mem t mem)]

namespace TextFile

/-- A text and the end of its line are written as their bytes. -/
theorem encode_written_writeLn (t : Text) :
    Utf8.encode (Operation.writeLn (.text t)).written = t.toUtf8 ++ [0x0A] := by
  have chars : (Operation.writeLn (.text t)).written = t.codePoints ++ ['\n'] := by
    show (t.codePoints.map ([·]) ++ [['\n']]).flatten = _
    rw [List.flatten_append, List.flatten_singleton]
    congr 1
    exact List.flatMap_singleton' _
  rw [chars, Utf8.encode_append]
  rfl

/-- **The lines of a file**: a loop that reads a line as long as a file is not at its end stops, and has read the
    lines of the bytes of the file, whatever these are.  Lines that are written to a file are the lines that the
    loop reads when the file was closed and opened again.  Every operation leaves success. -/
theorem lines_of_file :
    (∀ (f : TextFile) (c : FileContext) (name : Text) (bytes : List UInt8), Readable f c name bytes →
      let s := perform Operation.reset.act (f, c)
      (s.1, s.2.2.result) = (.done, .success) ∧
        ∀ lines codes, (∃ s', LinesRead s.2 lines codes s') ↔
          lines = linesOf bytes ∧ codes = List.replicate (2 * lines.length + 1) .success) ∧
    ∀ (f : TextFile) (c : FileContext) (name : Text) (id : NodeId) (base : Volume) (written : List Text),
      Creatable f c name id base → (∀ t ∈ written, t.IsLine) →
      let ops := Operation.create :: written.map (fun t => .writeLn (.text t)) ++ [.close, .reset]
      trace (f, c) (ops.map Operation.act) = List.replicate ops.length (.done, .success) ∧
        ∀ lines codes, (∃ s', LinesRead (after (f, c) (ops.map Operation.act)) lines codes s') ↔
          lines = written ∧ codes = List.replicate (2 * lines.length + 1) .success := by
  refine ⟨fun f c name bytes h => ?_, fun f c name id base written h areLines => ?_⟩
  · obtain ⟨answer, unread⟩ := h.reset
    refine ⟨answer, fun lines codes => ?_⟩
    rw [unread.linesRead_iff, (Prod.mk.inj answer).2, ← List.replicate_succ]
  -- every operation of the run writes, and so all that it has written is there to be read
  have writes : ∀ op ∈ written.map fun t => Operation.writeLn (.text t), op.parts?.isSome = true := by
    intro op mem
    obtain ⟨t, -, rfl⟩ := List.mem_map.mp mem
    rfl
  obtain ⟨answers, code, unread⟩ := unread_of_written h writes
  have bytes : Utf8.encode ((written.map fun t => Operation.writeLn (.text t)).flatMap Operation.written) =
      written.flatMap fun t => t.toUtf8 ++ [0x0A] := by
    rw [List.flatMap_map, Utf8.encode_flatMap]
    simp only [encode_written_writeLn]
  rw [bytes] at unread
  refine ⟨answers, fun lines codes => ?_⟩
  rw [unread.linesRead_iff, linesOf_flatMap areLines, code, ← List.replicate_succ]

/-- Two lines, the first of them empty, and a file whose last line has no end. -/
theorem lines_of_file_two :
    let lines : List Text := [⟨[]⟩, ⟨[0xE9, 0xD83D, 0xDE00]⟩]
    let ops := Operation.create :: lines.map (fun t => .writeLn (.text t)) ++ [.close, .reset]
    let bytes : List UInt8 := [0x61, 0x0D, 0x0A, 0x62]
    let volume : Volume := ⟨[.directory 0 false [(['a'], 1)], .file bytes], 0, none⟩
    let f : TextFile := { name := some (.singleton 0x61) }
    (∃ s', LinesRead (after (f, ({ } : FileContext)) (ops.map Operation.act)) lines
        (List.replicate 5 .success) s') ∧
      ∃ s', LinesRead (perform Operation.reset.act (f, ({ volume } : FileContext))).2 (linesOf bytes)
        (List.replicate (2 * (linesOf bytes).length + 1) .success) s' := by
  intro lines ops bytes volume f
  -- neither line holds a line end, and both have whole characters
  have areLines : ∀ t ∈ lines, t.IsLine := by
    intro t mem
    simp only [lines, List.mem_cons, List.not_mem_nil, or_false] at mem
    rcases mem with rfl | rfl <;> exact ⟨by decide, by decide, Text.isPaired_iff.mp (by decide)⟩
  have creatable : Creatable f { } (.singleton 0x61) 5 _ := ⟨rfl, ⟨.initial, rfl, rfl⟩, rfl, rfl⟩
  have readable : Readable f { volume } (.singleton 0x61) bytes := ⟨rfl, volume, 1, volume, rfl, rfl, rfl⟩
  refine ⟨((lines_of_file.2 _ _ _ _ _ lines creatable areLines).2 lines _).mpr ⟨rfl, rfl⟩, ?_⟩
  exact ((lines_of_file.1 _ _ _ bytes readable).2 (linesOf bytes) _).mpr ⟨rfl, rfl⟩

end TextFile

end SystemUnit
