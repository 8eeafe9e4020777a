import SystemUnit.Proofs.File.Input
import SystemUnit.Proofs.Numeral.Scanning

namespace SystemUnit

/-!
# Integers in a text file

Integers that are written to a text file with blanks behind each are read back as they were.

* `ByteStream.wordBytes_append`, `ByteStream.behindWord_append` — the next word lies between blanks;
* `SpacedWhole` — an integer of any kind and the blanks that are written behind it;
* `TextFile.Unread.read_word`, `TextFile.Unread.read_blanks` — an integer is read, and none where only blanks are;
* `TextFile.trace_of_numbers` — integers that are written and read, and the end of the file behind them.
-/

open FileM

/-! ### Words between blanks -/

namespace ByteStream

variable {blanks word : List UInt8} {b : UInt8}

theorem dropWhile_blanks (blank : ∀ b ∈ blanks, isBlankByte b = true)
    (notBlank : ∀ b ∈ word, isBlankByte b = false) (ne : word ≠ []) (rest : List UInt8) :
    (blanks ++ (word ++ rest)).dropWhile isBlankByte = word ++ rest := by
  obtain ⟨c, cs, rfl⟩ := List.exists_cons_of_ne_nil ne
  have first := notBlank c List.mem_cons_self
  rw [List.dropWhile_append_of_pos blank, List.cons_append, List.dropWhile_cons_of_neg (by simp [first])]

/-- **The next word lies between blanks.** -/
theorem wordBytes_append (blank : ∀ b ∈ blanks, isBlankByte b = true)
    (notBlank : ∀ b ∈ word, isBlankByte b = false) (ne : word ≠ []) (next : isBlankByte b = true)
    (rest : List UInt8) :
    wordBytes (blanks ++ (word ++ b :: rest)) = word ∧
      behindWord (blanks ++ (word ++ b :: rest)) = b :: rest := by
  -- the word goes to the next blank
  have inside : ∀ b ∈ word, (!isBlankByte b) = true := fun b mem => by rw [notBlank b mem]; rfl
  have outside : ¬ (!isBlankByte b) = true := by rw [next]; exact Bool.false_ne_true
  unfold wordBytes behindWord
  rw [dropWhile_blanks blank notBlank ne]
  constructor
  · rw [List.takeWhile_append_of_pos inside, List.takeWhile_cons_of_neg (p := (!isBlankByte ·)) outside,
      List.append_nil]
  · rw [List.dropWhile_append_of_pos inside, List.dropWhile_cons_of_neg (p := (!isBlankByte ·)) outside]

/-- Where there are only blanks there is no word. -/
theorem wordBytes_blanks (blank : ∀ b ∈ blanks, isBlankByte b = true) : wordBytes blanks = [] := by
  rw [wordBytes, ← List.append_nil blanks, List.dropWhile_append_of_pos blank]
  rfl

end ByteStream

/-! ### Integers and blanks as bytes -/

theorem toNat_le_of_isBlankByte {b : UInt8} (blank : isBlankByte b = true) : b.toNat ≤ 0x20 := by
  unfold isBlankByte at blank
  simp only [Bool.or_eq_true, beq_iff_eq] at blank
  rcases blank with ((rfl | rfl) | rfl) | rfl <;> decide

/-- The characters of an integer come behind the blanks. -/
theorem lt_toNat_of_mem_signedDecimal {n : Int} {c : Char} (mem : c ∈ Digits.signedDecimal n) :
    0x20 < c.toNat := by
  unfold Digits.signedDecimal at mem
  -- a digit and the sign stand above the blanks
  have digit : c ∈ Digits.decimal n.natAbs → 0x20 < c.toNat := fun mem => by
    have range := Digits.range_of_isDigit (Digits.isDigit_of_mem_decimal mem)
    omega
  split at mem
  · rcases List.mem_cons.mp mem with rfl | mem
    · decide
    · exact digit mem
  · exact digit mem

/-- No byte of an integer is a blank. -/
theorem notBlank_signedDecimal (n : Int) : ∀ b ∈ Utf8.encode (Digits.signedDecimal n), isBlankByte b = false := by
  intro b mem
  obtain ⟨c, mem_c, mem_b⟩ := Utf8.mem_encode.mp mem
  rw [← Bool.not_eq_true]
  intro blank
  have small := toNat_le_of_isBlankByte blank
  have same := Utf8.eq_of_mem_utf8EncodeChar mem_b (by omega)
  have large := lt_toNat_of_mem_signedDecimal mem_c
  omega

theorem encode_signedDecimal_ne_nil (n : Int) : Utf8.encode (Digits.signedDecimal n) ≠ [] := by
  have ne : Digits.signedDecimal n ≠ [] := by
    unfold Digits.signedDecimal
    split
    · exact List.cons_ne_nil _ _
    · exact Digits.decimal_ne_nil _
  obtain ⟨c, cs, eq⟩ := List.exists_cons_of_ne_nil ne
  rw [eq, Utf8.encode_cons]
  exact List.append_ne_nil_of_left_ne_nil String.utf8EncodeChar_ne_nil _

/-- A blank unit is a blank byte. -/
theorem utf8EncodeChar_blank {c : CodeUnit} (blank : c.isBlank = true) :
    (c.isHighSurrogate || c.isLowSurrogate) = false ∧
      ∃ b, String.utf8EncodeChar c.toChar = [b] ∧ isBlankByte b = true := by
  unfold CodeUnit.isBlank at blank
  simp only [Bool.or_eq_true, beq_iff_eq] at blank
  rcases blank with ((rfl | rfl) | rfl) | rfl <;> exact ⟨by decide, _, rfl, by decide⟩

/-- An integer of a kind, and blanks to be written behind it. -/
structure SpacedWhole where
  kind : WholeKind
  number : Whole kind
  blanks : Text
  nonempty : blanks.units ≠ []
  blank : ∀ c ∈ blanks.units, c.isBlank = true

namespace SpacedWhole

variable (e : SpacedWhole)

/-- The integer is written, and then the blanks. -/
def writes : List TextFile.Operation := [.write (.scalar (.whole e.number)), .write (.text e.blanks)]

/-- An integer of the kind is read. -/
def read : TextFile.Operation := .read (.whole e.kind)

/-- The integer is the answer, and reading it succeeds. -/
def answer : TextFile.Answer × IoCode := (.value (some (.scalar (.whole e.number))), .success)

/-- The bytes of the integer. -/
def word : List UInt8 := Utf8.encode (Digits.signedDecimal e.number.toInt)

theorem notBlank_word : ∀ b ∈ e.word, isBlankByte b = false := notBlank_signedDecimal _

theorem word_ne_nil : e.word ≠ [] := encode_signedDecimal_ne_nil _

/-- What is written of the integer and the blanks. -/
theorem encode_writes :
    Utf8.encode (e.writes.flatMap TextFile.Operation.written) = e.word ++ e.blanks.toUtf8 := by
  have number : (TextFile.Operation.write (.scalar (.whole e.number))).written =
      Digits.signedDecimal e.number.toInt := e.number.parts_flatten
  have blanks : (TextFile.Operation.write (.text e.blanks)).written = e.blanks.codePoints :=
    List.flatMap_singleton' _
  rw [writes, List.flatMap_cons, List.flatMap_cons, List.flatMap_nil, List.append_nil, number, blanks,
    Utf8.encode_append]
  rfl

/-- The blanks are one blank byte at least, and no others. -/
theorem toUtf8_blanks : ∃ b rest, e.blanks.toUtf8 = b :: rest ∧ isBlankByte b = true ∧
    ∀ b ∈ rest, isBlankByte b = true := by
  have basic := fun c mem => (utf8EncodeChar_blank (e.blank c mem)).1
  -- a blank is one byte, which is a blank as well
  have all : ∀ b ∈ e.blanks.toUtf8, isBlankByte b = true := by
    intro b mem
    rw [Text.toUtf8, Text.codePoints_of_basic basic] at mem
    obtain ⟨d, mem_d, mem_b⟩ := Utf8.mem_encode.mp mem
    obtain ⟨c, mem_c, rfl⟩ := List.mem_map.mp mem_d
    obtain ⟨-, b', only, blank⟩ := utf8EncodeChar_blank (e.blank c mem_c)
    rw [only, List.mem_singleton] at mem_b
    rw [mem_b]
    exact blank
  obtain ⟨c, cs, units⟩ := List.exists_cons_of_ne_nil e.nonempty
  cases bytes : e.blanks.toUtf8 with
  | nil =>
    rw [Text.toUtf8, Text.codePoints_of_basic basic, units, List.map_cons, Utf8.encode_cons] at bytes
    exact absurd (List.append_eq_nil_iff.mp bytes).1 String.utf8EncodeChar_ne_nil
  | cons b rest =>
    rw [bytes] at all
    exact ⟨b, rest, rfl, all b List.mem_cons_self, fun d mem => all d (List.mem_cons_of_mem b mem)⟩

end SpacedWhole

namespace TextFile

variable {f : TextFile} {c : FileContext} {blanks : List UInt8} {b : UInt8}

/-! ### Reading integers -/

/-- An integer behind blanks is read, and the blank behind it is left. -/
theorem Unread.read_word (e : SpacedWhole) {rest : List UInt8} (blank : ∀ b ∈ blanks, isBlankByte b = true)
    (next : isBlankByte b = true) (h : Unread (blanks ++ (e.word ++ b :: rest)) (f, c)) :
    let s := perform e.read.act (f, c)
    (s.1, s.2.2.result) = e.answer ∧ Unread (b :: rest) s.2 := by
  obtain ⟨word, behind⟩ := ByteStream.wordBytes_append blank e.notBlank_word e.word_ne_nil next rest
  obtain ⟨f', performed, left⟩ := h.read (ByteStream.takes_item_whole e.kind)
  -- the bytes of the word are its characters, and these are the numeral that was written
  have value : TextItem.ofWord? (.ofChars (Utf8.decodeMarked e.word)) (.whole e.kind) =
      some (.scalar (.whole e.number)) := by
    rw [SpacedWhole.word, Utf8.decodeMarked_encode, TextItem.ofWord?, e.number.read?_written]
    rfl
  rw [word, value] at performed left
  rw [behind] at left
  dsimp only [SpacedWhole.read, Operation.act]
  rw [perform_map, performed]
  exact ⟨rfl, left⟩

/-- No integer is read where only blanks are left. -/
theorem Unread.read_blanks (blank : ∀ b ∈ blanks, isBlankByte b = true) (h : Unread blanks (f, c))
    (k : WholeKind) :
    let s := perform (Operation.read (.whole k)).act (f, c)
    (s.1, s.2.2.result) = (.value none, .ioError) := by
  obtain ⟨f', performed, -⟩ := h.read (ByteStream.takes_item_whole k)
  -- no numeral is without characters
  have value : TextItem.ofWord? (.ofChars (Utf8.decodeMarked [])) (.whole k) = none := by
    rw [← Utf8.encode_nil, Utf8.decodeMarked_encode]
    cases k <;> rfl
  rw [ByteStream.wordBytes_blanks blank, value] at performed
  dsimp only [Operation.act]
  rw [perform_map, performed]
  rfl

/-- Integers are read one after the other, and none behind them. -/
theorem Unread.trace_read {s : TextFile × FileContext} (items : List SpacedWhole)
    (blank : ∀ b ∈ blanks, isBlankByte b = true)
    (h : Unread (blanks ++ items.flatMap fun e => e.word ++ e.blanks.toUtf8) s) (k : WholeKind) :
    trace s ((items.map SpacedWhole.read ++ [Operation.read (.whole k)]).map Operation.act) =
      items.map SpacedWhole.answer ++ [(.value none, .ioError)] := by
  -- the blanks behind one integer are those before the next
  induction items generalizing blanks s with
  | nil =>
    rw [List.flatMap_nil, List.append_nil] at h
    exact congrArg ([·]) (h.read_blanks blank k)
  | cons e items ih =>
    obtain ⟨b, rest, bytes, next, others⟩ := e.toUtf8_blanks
    rw [List.flatMap_cons, bytes, List.append_assoc, List.cons_append] at h
    obtain ⟨answer, left⟩ := h.read_word e blank next
    have after : ∀ d ∈ b :: rest, isBlankByte d = true := List.forall_mem_cons.mpr ⟨next, others⟩
    have tail := ih after left
    rw [List.map_cons, List.cons_append, List.map_cons, FileM.trace, answer, tail, List.map_cons, List.cons_append]

/-- **Integers survive a text file**: integers of any kinds that are written with blanks behind each, to a file
    that is then closed and opened again, are read back in their order.  Every operation leaves success, up to one
    more integer that is read behind them: there is none, and that is an error. -/
theorem trace_of_numbers {name : Text} {id : NodeId} {base : Volume} (h : Creatable f c name id base)
    (items : List SpacedWhole) (k : WholeKind) :
    let writes := Operation.create :: items.flatMap SpacedWhole.writes ++ [.close, .reset]
    let reads := items.map SpacedWhole.read ++ [.read (.whole k)]
    trace (f, c) ((writes ++ reads).map Operation.act) =
      List.replicate writes.length (.done, .success) ++
        (items.map SpacedWhole.answer ++ [(.value none, .ioError)]) := by
  have writing : ∀ op ∈ items.flatMap SpacedWhole.writes, op.parts?.isSome = true := by
    intro op mem
    obtain ⟨e, -, mem⟩ := List.mem_flatMap.mp mem
    simp only [SpacedWhole.writes, List.mem_cons, List.not_mem_nil, or_false] at mem
    rcases mem with rfl | rfl <;> rfl
  obtain ⟨answers, -, unread⟩ := unread_of_written h writing
  -- each number is written with its blanks, in two operations
  have bytes : Utf8.encode ((items.flatMap SpacedWhole.writes).flatMap Operation.written) =
      [] ++ items.flatMap fun e => e.word ++ e.blanks.toUtf8 := by
    rw [List.flatMap_assoc, Utf8.encode_flatMap]
    simp only [SpacedWhole.encode_writes, List.nil_append]
  rw [bytes] at unread
  have read := unread.trace_read items (List.forall_mem_nil _) k
  dsimp only at answers ⊢
  rw [List.map_append, trace_append, answers, read]

/-- The least and the greatest integers of two kinds, with blanks of all sorts behind them. -/
theorem trace_of_numbers_two :
    let least : SpacedWhole :=
      ⟨.int64, ⟨0x8000000000000000⟩, ⟨[0x0D, 0x0A]⟩, by decide, List.all_eq_true.mp rfl⟩
    let greatest : SpacedWhole :=
      ⟨.uInt64, ⟨0xFFFFFFFFFFFFFFFF⟩, ⟨[0x20, 0x09]⟩, by decide, List.all_eq_true.mp rfl⟩
    let ops := Operation.create :: (least.writes ++ greatest.writes) ++ [.close, .reset, least.read, greatest.read,
      .read (.whole .byte)]
    trace (({ name := some (.singleton 0x61) } : TextFile), ({ } : FileContext)) (ops.map Operation.act) =
      List.replicate 7 (.done, .success) ++ [least.answer, greatest.answer, (.value none, .ioError)] := by
  intro least greatest ops
  have creatable : Creatable { name := some (.singleton 0x61) } { } (.singleton 0x61) 5 _ :=
    ⟨rfl, ⟨.initial, rfl, rfl⟩, rfl, rfl⟩
  exact trace_of_numbers creatable [least, greatest] .byte

end TextFile

end SystemUnit
