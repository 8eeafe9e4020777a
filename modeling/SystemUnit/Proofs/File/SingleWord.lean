import Mathlib.Data.List.TakeWhile
import SystemUnit.Proofs.File.Lines
import SystemUnit.Proofs.File.Numbers
import SystemUnit.Proofs.Utf8.Marks

namespace SystemUnit

/-!
# A line that is one word

Where a line has no blanks, the word that is read there has the same bytes.  As texts the two are decoded differently:
an ill-formed piece is left out of a line, and has a mark in a word.

* `wordBytes_eq_lineBytes` — a line without blanks is the next word;
* `TextFile.Unread.read_text`, `TextFile.Unread.readLn_text` — the texts of a word and of a line;
* `TextFile.word_agrees_iff_valid` — when the two are the same;
* `TextFile.word_marks_malformed` — a line with a byte that belongs to no character.
-/

open FileM

variable {bytes : List UInt8}

/-! ### Word and line as bytes -/

/-- A line that ends with a line feed, and a carriage return before it or none, has a blank behind it. -/
theorem exists_blank_behind (part rest : List UInt8) :
    ∃ b more, part ++ 0x0A :: rest = withoutReturn part ++ b :: more ∧ isBlankByte b = true := by
  unfold withoutReturn
  split
  · rename_i last
    obtain ⟨init, rfl⟩ := List.getLast?_eq_some_iff.mp last
    exact ⟨0x0D, 0x0A :: rest, by simp, rfl⟩
  · exact ⟨0x0A, rest, rfl, rfl⟩

/-- Without blanks all bytes are the next word. -/
theorem wordBytes_of_notBlank (notBlank : ∀ b ∈ bytes, isBlankByte b = false) (some : bytes ≠ []) :
    ByteStream.wordBytes bytes = bytes := by
  have found := ByteStream.dropWhile_blanks (List.forall_mem_nil _) notBlank some []
  rw [List.nil_append, List.append_nil] at found
  rw [ByteStream.wordBytes, found, List.takeWhile_eq_self_iff]
  intro b mem
  rw [notBlank b mem]
  rfl

/-- **A line without blanks is the next word.** -/
theorem wordBytes_eq_lineBytes (some : lineBytes bytes ≠ [])
    (notBlank : ∀ b ∈ lineBytes bytes, isBlankByte b = false) : ByteStream.wordBytes bytes = lineBytes bytes := by
  by_cases ends : 0x0A ∈ bytes
  · obtain ⟨part, rest, rfl, none⟩ := List.eq_append_cons_of_mem ends
    rw [lineBytes_append_cons none] at some notBlank ⊢
    -- the word stops where the line does, at its end
    obtain ⟨b, more, behind, blank⟩ := exists_blank_behind part rest
    rw [behind]
    exact (ByteStream.wordBytes_append (List.forall_mem_nil _) notBlank some blank more).1
  · rw [lineBytes_of_not_mem ends] at some notBlank ⊢
    exact wordBytes_of_notBlank notBlank some

namespace TextFile

/-! ### Word and line as texts -/

variable {s : TextFile × FileContext} {left : List UInt8}

/-- A line is read without its ill-formed pieces. -/
theorem Unread.readLn_text (unread : Unread left s) :
    let s' := perform TextFile.readLn s
    s'.1 = .ofUtf8 (lineBytes left) ∧ s'.2.2.result = .success := by
  obtain ⟨f, c⟩ := s
  obtain ⟨f', performed, -⟩ := unread.readLn
  dsimp only
  rw [performed]
  exact ⟨rfl, rfl⟩

/-- A word is read with a mark for each ill-formed piece. -/
theorem Unread.read_text (unread : Unread left s) (some : ByteStream.wordBytes left ≠ []) :
    let s' := perform (TextFile.read .text) s
    s'.1 = Option.some (.text (.ofChars (Utf8.decodeMarked (ByteStream.wordBytes left)))) ∧
      s'.2.2.result = .success := by
  obtain ⟨f, c⟩ := s
  obtain ⟨f', performed, -⟩ := unread.read ByteStream.takes_item_text
  have value : TextItem.ofWord? (.ofChars (Utf8.decodeMarked (ByteStream.wordBytes left))) .text =
      Option.some (.text (.ofChars (Utf8.decodeMarked (ByteStream.wordBytes left)))) := by
    rw [TextItem.ofWord?, Text.isEmpty_ofChars, List.isEmpty_eq_false_iff.mpr (Utf8.decodeMarked_ne_nil some)]
    rfl
  rw [value] at performed
  dsimp only
  rw [performed]
  exact ⟨rfl, rfl⟩

/-- **The word that is read is the line that is read exactly if the line is valid UTF-8.**  Of a line without blanks
    both are read with success.  The line has the characters of its runs, and the word has a mark besides for each
    ill-formed piece between them. -/
theorem word_agrees_iff_valid (unread : Unread left s) (some : lineBytes left ≠ [])
    (notBlank : ∀ b ∈ lineBytes left, isBlankByte b = false) :
    let word := perform (TextFile.read .text) s
    let line := perform TextFile.readLn s
    (word.1 = Option.some (.text line.1) ↔ (lineBytes left).toByteArray.IsValidUTF8) ∧
      (word.2.2.result = .success ∧ line.2.2.result = .success) ∧
      ∃ chunks, Utf8.Chunks (lineBytes left) chunks ∧
        word.1 = Option.some (.text (.ofChars (chunks.flatMap Utf8.Chunk.marked))) ∧
        line.1 = .ofChars (Utf8.Chunk.chars chunks) := by
  -- the two are decoded from the same bytes
  have same := wordBytes_eq_lineBytes some notBlank
  obtain ⟨lineText, lineCode⟩ := unread.readLn_text
  obtain ⟨wordText, wordCode⟩ := unread.read_text (by rw [same]; exact some)
  rw [same] at wordText
  rw [Text.ofUtf8] at lineText
  obtain ⟨chunks, pieces, -⟩ := Utf8.exists_chunks (lineBytes left)
  dsimp only
  refine ⟨?_, ⟨wordCode, lineCode⟩, chunks, pieces, ?_, ?_⟩
  · rw [wordText, lineText, Option.some_inj, Argument.text.injEq, Text.ofChars_inj, Utf8.decodeMarked_eq_decode_iff]
  · rw [wordText, pieces.decodeMarked_eq]
  · rw [lineText, pieces.decode_eq]

/-- A line of one character, of which one byte has been fetched; the line behind it is not valid. -/
theorem word_agrees_at_euro :
    let volume : Volume := ⟨[.directory 0 false [(['a'], 1)], .file [0xE2, 0x82, 0xAC, 0x0D, 0x0A, 0xFF]], 0, none⟩
    let s : TextFile × FileContext :=
      ({ name := some (.singleton 0x61), stream := .input { node := 1, offset := 1, fetched := [0xE2] } }, { volume })
    let left := [0xE2, 0x82, 0xAC, 0x0D, 0x0A, 0xFF]
    Unread left s ∧ lineBytes left = [0xE2, 0x82, 0xAC] ∧ (lineBytes left).toByteArray.IsValidUTF8 ∧
      (perform (TextFile.read .text) s).1 = Option.some (.text (perform TextFile.readLn s).1) := by
  intro volume s left
  have unread : Unread left s := ⟨_, left, rfl, rfl, rfl⟩
  have line : lineBytes left = [0xE2, 0x82, 0xAC] := rfl
  have notBlank : ∀ b ∈ lineBytes left, isBlankByte b = false := by
    rw [line]
    simp [isBlankByte]
  have valid : (lineBytes left).toByteArray.IsValidUTF8 := by
    rw [line]
    exact Utf8.isValidUTF8_iff.mpr ⟨['€'], rfl⟩
  have some : lineBytes left ≠ [] := by
    rw [line]
    exact List.cons_ne_nil _ _
  exact ⟨unread, line, valid, (word_agrees_iff_valid unread some notBlank).1.mpr valid⟩

/-- A line with a byte that belongs to no character.  The line is read without it, and the word has a mark. -/
theorem word_marks_malformed :
    let volume : Volume := ⟨[.directory 0 false [(['a'], 1)], .file [0x61, 0xFF]], 0, none⟩
    let s := (perform Operation.reset.act ({ name := some (.singleton 0x61) }, ({ volume } : FileContext))).2
    let word := perform (TextFile.read .text) s
    let line := perform TextFile.readLn s
    Unread [0x61, 0xFF] s ∧ lineBytes [0x61, 0xFF] = [0x61, 0xFF] ∧ (∀ b ∈ [0x61, 0xFF], isBlankByte b = false) ∧
      line.1 = ⟨[0x61]⟩ ∧ word.1 = some (.text ⟨[0x61, 0xFFFD]⟩) ∧ word.1 ≠ some (.text line.1) := by
  intro volume s word line
  have unread : Unread [0x61, 0xFF] s := ⟨_, [0x61, 0xFF], rfl, rfl, rfl⟩
  have text : line.1 = ⟨[0x61]⟩ := by decide +kernel
  have marks : Text.ofChars (Utf8.decodeMarked [0x61, 0xFF]) = ⟨[0x61, 0xFFFD]⟩ := by decide +kernel
  have marked : word.1 = some (.text ⟨[0x61, 0xFFFD]⟩) := by
    rw [← marks]
    exact (unread.read_text (List.cons_ne_nil _ _)).1
  refine ⟨unread, rfl, by simp [isBlankByte], text, marked, ?_⟩
  rw [text, marked]
  intro same
  cases same

end TextFile

end SystemUnit
