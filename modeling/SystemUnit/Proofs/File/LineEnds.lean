import SystemUnit.Proofs.File.Lines

namespace SystemUnit

/-!
# Where a line ends

A question looks at the next byte alone: nothing is left of the line at a line feed, at a carriage return and at the end
of the file.  A line that is read goes through the next line feed, and a carriage return belongs to its end only before
that.  So the two agree on where a line ends unless a carriage return is next that no line feed follows.

* `lineText` — the text of the line that is next;
* `TextFile.Unread.eoln` — what the question answers;
* `IsReturnAlone` — a carriage return that does not end a line;
* `lineText_eq_empty_iff` — the lines that are empty where the question says so;
* `TextFile.eoln_agrees_iff` — when question and line agree.
-/

open FileM

/-! ### The line that is next -/

/-- The text of the line that some bytes start with. -/
def lineText (bytes : List UInt8) : Text := .ofUtf8 (stripLineEnd (bytes.take (ByteStream.lineLength bytes)))

variable {part bytes rest : List UInt8}

/-- The next line goes to the line feed, but for a carriage return before it. -/
theorem lineText_append_cons (none : 0x0A ∉ part) (rest : List UInt8) :
    lineText (part ++ 0x0A :: rest) = .ofUtf8 (withoutReturn part) :=
  congrArg Text.ofUtf8 (lineBytes_append_cons none rest)

/-- Without a line feed the next line is all that is left. -/
theorem lineText_of_not_mem (none : 0x0A ∉ bytes) : lineText bytes = .ofUtf8 bytes :=
  congrArg Text.ofUtf8 (lineBytes_of_not_mem none)

/-- No bytes are decoded as an empty text. -/
theorem Text.ofUtf8_nil : Text.ofUtf8 [] = .empty := by
  rw [ofUtf8, Utf8.decode, Utf8.pieces]
  rfl

/-- A carriage return is a character, whatever follows it. -/
theorem Text.ofUtf8_return_ne_empty (bytes : List UInt8) : Text.ofUtf8 (0x0D :: bytes) ≠ .empty := by
  have pieces := Utf8.pieces_utf8EncodeChar_append '\r' bytes
  intro empty
  have none := congrArg Text.units empty
  rw [ofUtf8, Utf8.decode, show 0x0D :: bytes = String.utf8EncodeChar '\r' ++ bytes from rfl, pieces] at none
  cases none

/-! ### Carriage returns -/

/-- A carriage return is next, and no line feed behind it. -/
def IsReturnAlone (bytes : List UInt8) : Prop := ∃ rest, bytes = 0x0D :: rest ∧ rest.head? ≠ some 0x0A

/-- A line that starts with such a carriage return has it in its text. -/
theorem lineText_ne_empty_of_isReturnAlone (alone : IsReturnAlone bytes) : lineText bytes ≠ .empty := by
  obtain ⟨rest, rfl, ne⟩ := alone
  by_cases ends : 0x0A ∈ rest
  · obtain ⟨part, more, rfl, none⟩ := List.eq_append_cons_of_mem ends
    have part_ne : part ≠ [] := by
      rintro rfl
      exact ne rfl
    -- what is before the line feed keeps its first byte, also if its last one is a carriage return
    have kept : ∃ kept, withoutReturn (0x0D :: part) = 0x0D :: kept := by
      unfold withoutReturn
      split
      · exact ⟨part.dropLast, List.dropLast_cons_of_ne_nil part_ne⟩
      · exact ⟨part, rfl⟩
    obtain ⟨kept, start⟩ := kept
    have none' : 0x0A ∉ (0x0D : UInt8) :: part := by simpa using none
    rw [← List.cons_append, lineText_append_cons none', start]
    exact Text.ofUtf8_return_ne_empty kept
  · have none : 0x0A ∉ (0x0D : UInt8) :: rest := by simpa using ends
    rw [lineText_of_not_mem none]
    exact Text.ofUtf8_return_ne_empty rest

/-- Whether the next byte ends a line, or there is none. -/
def isLineEnd (bytes : List UInt8) : Bool := bytes.head?.all fun b => b == 0x0A || b == 0x0D

/-- **Where the next byte ends a line, the line is empty unless that byte is a carriage return alone.** -/
theorem lineText_eq_empty_iff (ends : isLineEnd bytes = true) : lineText bytes = .empty ↔ ¬ IsReturnAlone bytes := by
  refine ⟨fun empty alone => lineText_ne_empty_of_isReturnAlone alone empty, fun paired => ?_⟩
  match bytes with
  | [] => rw [lineText_of_not_mem List.not_mem_nil, Text.ofUtf8_nil]
  | b :: rest =>
    simp only [isLineEnd, List.head?_cons, Option.all_some, Bool.or_eq_true, beq_iff_eq] at ends
    rcases ends with rfl | rfl
    · have line := lineText_append_cons List.not_mem_nil rest
      rw [List.nil_append] at line
      rw [line]
      exact Text.ofUtf8_nil
    · -- the carriage return is not alone, so that it belongs to the end of the line
      have feed : rest.head? = some 0x0A := by
        by_contra ne
        exact paired ⟨rest, rfl, ne⟩
      obtain ⟨more, rfl⟩ := List.head?_eq_some_iff.mp feed
      have none : 0x0A ∉ [(0x0D : UInt8)] := by decide
      have line := lineText_append_cons none more
      rw [List.singleton_append] at line
      rw [line]
      exact Text.ofUtf8_nil

namespace TextFile

/-! ### Question and line -/

variable {left : List UInt8} {s : TextFile × FileContext}

/-- The question is answered by the next byte; nothing is taken, and no code is left behind. -/
theorem Unread.eoln {f : TextFile} {c : FileContext} (h : Unread left (f, c)) :
    ∃ f', perform eoln (f, c) = (isLineEnd left, f', c) ∧ Unread left (f', c) := by
  obtain ⟨f', performed, unread⟩ := h.input ByteStream.takes_peek
  refine ⟨f', ?_, unread⟩
  unfold TextFile.eoln peek
  rw [perform_bind, perform_bind, performed]
  rfl

/-- **Question and line agree on where a line ends, unless a carriage return is next that no line feed follows.**  At
    every position of every text file, the line that is read is empty if the answer was that nothing is left of it; at
    such a carriage return that is the answer too, and the line is not empty. -/
theorem eoln_agrees_iff (unread : Unread left s) :
    let asked := perform eoln s
    let read := perform readLn asked.2
    (asked.1 = true → read.1 = .empty) ↔ ¬ IsReturnAlone left := by
  obtain ⟨f, c⟩ := s
  obtain ⟨f', asked, unread'⟩ := unread.eoln
  obtain ⟨f'', read, -⟩ := unread'.readLn
  dsimp only
  rw [asked]
  dsimp only
  rw [read]
  show (isLineEnd left = true → lineText left = .empty) ↔ _
  constructor
  · -- a carriage return that stands alone is the end of a line to the one question, and not to the other
    intro agrees alone
    have ends : isLineEnd left = true := by
      obtain ⟨rest, rfl, -⟩ := alone
      rfl
    exact (lineText_eq_empty_iff ends).mp (agrees ends) alone
  · exact fun paired ends => (lineText_eq_empty_iff ends).mpr paired

/-- A file that has been read up to the end of its first line, and fetched one byte further. -/
theorem eoln_agrees_at_pair :
    let volume : Volume := ⟨[.directory 0 false [(['a'], 1)], .file [0x61, 0x0D, 0x0A, 0x0D]], 0, none⟩
    let s : TextFile × FileContext :=
      ({ name := some (.singleton 0x61), stream := .input { node := 1, offset := 3, fetched := [0x0D, 0x0A] } },
        { volume })
    let asked := perform eoln s
    Unread [0x0D, 0x0A, 0x0D] s ∧ ¬ IsReturnAlone [0x0D, 0x0A, 0x0D] ∧ asked.1 = true ∧
      (perform readLn asked.2).1 = .empty := by
  intro volume s asked
  have unread : Unread [0x0D, 0x0A, 0x0D] s := ⟨_, [0x61, 0x0D, 0x0A, 0x0D], rfl, rfl, rfl⟩
  -- what follows the carriage return is a line feed
  have paired : ¬ IsReturnAlone [0x0D, 0x0A, 0x0D] := by
    rintro ⟨rest, start, ne⟩
    cases start
    exact ne rfl
  have ends : asked.1 = true := rfl
  exact ⟨unread, paired, ends, (eoln_agrees_iff unread).mpr paired ends⟩

/-- Nothing is left of the line at the start of this file, and the line that is read there is not empty. -/
theorem eoln_disagrees_at_return :
    let volume : Volume := ⟨[.directory 0 false [(['a'], 1)], .file [0x0D, 0x61]], 0, none⟩
    let s := (perform Operation.reset.act ({ name := some (.singleton 0x61) }, ({ volume } : FileContext))).2
    let asked := perform eoln s
    Unread [0x0D, 0x61] s ∧ asked.1 = true ∧ (perform readLn asked.2).1 = ⟨[0x0D, 0x61]⟩ := by
  intro volume s asked
  refine ⟨⟨_, [0x0D, 0x61], rfl, rfl, rfl⟩, rfl, ?_⟩
  decide +kernel

end TextFile

end SystemUnit
