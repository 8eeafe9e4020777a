import SystemUnit.Proofs.File.Integers

namespace SystemUnit

/-!
# Characters of a text file

A character is read by its first byte, which announces how many bytes are taken.  In UTF-8 these are the bytes of the
character, so that reading stays in step with the text, and blanks before a character are told by their bytes.

* `announced_utf8EncodeChar` — the first byte of a character announces all of its bytes;
* `isBlankChar`, `dropWhile_isBlankByte_encode` — blanks in a text are the blank bytes of its encoding;
* `CodeUnit.leading` — the unit that is read of a character;
* `ByteStream.takes_unit`, `ByteStream.characterBytes_encode` — what is taken of a stream, and of one in UTF-8;
* `TextFile.Unread.read_char`, `TextFile.Unread.read_char_none` — one character of a file, and none;
* `TextFile.trace_of_characters` — any number of them.
-/

open FileM

variable {b : UInt8} {bytes : List UInt8} {c : Char} {cs blanks rest : List Char}

/-! ### The first byte of a character -/

/-- **The first byte of a character announces all of its bytes.** -/
theorem announced_utf8EncodeChar (encoding : String.utf8EncodeChar c = b :: bytes) :
    announced b = bytes.length + 1 := by
  simp only [announced, Bool.and_eq_true, decide_eq_true_eq, UInt8.le_iff_toNat_le]
  rcases Utf8.utf8EncodeChar_eq_cons encoding with ⟨one, rfl⟩ | ⟨n, least, greatest, found, rfl, -⟩
  · rw [if_neg (by simp; omega), if_neg (by simp; omega), if_neg (by simp; omega)]
    rfl
  · -- the table has the same ranges, but for first bytes that begin no character
    rcases (Utf8.lead?_eq_some found).size with ⟨size, low, high⟩ | ⟨size, low, high⟩ | ⟨size, low, high⟩
    · rw [if_neg (by simp; omega), if_neg (by simp; omega), if_pos (by simp; omega), size]
    · rw [if_neg (by simp; omega), if_pos (by simp; omega), size]
    · rw [if_pos (by simp; omega), size]

/-! ### Blanks -/

/-- Space, tab, carriage return or line feed. -/
def isBlankChar (c : Char) : Bool := c == ' ' || c == '\t' || c == '\r' || c == '\n'

/-- The blanks before a character, by their numbers. -/
theorem isBlankChar_iff :
    isBlankChar c = true ↔ c.toNat = 0x20 ∨ c.toNat = 0x09 ∨ c.toNat = 0x0D ∨ c.toNat = 0x0A := by
  simp [isBlankChar, ← Char.toNat_inj, or_assoc]

/-- They are bytes of their own. -/
theorem isBlankByte_iff :
    isBlankByte b = true ↔ b.toNat = 0x20 ∨ b.toNat = 0x09 ∨ b.toNat = 0x0D ∨ b.toNat = 0x0A := by
  simp [isBlankByte, ← UInt8.toNat_inj, or_assoc]

/-- A blank byte is a blank character, and no other character begins with one. -/
theorem isBlankByte_utf8EncodeChar (encoding : String.utf8EncodeChar c = b :: bytes) :
    isBlankByte b = isBlankChar c := by
  rw [Bool.eq_iff_iff, isBlankByte_iff, isBlankChar_iff]
  have first : b ∈ String.utf8EncodeChar c := by rw [encoding]; exact List.mem_cons_self
  by_cases one : c.toNat < 0x80
  · rw [Utf8.utf8EncodeChar_one one] at encoding
    rw [← (List.cons.inj encoding).1, Utf8.toNat_ofNat_byte (by omega)]
  · have many : ¬ b.toNat < 0x80 := fun small => one (by rw [Utf8.eq_of_mem_utf8EncodeChar first small]; exact small)
    omega

/-- **The blanks before a text are the blank bytes before its encoding.** -/
theorem dropWhile_isBlankByte_encode (cs : List Char) :
    (Utf8.encode cs).dropWhile isBlankByte = Utf8.encode (cs.dropWhile isBlankChar) := by
  induction cs with
  | nil => rfl
  | cons c cs ih =>
    cases encoding : String.utf8EncodeChar c with
    | nil => exact absurd encoding String.utf8EncodeChar_ne_nil
    | cons b bytes =>
      have same := isBlankByte_utf8EncodeChar encoding
      cases blank : isBlankChar c with
      | true =>
        -- a blank has one byte only
        have one : c.toNat < 0x80 := by
          have := isBlankChar_iff.mp blank
          omega
        rw [Utf8.utf8EncodeChar_one one] at encoding
        obtain ⟨rfl, rfl⟩ := List.cons.inj encoding
        rw [Utf8.encode_cons, Utf8.utf8EncodeChar_one one, List.singleton_append,
          List.dropWhile_cons_of_pos (by rw [same, blank]), List.dropWhile_cons_of_pos blank, ih]
      | false =>
        rw [List.dropWhile_cons_of_neg (by rw [blank]; exact Bool.false_ne_true), Utf8.encode_cons, encoding,
          List.cons_append, List.dropWhile_cons_of_neg (by rw [same, blank]; exact Bool.false_ne_true)]

/-! ### What is taken of a stream -/

theorem CodeUnit.ofChar_ne_nil (c : Char) : CodeUnit.ofChar c ≠ [] := by
  unfold CodeUnit.ofChar
  split <;> exact List.cons_ne_nil _ _

/-- The first code unit of a character: its only one, or the high surrogate of its pair. -/
def CodeUnit.leading (c : Char) : CodeUnit := (CodeUnit.ofChar c).head (CodeUnit.ofChar_ne_nil c)

namespace ByteStream

/-- The number of bytes that the first of some bytes announces. -/
def announcedLength (bytes : List UInt8) : Nat := bytes.head?.elim 0 announced

/-- The bytes that are taken for the next character that is no blank. -/
def characterBytes (bytes : List UInt8) : List UInt8 :=
  let found := bytes.dropWhile isBlankByte
  found.take (announcedLength found)

/-- The bytes behind the next character that is no blank. -/
def behindCharacter (bytes : List UInt8) : List UInt8 :=
  let found := bytes.dropWhile isBlankByte
  found.drop (announcedLength found)

/-- The first code unit of the character that some bytes are, if they are one. -/
def unitOf? (bytes : List UInt8) : Option CodeUnit :=
  (Text.ofChars ((Utf8.decode? bytes).getD [])).units.head?

/-- A byte that is there, and the bytes that it announces, are taken together. -/
theorem takes_announced :
    Takes (fun s : ByteStream => match s.bytes.head? with
        | none => (none, s)
        | some b => (unitOf? (s.bytes.take (announced b)), s.drop (s.bytes.take (announced b)).length))
      (fun l => unitOf? (l.take (announcedLength l))) (fun l => l.drop (announcedLength l)) where
  value_eq s := by
    -- at the end there is no byte to announce anything
    cases first : s.bytes.head? with
    | none => simp [announcedLength, first, unitOf?, Utf8.decode?, Utf8.pieces, Text.ofChars]
    | some b => simp [announcedLength, first]
  rest_eq s := by
    cases first : s.bytes.head? with
    | none => simp [announcedLength, first]
    | some b => simp [announcedLength, first]
  pending s := by
    cases s.bytes.head? with
    | none => exact List.suffix_refl _
    | some b => exact pending_drop _ _

/-- A character is taken with the blanks before it. -/
theorem takes_unit : Takes unit (fun l => unitOf? (characterBytes l)) behindCharacter :=
  (takes_span isBlankByte).andThen takes_announced

theorem takes_item_char :
    Takes (item · .char) (fun l => (unitOf? (characterBytes l)).map (Argument.scalar <| .char ·)) behindCharacter :=
  takes_unit.map (Option.map (Argument.scalar <| .char ·))

/-! ### Characters in UTF-8 -/

/-- **The next character behind blanks is taken with all of its bytes**, and no more. -/
theorem characterBytes_encode (blank : ∀ d ∈ blanks, isBlankChar d = true) (notBlank : isBlankChar c = false)
    (rest : List Char) :
    characterBytes (Utf8.encode (blanks ++ c :: rest)) = Utf8.encode [c] ∧
      behindCharacter (Utf8.encode (blanks ++ c :: rest)) = Utf8.encode rest := by
  have found : (blanks ++ c :: rest).dropWhile isBlankChar = c :: rest := by
    rw [List.dropWhile_append_of_pos blank, List.dropWhile_cons_of_neg (by rw [notBlank]; exact Bool.false_ne_true)]
  cases encoding : String.utf8EncodeChar c with
  | nil => exact absurd encoding String.utf8EncodeChar_ne_nil
  | cons b bytes =>
    -- the first byte announces just the bytes of the character
    have length_eq : announcedLength (Utf8.encode (c :: rest)) = (Utf8.encode [c]).length := by
      rw [Utf8.encode_cons, Utf8.encode_cons, encoding]
      exact (announced_utf8EncodeChar encoding).trans (by simp)
    have split : Utf8.encode (c :: rest) = Utf8.encode [c] ++ Utf8.encode rest := Utf8.encode_append [c] rest
    simp only [characterBytes, behindCharacter]
    rw [dropWhile_isBlankByte_encode, found, length_eq, split]
    exact ⟨List.take_left, List.drop_left⟩

/-- Where only blanks are left all of them are taken. -/
theorem characterBytes_encode_blanks (blank : ∀ d ∈ blanks, isBlankChar d = true) :
    characterBytes (Utf8.encode blanks) = [] ∧ behindCharacter (Utf8.encode blanks) = [] := by
  have none : blanks.dropWhile isBlankChar = [] := by
    rw [← List.append_nil blanks, List.dropWhile_append_of_pos blank]
    rfl
  simp only [characterBytes, behindCharacter]
  rw [dropWhile_isBlankByte_encode, none]
  exact ⟨rfl, rfl⟩

theorem unitOf?_nil : unitOf? [] = none := by
  rw [unitOf?, Utf8.decode?, Utf8.pieces]
  rfl

/-- The unit of a character is its leading one. -/
theorem unitOf?_encode (c : Char) : unitOf? (Utf8.encode [c]) = some (CodeUnit.leading c) := by
  rw [unitOf?, Utf8.decode?_encode]
  show (CodeUnit.ofChar c ++ []).head? = _
  rw [List.append_nil]
  exact List.head?_eq_some_head _

end ByteStream

namespace TextFile

/-! ### Reading characters -/

variable {s : TextFile × FileContext}

/-- The answer where a character is read: its leading unit, and success. -/
def unitAnswer (c : Char) : Answer × IoCode := (.value (some (.scalar (.char (CodeUnit.leading c)))), .success)

/-- The answer where there is none. -/
def noUnitAnswer : Answer × IoCode := (.value none, .ioError)

/-- A character behind blanks is read, and what is behind it is left. -/
theorem Unread.read_char (blank : ∀ d ∈ blanks, isBlankChar d = true) (notBlank : isBlankChar c = false)
    (unread : Unread (Utf8.encode (blanks ++ c :: rest)) s) :
    let s' := perform (Operation.read .char).act s
    (s'.1, s'.2.2.result) = unitAnswer c ∧ Unread (Utf8.encode rest) s'.2 := by
  obtain ⟨f, context⟩ := s
  obtain ⟨taken, behind⟩ := ByteStream.characterBytes_encode blank notBlank rest
  -- a pair gives the first of its units, and is passed over whole
  obtain ⟨f', performed, left⟩ := unread.read ByteStream.takes_item_char
  rw [taken, ByteStream.unitOf?_encode] at performed left
  rw [behind] at left
  dsimp only [Operation.act]
  rw [perform_map, performed]
  exact ⟨rfl, left⟩

/-- No character is read where only blanks are left, and nothing is left then. -/
theorem Unread.read_char_none (blank : ∀ d ∈ blanks, isBlankChar d = true) (unread : Unread (Utf8.encode blanks) s) :
    let s' := perform (Operation.read .char).act s
    (s'.1, s'.2.2.result) = noUnitAnswer ∧ Unread (Utf8.encode []) s'.2 := by
  obtain ⟨f, context⟩ := s
  obtain ⟨taken, behind⟩ := ByteStream.characterBytes_encode_blanks blank
  obtain ⟨f', performed, left⟩ := unread.read ByteStream.takes_item_char
  rw [taken, ByteStream.unitOf?_nil] at performed left
  rw [behind] at left
  dsimp only [Operation.act]
  rw [perform_map, performed]
  exact ⟨rfl, left⟩

/-- **Characters are read one after the other.**  Where a text is left in UTF-8, any number of reads give the leading
    units of its characters in their order, blanks left out, each with success; and where these come to an end, nothing
    and the code of an error. -/
theorem trace_of_characters (unread : Unread (Utf8.encode cs) s) (count : Nat) :
    let found := (cs.filter (!isBlankChar ·)).map unitAnswer
    trace s (List.replicate count (Operation.read .char).act) =
      found.take count ++ List.replicate (count - found.length) noUnitAnswer := by
  dsimp only
  induction count generalizing cs s with
  | zero => simp [trace]
  | succ count ih =>
    rw [List.replicate_succ, trace]
    -- either only blanks are left, or a character behind some of them
    cases found : cs.filter (!isBlankChar ·) with
    | nil =>
      have blank : ∀ d ∈ cs, isBlankChar d = true := by simpa using List.filter_eq_nil_iff.mp found
      obtain ⟨answer, left⟩ := unread.read_char_none blank
      rw [answer, ih left]
      simp [List.replicate_succ]
    | cons c others =>
      obtain ⟨blanks, rest, rfl, none, notBlank, rfl⟩ := List.filter_eq_cons_iff.mp found
      have blank : ∀ d ∈ blanks, isBlankChar d = true := by simpa using none
      obtain ⟨answer, left⟩ := unread.read_char blank (by simpa using notBlank)
      rw [answer, ih left]
      simp

/-- Characters of one to four bytes with blanks around them, and nothing behind the last one. -/
theorem trace_of_characters_four :
    let cs := ['\t', 'é', ' ', 'a', '😀', '\r', '\n', '€', ' ']
    let units : List CodeUnit := [0xE9, 0x61, 0xD83D, 0x20AC]
    Unread (Utf8.encode cs) (reopened (.ofChars cs)) ∧
      trace (reopened (.ofChars cs)) (List.replicate 6 (Operation.read .char).act) =
        units.map (fun u => (.value (some (.scalar (.char u))), .success)) ++
          List.replicate 2 (.value none, .ioError) := by
  intro cs units
  -- blanks of each kind, and characters of one to four bytes
  have unread := unread_reopened (.ofChars cs)
  rw [Text.toUtf8, Text.codePoints_ofChars] at unread
  exact ⟨unread, trace_of_characters unread 6⟩

end TextFile

end SystemUnit
