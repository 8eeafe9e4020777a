import SystemUnit.Proofs.Text.Recoding

namespace SystemUnit

/-!
# ASCII in encodings

A byte below 0x80 in an encoding is the whole encoding of an ASCII character.  What separates words and lines in
a file is therefore found where it is in the text.

* `Utf8.eq_of_mem_utf8EncodeChar` — a byte below 0x80 is a character of its own;
* `Utf8.pieces_encode_append` — encoded characters are found whatever follows them;
* `Utf8.decodeMarked_encode`, `Utf8.decode?_encode` — and so they are decoded, with nothing to mark or to refuse;
* `Text.mem_units_of_mem_toUtf8`, `Text.getLast?_units_of_toUtf8` — ASCII bytes of a text are ASCII units of it;
* `Text.codePoints_of_basic` — a text without surrogates has a character for each unit.
-/

namespace Utf8

variable {b : UInt8} {c : Char}

/-! ### Encodings one after another -/

@[simp] theorem encode_nil : encode [] = [] := rfl

@[simp] theorem encode_cons (c : Char) (cs : List Char) : encode (c :: cs) = String.utf8EncodeChar c ++ encode cs :=
  rfl

theorem encode_append (x y : List Char) : encode (x ++ y) = encode x ++ encode y :=
  List.flatMap_append

/-- The encoding of texts one behind another, each by its own encoding. -/
theorem encode_flatMap {α : Type} (l : List α) (chars : α → List Char) :
    encode (l.flatMap chars) = l.flatMap fun a => encode (chars a) :=
  List.flatMap_assoc

/-- A byte of an encoding is one of a character. -/
theorem mem_encode {cs : List Char} : b ∈ encode cs ↔ ∃ c ∈ cs, b ∈ String.utf8EncodeChar c :=
  List.mem_flatMap

/-! ### Bytes below 0x80 -/

/-- **A byte below 0x80 is a character of its own**: the bytes of a character of several bytes are all above. -/
theorem eq_of_mem_utf8EncodeChar (mem : b ∈ String.utf8EncodeChar c) (one : b.toNat < 0x80) :
    c.toNat = b.toNat := by
  have range := char_range c
  by_cases small : c.toNat < 0x80
  · rw [utf8EncodeChar_one small, List.mem_singleton] at mem
    rw [mem, toNat_ofNat_byte (by omega)]
  -- in every longer encoding the lead and what continues it are 0x80 at least
  by_cases two : c.toNat < 0x800
  · rw [utf8EncodeChar_two (by omega) two] at mem
    simp only [List.mem_cons, List.not_mem_nil, or_false] at mem
    rcases mem with rfl | rfl <;> rw [toNat_ofNat_byte (by omega)] at one <;> omega
  by_cases three : c.toNat < 0x10000
  · rw [utf8EncodeChar_three (by omega) three] at mem
    simp only [List.mem_cons, List.not_mem_nil, or_false] at mem
    rcases mem with rfl | rfl | rfl <;> rw [toNat_ofNat_byte (by omega)] at one <;> omega
  · rw [utf8EncodeChar_four (by omega)] at mem
    simp only [List.mem_cons, List.not_mem_nil, or_false] at mem
    rcases mem with rfl | rfl | rfl | rfl <;> rw [toNat_ofNat_byte (by omega)] at one <;> omega

/-! ### Decoding -/

/-- The encoding of a character is found at the front, whatever follows it. -/
theorem pieces_utf8EncodeChar_append (c : Char) (rest : List UInt8) :
    pieces (String.utf8EncodeChar c ++ rest) = .char c :: pieces rest :=
  pieces_of_cut (.char rfl)

theorem pieces_encode_append (cs : List Char) (rest : List UInt8) :
    pieces (encode cs ++ rest) = cs.map .char ++ pieces rest := by
  induction cs with
  | nil => rfl
  | cons c cs ih =>
    rw [encode_cons, List.append_assoc, pieces_utf8EncodeChar_append, ih, List.map_cons, List.cons_append]

/-- The pieces of an encoding are its characters. -/
theorem pieces_encode (cs : List Char) : pieces (encode cs) = cs.map .char := by
  have all := pieces_encode_append cs []
  rw [List.append_nil, pieces, List.append_nil] at all
  exact all

/-- What was encoded is decoded without a mark. -/
theorem decodeMarked_encode (cs : List Char) : decodeMarked (encode cs) = cs := by
  rw [decodeMarked, pieces_encode, List.map_map]
  exact List.map_id cs

/-- What was encoded is not refused. -/
theorem decode?_encode (cs : List Char) : decode? (encode cs) = some cs := by
  rw [decode?, pieces_encode]
  induction cs with
  | nil => rfl
  | cons c cs ih =>
    rw [List.map_cons, List.mapM_cons, ih]
    rfl

end Utf8

namespace Text

variable {s : Text} {b : UInt8}

/-- A text without unpaired surrogates consists of the units of its characters. -/
theorem units_eq_flatMap (paired : ∀ i, isUnpaired s.units i = false) :
    s.codePoints.flatMap CodeUnit.ofChar = s.units := by
  have kept := ofChars_codePoints s
  rw [withoutUnpaired_eq_self_iff.mpr paired] at kept
  exact congrArg Text.units kept

/-- The only unit of an ASCII character. -/
theorem ofChar_of_ascii {c : Char} (eq : c.toNat = b.toNat) : CodeUnit.ofChar c = [b.toUInt16] := by
  have lt : b.toNat < 256 := b.toNat_lt
  rw [CodeUnit.ofChar, eq, if_pos (by omega), UInt16.ofNat_uInt8ToNat]

/-- An ASCII byte of a text is an ASCII unit of it. -/
theorem mem_units_of_mem_toUtf8 (paired : ∀ i, isUnpaired s.units i = false) (one : b.toNat < 0x80)
    (mem : b ∈ s.toUtf8) : b.toUInt16 ∈ s.units := by
  obtain ⟨c, mem_c, mem_b⟩ := Utf8.mem_encode.mp mem
  have eq := Utf8.eq_of_mem_utf8EncodeChar mem_b one
  rw [← units_eq_flatMap paired]
  apply List.mem_flatMap.mpr
  refine ⟨c, mem_c, ?_⟩
  rw [ofChar_of_ascii eq]
  exact List.mem_singleton_self _

/-- An ASCII byte at the end of a text is an ASCII unit there. -/
theorem getLast?_units_of_toUtf8 (paired : ∀ i, isUnpaired s.units i = false) (one : b.toNat < 0x80)
    (last : s.toUtf8.getLast? = some b) : s.units.getLast? = some b.toUInt16 := by
  rw [← units_eq_flatMap paired]
  rw [toUtf8] at last
  cases end_eq : s.codePoints.getLast? with
  | none =>
    rw [List.getLast?_eq_none_iff.mp end_eq] at last
    cases last
  | some c =>
    obtain ⟨cs, chars_eq⟩ := List.getLast?_eq_some_iff.mp end_eq
    rw [chars_eq, Utf8.encode_append] at last
    -- the last byte is one of the last character, which is therefore of ASCII
    have mem : b ∈ String.utf8EncodeChar c := by
      have only : Utf8.encode [c] = String.utf8EncodeChar c := List.append_nil _
      rw [List.getLast?_append_of_ne_nil _ (by rw [only]; exact String.utf8EncodeChar_ne_nil), only] at last
      exact List.mem_of_getLast? last
    rw [chars_eq, List.flatMap_append, List.flatMap_singleton,
      ofChar_of_ascii (Utf8.eq_of_mem_utf8EncodeChar mem one), List.getLast?_concat]

/-- A text without surrogates has a character for each unit. -/
theorem codePoints_of_basic (basic : ∀ c ∈ s.units, (c.isHighSurrogate || c.isLowSurrogate) = false) :
    s.codePoints = s.units.map CodeUnit.toChar := by
  obtain ⟨units⟩ := s
  unfold codePoints
  dsimp only at basic ⊢
  induction units with
  | nil => rfl
  | cons c units ih =>
    have none := basic c List.mem_cons_self
    -- a unit that is no surrogate begins no pair
    have single : (c.isHighSurrogate && lowAt units 0) = false := by
      rw [(Bool.or_eq_false_iff.mp none).1, Bool.false_and]
    rw [charsOfUnits_single single, none, List.map_cons, ih fun d mem => basic d (List.mem_cons_of_mem c mem)]
    rfl

end Text

end SystemUnit
