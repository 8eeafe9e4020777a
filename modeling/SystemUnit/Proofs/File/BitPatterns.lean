import SystemUnit.Conversion.Writing
import SystemUnit.Proofs.Conversion.Hexadecimal
import SystemUnit.Proofs.File.Agreement

namespace SystemUnit

/-!
# Bit patterns that are written and read back

An integer of a kind is written in base sixteen as its bit pattern, with zeros up to a number of digits.  Behind a mark
this is a numeral, and its number is less than the count of the kind; so the scan for the kind takes it for the pattern
that it is, and for the integer.  A kind without a sign is scanned for one more bit, and no pattern of the kind has
that bit.

* `isCapitalHexDigit`, `units_intToHex` — the digits that are written, and how many there are;
* `Whole.hexLiteral`, `exists_word_of_intToHex` — the pattern behind a mark, and the numeral that it is;
* `Whole.interpret_toNat` — a bit pattern stands for its integer, whatever the kind;
* `Whole.read?_hexLiteral`, `Reading.hexadecimal_intToHex` — it is read back;
* `intToHex_read_back` — it is read back from a text and from a file, whatever zeros it has.
-/

open Numeral FileM

variable {k : WholeKind} {m : Mark} (a : Whole k) (digits : Int)

/-! ### The digits that are written -/

/-- Whether a unit is a digit in base sixteen, with capital letters. -/
def isCapitalHexDigit (u : CodeUnit) : Bool := 0x30 ≤ u && u ≤ 0x39 || 0x41 ≤ u && u ≤ 0x46

/-- A bit pattern is its number with zeros before it. -/
theorem intToHex_eq_padded :
    intToHex a digits = .ofChars (Digits.padded 16 true (digits.toNat - (Digits.hex true a.toNat).length) a.toNat) :=
  rfl

/-- A bit pattern is written in as many capital digits as are asked for, or as its number has. -/
theorem units_intToHex :
    ((intToHex a digits).size : Int) = max digits (Nat.log 16 a.toNat + 1 : Nat) ∧
      ∀ u ∈ (intToHex a digits).units, isCapitalHexDigit u = true := by
  have capital : ∀ d < 16, isCapitalHexDigit (UInt16.ofNat (Digits.char true d).toNat) = true := by decide
  -- digits are single units, so that units can be counted and looked at as characters
  have isDigit := Digits.isDigitIn_padded true (digits.toNat - (Digits.hex true a.toNat).length) a.toNat
    (show 2 ≤ 16 by decide) (by decide)
  obtain ⟨units, -⟩ := Digits.units_ofChars_of_lt fun c mem => Digits.lt_of_isSome_ofCode (isDigit c mem)
  have length : (Digits.hex true a.toNat).length = Nat.log 16 a.toNat + 1 := by
    rw [Digits.hex, List.length_map, Digits.length_ofNat_eq_log (by decide)]
  rw [Text.size, intToHex_eq_padded, units]
  constructor
  · rw [List.length_map, Digits.length_padded (by decide), length]
    omega
  · intro u mem
    obtain ⟨c, mem_c, rfl⟩ := List.mem_map.mp mem
    rcases List.mem_append.mp mem_c with zero | digit
    · rw [List.eq_of_mem_replicate zero]
      exact capital 0 (by decide)
    · obtain ⟨d, mem_d, rfl⟩ := List.mem_map.mp digit
      exact capital d (Digits.lt_of_mem_ofNat (by decide) mem_d)

/-! ### The numeral of a bit pattern -/

/-- The bit pattern of an integer, behind a mark. -/
def Whole.hexLiteral (m : Mark) (a : Whole k) (digits : Int) : Text := ⟨m.units⟩ ++ intToHex a digits

/-- A bit pattern is the digits of a numeral, and its number is that of the pattern. -/
theorem exists_word_of_intToHex (marked : m ≠ .none) :
    ∃ w : Word, w.sign = .none ∧ w.mark = m ∧ w.digits = (intToHex a digits).units ∧ w.size = a.toNat := by
  refine ⟨Word.ofNat .none m true (digits.toNat - (Digits.hex true a.toNat).length) a.toNat, rfl, rfl, ?_,
    Word.size_ofNat ..⟩
  rw [intToHex_eq_padded, ← Mark.radix_of_ne marked]
  rfl

namespace Whole

/-- **A bit pattern stands for its integer.**  Without a sign the kind is scanned for one more bit, and the pattern does
    not reach the half of that. -/
theorem interpret_toNat : interpret k.numeralWidth 16 a.toNat = a.toInt := by
  unfold interpret WholeKind.numeralWidth
  rw [if_neg (by decide)]
  cases signed : k.isSigned with
  | true =>
    rw [if_pos rfl, toInt, if_pos signed, BitVec.toInt_eq_toNat_bmod]
    rfl
  | false =>
    have lt := a.toNat_lt
    have twice : Nat.pow 2 (k.width + 1) = 2 * k.count := Nat.mul_comm _ _
    rw [if_neg Bool.false_ne_true, a.toInt_of_unsigned signed, twice, Word.bmod_of_lt (by omega), if_pos lt]

/-- The numeral of a bit pattern is read as the integer. -/
theorem valueIn_of_pattern {w : Word} (sign : w.sign = .none) (marked : w.mark ≠ .none) (size : w.size = a.toNat) :
    w.valueIn k.numeralWidth = a.toInt := by
  rw [Word.valueIn, size, sign, Mark.radix_of_ne marked]
  exact a.interpret_toNat

/-- All bit patterns of a kind are within the limit of a scan for it. -/
theorem toNat_le_limit : a.toNat ≤ limit k.numeralWidth 16 false := by
  have lt := a.toNat_lt
  -- one bit more is no less
  have le : k.count ≤ Nat.pow 2 k.numeralWidth := by
    refine Nat.pow_le_pow_right (by decide) ?_
    unfold WholeKind.numeralWidth
    split <;> omega
  unfold limit
  rw [if_neg (by decide)]
  omega

/-- A bit pattern is read back as an integer of its kind. -/
theorem read?_hexLiteral (marked : m ≠ .none) : (Reading.whole k).read? (a.hexLiteral m digits) = some a := by
  obtain ⟨w, sign, rfl, chars, size⟩ := exists_word_of_intToHex a digits marked
  -- there is no sign, so that mark and digits are all of the numeral
  have units : w.units = (a.hexLiteral w.mark digits).units := by
    show w.sign.units ++ (w.mark.units ++ w.digits) = w.mark.units ++ (intToHex a digits).units
    rw [sign, chars]
    rfl
  rw [Reading.whole_read?_eq_some_iff, ← units]
  refine ⟨w, w.isIn_units, ?_, a.valueIn_of_pattern sign marked size⟩
  rw [size, sign, Mark.radix_of_ne marked]
  exact a.toNat_le_limit

/-- The characters of a bit pattern behind a mark. -/
theorem exists_chars_hexLiteral :
    ∃ chars, a.hexLiteral m digits = .ofChars chars ∧ (a.hexLiteral m digits).toUtf8 = Utf8.encode chars := by
  obtain ⟨lead, mark⟩ : ∃ lead, (⟨m.units⟩ : Text) = .ofChars lead := by
    cases m with
    | none => exact ⟨[], rfl⟩
    | dollar => exact ⟨['$'], rfl⟩
    | smallX => exact ⟨['0', 'x'], rfl⟩
    | capitalX => exact ⟨['0', 'X'], rfl⟩
  have text : a.hexLiteral m digits = .ofChars
      (lead ++ Digits.padded 16 true (digits.toNat - (Digits.hex true a.toNat).length) a.toNat) := by
    rw [hexLiteral, mark, intToHex_eq_padded, Text.ofChars_append]
  exact ⟨_, text, by rw [text, Text.toUtf8, Text.codePoints_ofChars]⟩

end Whole

/-! ### Patterns that are read back -/

/-- A bit pattern of 32 bits is read back in base sixteen without a mark. -/
theorem Reading.hexadecimal_intToHex (a : Whole .integer) : hexadecimal.strict (intToHex a digits) = .ok a := by
  obtain ⟨w, sign, dollar, chars, size⟩ := exists_word_of_intToHex a digits (m := .dollar) nofun
  -- base sixteen asks for no mark; so the numeral is one whose mark does not show
  have bare : w.bare = (intToHex a digits).units := by
    rw [Word.bare, sign, dollar, chars]
    rfl
  have fits : w.Fits .integer := by
    rw [Word.Fits, dollar, if_neg nofun, size]
    exact a.toNat_lt
  have denotes : w.Denotes a := by
    have value : w.valueIn WholeKind.integer.width = a.toInt :=
      a.valueIn_of_pattern sign (by rw [dollar]; exact nofun) size
    rw [← Word.ofInt_valueIn_eq_iff fits, value, Whole.ofInt_toInt]
  -- a digit comes first, and neither a blank nor a dollar sign
  have other : startsWith '$' ((intToHex a digits).units.dropWhile CodeUnit.isBlank) = false := by
    obtain ⟨d, ds, first⟩ := List.exists_cons_of_ne_nil w.digits_ne_nil
    have digit := w.isDigit d (by simp [first])
    rw [← chars, first, List.dropWhile_cons_of_neg (by simp [(ne_of_isDigitIn digit).2.2.2]), startsWith_cons,
      beq_eq_false_iff_ne]
    exact Nat.ne_of_gt (Nat.lt_of_lt_of_le (by decide) (range_of_isDigitIn digit).1)
  rw [strict_eq_ok_iff, hexadecimal_read?_of_not_dollar other, whole?_scan_hexMark_map_eq_some_iff]
  refine ⟨w, ⟨by rw [dollar]; exact nofun, [], [], List.forall_mem_nil _, List.forall_mem_nil _, ?_⟩, fits, denotes⟩
  rw [bare, List.nil_append, List.append_nil]

/-- **Bit patterns are read back, whatever number of digits was asked for.**  A pattern is written in capital digits, as
    many as are asked for or as it has.  At 32 bits it is read back in base sixteen; and behind a mark it is read back
    from a text at 32 and at 64 bits, and from a text file as an integer of each kind. -/
theorem intToHex_read_back (digits : Int) :
    (∀ (k : WholeKind) (a : Whole k),
      ((intToHex a digits).size : Int) = max digits (Nat.log 16 a.toNat + 1 : Nat) ∧
        ∀ u ∈ (intToHex a digits).units, isCapitalHexDigit u = true) ∧
    (∀ a : Whole .integer, Reading.hexadecimal.strict (intToHex a digits) = .ok a) ∧
    ∀ m : Mark, m ≠ .none →
      (∀ a : Whole .integer, Reading.integer.strict (a.hexLiteral m digits) = .ok a) ∧
      (∀ a : Whole .int64, Reading.int64.strict (a.hexLiteral m digits) = .ok a) ∧
      ∀ (k : WholeKind) (a : Whole k) (left : List UInt8) (s : TextFile × FileContext), TextFile.Unread left s →
        ByteStream.wordBytes left = (a.hexLiteral m digits).toUtf8 →
        (perform (TextFile.read (.whole k)) s).1 = some (.scalar (.whole a)) ∧
          (perform (TextFile.read (.whole k)) s).2.2.result = .success := by
  refine ⟨fun k a => units_intToHex a digits, Reading.hexadecimal_intToHex digits, fun m marked => ⟨?_, ?_, ?_⟩⟩
  · intro a
    rw [Reading.strict_eq_ok_iff]
    -- what a file reads a text reads as well
    exact (Reading.whole_integer_iff.mp (a.read?_hexLiteral digits marked)).1
  · intro a
    rw [Reading.strict_eq_ok_iff, ← Reading.whole_int64]
    exact a.read?_hexLiteral digits marked
  · intro k a left s unread word
    obtain ⟨chars, text, bytes⟩ := a.exists_chars_hexLiteral (m := m) digits
    obtain ⟨f', performed⟩ := unread.perform_read_whole k (word.trans bytes)
    rw [← text, a.read?_hexLiteral digits marked] at performed
    rw [performed]
    exact ⟨rfl, rfl⟩

/-- The least integer of 8 bits in five digits, and the greatest one of 64 bits without a sign in a file. -/
theorem intToHex_read_back_least :
    let least : Whole .shortInt := ⟨0x80⟩
    let greatest : Whole .uInt64 := ⟨-1⟩
    intToHex least 5 = .ofString "00080" ∧
      ((intToHex least 5).size : Int) = max 5 (Nat.log 16 0x80 + 1 : Nat) ∧
      greatest.hexLiteral .smallX (-3) = .ofString "0xFFFFFFFFFFFFFFFF" ∧
      (perform (TextFile.read (.whole .uInt64)) (TextFile.reopened (greatest.hexLiteral .smallX (-3)))).1 =
        some (.scalar (.whole greatest)) := by
  intro least greatest
  have word : ByteStream.wordBytes (greatest.hexLiteral .smallX (-3)).toUtf8 =
      (greatest.hexLiteral .smallX (-3)).toUtf8 := by decide +kernel
  have read := ((intToHex_read_back (-3)).2.2 .smallX nofun).2.2 _ greatest _ _ (TextFile.unread_reopened _) word
  exact ⟨by decide +kernel, ((intToHex_read_back 5).1 _ least).1, by decide +kernel, read.1⟩

end SystemUnit
