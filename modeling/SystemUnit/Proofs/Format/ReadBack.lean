import SystemUnit.Proofs.File.Agreement
import SystemUnit.Proofs.Format.Layout
import SystemUnit.Proofs.Template.Patterns
import SystemUnit.Proofs.Text.Recoding

namespace SystemUnit

/-!
# Integers that are set out and read back

Whatever flags and counts a directive has, an integer that it sets out is a numeral with spaces around it: the spaces of
the field and of the space flag stand outside the numeral, and the zeros of the field before its digits, where they do
not count.  The mark of base sixteen makes the digits of a number a numeral of it, too.  So the integer is read back
from the field, if its digits are decimal or have a mark before them.

* `Directive.mark`, `Directive.IsReadable` — the mark of the numeral, and the directives that set out numerals;
* `Directive.exists_word_of_layout` — the numeral in a field, and its number;
* `Piece.ofPattern_written` — the patterns of one directive;
* `format_integer_read_back` — the layout of an integer, and that it is read back.
-/

open Numeral

/-! ### The numeral in a field -/

namespace Flags

/-- The sign that an integer is read back with. -/
def sign (f : Flags) (n : Int) : Sign := if n < 0 then .minus else if f.plus then .plus else .none

/-- The sign of an integer is that of the numeral; a space in its place is a blank. -/
theorem units_signText (f : Flags) (n : Int) :
    ∃ blanks, (∀ u ∈ blanks, CodeUnit.isBlank u = true) ∧
      (Text.ofChars (f.signText n)).units = blanks ++ (f.sign n).units := by
  unfold signText sign
  by_cases negative : n < 0
  · rw [if_pos negative, if_pos negative]
    exact ⟨[], List.forall_mem_nil _, rfl⟩
  · rw [if_neg negative, if_neg negative]
    -- a plus sign goes before a space
    cases f.plus with
    | true => exact ⟨[], List.forall_mem_nil _, rfl⟩
    | false =>
      cases f.space with
      | true => exact ⟨[0x20], List.all_eq_true.mp rfl, rfl⟩
      | false => exact ⟨[], List.forall_mem_nil _, rfl⟩

/-- The sign of a numeral is minus for negative integers only. -/
theorem isMinus_sign (f : Flags) (n : Int) : (f.sign n).isMinus = decide (n < 0) := by
  unfold sign
  by_cases negative : n < 0
  · simp [negative, Sign.isMinus]
  · cases f.plus <;> simp [negative, Sign.isMinus]

end Flags

/-- Spaces are blanks. -/
theorem isBlank_of_mem_spaces (count : Nat) :
    ∀ u ∈ (Text.ofChars (List.replicate count ' ')).units, CodeUnit.isBlank u = true := by
  intro u mem
  obtain ⟨c, mem_c, mem_u⟩ := List.mem_flatMap.mp mem
  rw [List.eq_of_mem_replicate mem_c] at mem_u
  rw [List.mem_singleton.mp mem_u]
  decide

namespace Directive

/-- The mark that an integer is set out with. -/
def mark (d : Directive) : Mark :=
  match d.conversion with
  | .hex => if d.flags.alternate then .smallX else .none
  | .hexUpper => if d.flags.alternate then .capitalX else .none
  | _ => .none

/-- Whether the digits of an integer are decimal or have a mark before them. -/
def IsReadable (d : Directive) : Prop :=
  d.conversion.isInteger = true ∧ (d.conversion.isDecimal = true ∨ d.flags.alternate = true)

variable {d : Directive}

/-- Decimal digits have no mark. -/
theorem mark_of_isDecimal (decimal : d.conversion.isDecimal = true) : d.mark = .none := by
  unfold mark
  cases conversion : d.conversion <;> simp_all [Conversion.isDecimal]

/-- Mark and digits as they are set out are mark and digits of a numeral, in capital letters or in small ones. -/
theorem exists_case_of_isReadable (readable : d.IsReadable) :
    ∃ upper, ∀ zeros size, Text.ofChars (d.markText ++ (List.replicate zeros '0' ++ d.conversion.sizeText size)) =
      ⟨d.mark.units⟩ ++ Text.ofChars (Digits.padded d.mark.radix upper zeros size) := by
  obtain ⟨integer, marked⟩ := readable
  unfold markText mark
  cases conversion : d.conversion with
  | signed | unsigned =>
    -- decimal digits have no letters, and so either case would do
    refine ⟨false, fun zeros size => ?_⟩
    rw [Text.ofChars_append]
    cases d.flags.alternate <;> rfl
  | hex | hexUpper =>
    rw [conversion] at marked
    rw [marked.resolve_left Bool.false_ne_true]
    first
    | exact ⟨false, fun zeros size => Text.ofChars_append _ _⟩
    | exact ⟨true, fun zeros size => Text.ofChars_append _ _⟩
  | _ =>
    rw [conversion] at integer
    cases integer

/-- **An integer in its field is a numeral of it, with blanks around it.** -/
theorem exists_word_of_layout (readable : d.IsReadable) (n : Int) :
    ∃ w : Word, w.IsIn (Text.ofChars (d.layout n)).units ∧ w.mark = d.mark ∧
      w.sign.isMinus = decide (n < 0) ∧ w.size = n.natAbs := by
  obtain ⟨upper, marked⟩ := exists_case_of_isReadable readable
  obtain ⟨before, zeros, after, filled⟩ :=
    setOut_eq_filled d (d.flags.signText n) d.markText (d.conversion.sizeText n.natAbs)
  obtain ⟨space, blank, signed⟩ := d.flags.units_signText n
  -- the zeros of the field are taken to the digits
  refine ⟨Word.ofNat (d.flags.sign n) d.mark upper zeros n.natAbs, ?_, rfl, d.flags.isMinus_sign n, Word.size_ofNat ..⟩
  refine ⟨(Text.ofChars (List.replicate before ' ')).units ++ space, (Text.ofChars (List.replicate after ' ')).units,
    ?_, isBlank_of_mem_spaces after, ?_⟩
  · intro u mem
    rcases List.mem_append.mp mem with field | flag
    · exact isBlank_of_mem_spaces before u field
    · exact blank u flag
  · -- a space in place of a sign belongs to the blanks before the numeral
    rw [layout, filled, Text.ofChars_append, Text.ofChars_append, Text.ofChars_append, marked]
    simp only [Text.units_append, signed, Word.units, Word.ofNat, List.append_assoc]

end Directive

/-! ### Integers that are read back -/

variable {d : Directive} {w : Word}

namespace Reading

/-- A numeral of an integer of 32 bits is read as it, in either radix. -/
theorem integer_strict_of_word {t : Text} {a : Whole .integer} (isIn : w.IsIn t.units)
    (sign : w.sign.isMinus = decide (a.toInt < 0)) (size : w.size = a.toInt.natAbs) :
    integer.strict t = .ok a := by
  have signed : w.signed = a.toInt := Word.signed_eq_of_natAbs sign size
  obtain ⟨least, greatest⟩ := a.toInt_range
  -- a decimal number is one of the kind, and the size of any integer of the kind is a pattern
  have fits : w.Fits .integer := by
    unfold Word.Fits
    by_cases unmarked : w.mark = .none
    · rw [if_pos unmarked, signed]
      exact ⟨least, greatest⟩
    · rw [if_neg unmarked, size]
      have : WholeKind.integer.least = -0x80000000 := by decide
      have : WholeKind.integer.greatest = 0x7FFFFFFF := by decide
      have : WholeKind.integer.count = 0x100000000 := by decide
      omega
  have denotes : w.Denotes a := by
    unfold Word.Denotes
    rw [signed]
    split
    · rfl
    · exact Int.ModEq.refl _
  rw [strict_eq_ok_iff, integer_read?_eq_some_iff]
  exact ⟨w, isIn, fits, (Word.ofInt_valueIn_eq_iff fits).mpr denotes⟩

/-- A decimal numeral of an integer of 64 bits is read as it. -/
theorem int64_strict_of_word {t : Text} {a : Whole .int64} (isIn : w.IsIn t.units) (unmarked : w.mark = .none)
    (sign : w.sign.isMinus = decide (a.toInt < 0)) (size : w.size = a.toInt.natAbs) :
    int64.strict t = .ok a := by
  rw [strict_eq_ok_iff, ← whole_int64, whole_read?_eq_some_iff]
  refine ⟨w, isIn, ?_, ?_⟩
  · rw [size, sign, unmarked]
    exact a.natAbs_le_limit
  · rw [Word.valueIn_of_unmarked unmarked]
    exact Word.signed_eq_of_natAbs sign size

end Reading

/-- A written directive alone is a pattern of it. -/
theorem Piece.ofPattern_written (w : WrittenDirective) :
    Piece.ofPattern (Text.ofChars ('%' :: w.text)).codePoints = [.directive w.directive] := by
  have items := Piece.ofPattern_items [.directive w]
  rw [Text.codePoints_ofChars]
  simpa [Item.text, Item.piece, Piece.merge] using items

/-- **Integers are set out by their directives, and read back.**  In a pattern of one directive, an integer of any kind
    is its body in a field: filled up with spaces behind it, with zeros before the digits or with spaces before it, and
    never cut.  At 32 bits it is read back from decimal digits and from marked ones, and at 64 bits from decimal digits,
    whatever flags and counts there are. -/
theorem format_integer_read_back {pattern : Text} (only : Piece.ofPattern pattern.codePoints = [.directive d])
    (integer : d.conversion.isInteger = true) (within : d.fieldWidth ≤ 32767) :
    (∀ (k : WholeKind) (a : Whole k), format pattern [.scalar (.whole a)] = .ok (.ofChars (d.layout a.toInt)) ∧
      (d.layout a.toInt).length = max d.fieldWidth (d.body a.toInt).length) ∧
    (d.conversion.isDecimal = true ∨ d.flags.alternate = true → ∀ a : Whole .integer,
      format pattern [.scalar (.whole a)] >>= Reading.integer.strict = .ok a) ∧
    (d.conversion.isDecimal = true → ∀ a : Whole .int64,
      format pattern [.scalar (.whole a)] >>= Reading.int64.strict = .ok a) := by
  refine ⟨?_, ?_, ?_⟩
  · intro k a
    exact ⟨format_integer only integer within a, Directive.length_setOut⟩
  · intro readable a
    obtain ⟨w, isIn, -, sign, size⟩ := Directive.exists_word_of_layout ⟨integer, readable⟩ a.toInt
    simp only [format_integer only integer within a, bind, Except.bind]
    exact Reading.integer_strict_of_word isIn sign size
  · intro decimal a
    obtain ⟨w, isIn, mark, sign, size⟩ := Directive.exists_word_of_layout ⟨integer, .inl decimal⟩ a.toInt
    simp only [format_integer only integer within a, bind, Except.bind]
    exact Reading.int64_strict_of_word isIn (mark.trans (Directive.mark_of_isDecimal decimal)) sign size

/-- The least integers: in base sixteen with zeros behind the mark, and in decimal at the left. -/
theorem format_integer_read_back_least :
    let hex : WrittenDirective := ⟨['#', '0'], some 14, none, .hexUpper, 'X', by simp [flagChars], by decide, by decide⟩
    let decimal : WrittenDirective :=
      ⟨[' ', '-'], some 24, none, .signed, 'd', by simp [flagChars], by decide, by decide⟩
    let least : Whole .integer := ⟨0x80000000⟩
    let least64 : Whole .int64 := ⟨0x8000000000000000⟩
    let formatted := format (.ofChars ('%' :: hex.text)) [.scalar (.whole least)]
    let formatted64 := format (.ofChars ('%' :: decimal.text)) [.scalar (.whole least64)]
    formatted = .ok (.ofString "-0X00080000000") ∧ formatted >>= Reading.integer.strict = .ok least ∧
      formatted64 = .ok (.ofString "-9223372036854775808    ") ∧
      formatted64 >>= Reading.int64.strict = .ok least64 := by
  intro hex decimal least least64 formatted formatted64
  have ofHex := format_integer_read_back (Piece.ofPattern_written hex) rfl (by decide)
  have ofDecimal := format_integer_read_back (Piece.ofPattern_written decimal) rfl (by decide)
  have layout : Text.ofChars (hex.directive.layout least.toInt) = .ofString "-0X00080000000" := by decide +kernel
  have layout64 : Text.ofChars (decimal.directive.layout least64.toInt) = .ofString "-9223372036854775808    " := by
    decide +kernel
  refine ⟨?_, ofHex.2.1 (.inr rfl) least, ?_, ofDecimal.2.2 rfl least64⟩
  · rw [← layout]
    exact (ofHex.1 _ least).1
  · rw [← layout64]
    exact (ofDecimal.1 _ least64).1

end SystemUnit
