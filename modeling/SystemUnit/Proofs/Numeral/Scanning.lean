import SystemUnit.File.TextItem
import SystemUnit.Proofs.Numeral.Written
import SystemUnit.Proofs.Text.Ascii
import SystemUnit.Proofs.Whole.Range

namespace SystemUnit

/-!
# Integers of a kind, read and written

An integer of a kind is read from the numerals of its number.  It is written as such a numeral, an optional minus sign
and digits, and is read back from that, whatever its kind: the limit of the scan for the kind lies behind all its
numbers.

* `Reading.whole_read?_eq_some_iff` — the numerals that are read as an integer of a kind;
* `Whole.natAbs_le_limit` — the numbers of a kind are within its limit;
* `Whole.numeral`, `Whole.parts_flatten`, `Whole.read?_written` — an integer as it is written, and read back.
-/

/-! ### Integers as they are read -/

/-- The numerals that are read as an integer of a kind are those within the limit that have its number. -/
theorem Reading.whole_read?_eq_some_iff {k : WholeKind} {s : Text} {v : Whole k} :
    (Reading.whole k).read? s = some v ↔
      ∃ w : Numeral.Word, w.IsIn s.units ∧
        w.size ≤ Numeral.limit k.numeralWidth w.mark.radix w.sign.isMinus ∧ w.valueIn k.numeralWidth = v.toInt := by
  rw [← Numeral.whole?_scanWide_eq_some_iff]
  unfold Reading.whole
  dsimp only
  cases whole? s.units (Numeral.scanWide k.numeralWidth Numeral.radixMark s.units) with
  | none => simp
  | some n =>
    dsimp only
    split
    · rename_i range
      rw [Option.some.injEq, Option.some.injEq, Whole.ofInt_eq_iff_of_range range.1 range.2]
      exact eq_comm
    · rename_i outside
      constructor
      · intro h
        cases h
      · intro h
        cases h
        -- a number of the kind is never outside of its range
        exact absurd v.toInt_range outside

namespace Whole

variable {k : WholeKind} (a : Whole k)

/-- The limit of a numeral for a kind lies behind the numbers of the kind. -/
theorem natAbs_le_limit : a.toInt.natAbs ≤ Numeral.limit k.numeralWidth 10 (decide (a.toInt < 0)) := by
  obtain ⟨least, greatest⟩ := a.toInt_range
  unfold WholeKind.least at least
  unfold WholeKind.greatest at greatest
  unfold Numeral.limit WholeKind.numeralWidth
  rw [if_pos rfl]
  cases signed : k.isSigned with
  | true =>
    rw [signed, if_pos rfl] at least greatest
    have half : Nat.pow 2 (k.width - 1) = k.count / 2 := k.count_half.symm
    rw [if_pos rfl, half]
    by_cases negative : a.toInt < 0
    · -- behind a minus sign the limit is one more, as the least number needs
      rw [decide_eq_true negative, if_pos rfl]
      omega
    · rw [decide_eq_false negative, if_neg Bool.false_ne_true]
      omega
  | false =>
    rw [signed, if_neg Bool.false_ne_true] at least greatest
    have all : Nat.pow 2 (k.width + 1 - 1) = k.count := rfl
    have nonneg : ¬ a.toInt < 0 := by omega
    rw [if_neg Bool.false_ne_true, all, decide_eq_false nonneg, if_neg Bool.false_ne_true]
    omega

end Whole

/-! ### Integers as they are written -/

namespace Digits

variable {c : Char}

theorem range_of_isDigit (digit : c.isDigit = true) : 0x30 ≤ c.toNat ∧ c.toNat ≤ 0x39 := by
  rw [Char.isDigit, Bool.and_eq_true, decide_eq_true_eq, decide_eq_true_eq, ge_iff_le, UInt32.le_iff_toNat_le,
    UInt32.le_iff_toNat_le] at digit
  exact digit

end Digits

namespace Whole

variable {k : WholeKind} (a : Whole k)

/-- An integer as it is written. -/
theorem parts_flatten : (Scalar.whole a).parts.flatten = Digits.signedDecimal a.toInt := by
  show (if a.toInt < 0 then [['-'], Digits.decimal a.toInt.natAbs]
    else [Digits.decimal a.toInt.natAbs]).flatten = _
  unfold Digits.signedDecimal
  split <;> simp

/-- An integer as a numeral: a sign if it is negative, and decimal digits. -/
def numeral : Numeral.Word where
  sign := if a.toInt < 0 then .minus else .none
  mark := .none
  digits := (Text.ofChars (Digits.decimal a.toInt.natAbs)).units
  digits_ne_nil := (Numeral.Word.ofNat .none .none false 0 a.toInt.natAbs).digits_ne_nil
  isDigit := (Numeral.Word.ofNat .none .none false 0 a.toInt.natAbs).isDigit

/-- The numeral of a number is the text that is written for it. -/
theorem numeral_units : a.numeral.units = (Text.ofChars (Digits.signedDecimal a.toInt)).units := by
  unfold Digits.signedDecimal Numeral.Word.units numeral
  split <;> rfl

/-- Its size is that of the number. -/
theorem numeral_size : a.numeral.size = a.toInt.natAbs :=
  Numeral.Word.size_ofNat .none .none false 0 _

/-- It has a minus if the number is negative. -/
theorem numeral_isMinus : a.numeral.sign.isMinus = decide (a.toInt < 0) := by
  unfold numeral
  by_cases negative : a.toInt < 0
  · simp [negative, Numeral.Sign.isMinus]
  · simp [negative, Numeral.Sign.isMinus]

/-- So it stands for the number. -/
theorem numeral_signed : a.numeral.signed = a.toInt :=
  Numeral.Word.signed_eq_of_natAbs a.numeral_isMinus a.numeral_size

/-- **An integer of a kind is read back from what was written.** -/
theorem read?_written :
    (Reading.whole k).read? (.ofChars (Digits.signedDecimal a.toInt)) = some a := by
  rw [Reading.whole_read?_eq_some_iff, ← numeral_units]
  refine ⟨a.numeral, a.numeral.isIn_units, ?_, ?_⟩
  · rw [numeral_size, numeral_isMinus]
    exact a.natAbs_le_limit
  · rw [Numeral.Word.valueIn_of_unmarked rfl, numeral_signed]

/-- The greatest integer of 64 bits without a sign, and the least one with a sign. -/
example : (Reading.whole .uInt64).read? (.ofChars "18446744073709551615".toList) = some ⟨-1⟩ ∧
    (Reading.whole .int64).read? (.ofChars "-9223372036854775808".toList) = some ⟨0x8000000000000000⟩ := by
  decide +kernel

end Whole

end SystemUnit
