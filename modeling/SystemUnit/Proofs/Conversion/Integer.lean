import SystemUnit.Conversion.Reading
import SystemUnit.Proofs.Numeral.Word
import SystemUnit.Proofs.Whole.Range

namespace SystemUnit

/-!
# Integers from texts

A text is read as an integer of 32 or 64 bits if it is a numeral with blanks around it.  A decimal numeral has to be
a number of the kind, and a numeral in base sixteen a bit pattern of it; a minus sign before a pattern negates the
number of the pattern.  To negate the least number is to leave the numbers of the kind by one, and that is where the
two widths part: 32 bits have room for the result and it is cut, and 64 bits have none.

* `Numeral.Word.Fits`, `Numeral.Word.Denotes` — the numerals of a kind, and the integers they stand for;
* `Numeral.Word.NegatesLeast`, `Numeral.Word.valueIn_range` — where the sign of a pattern leaves the kind;
* `Reading.Reads` — a reading told by the numerals that it accepts;
* `Reading.integer_reads`, `Reading.int64_reads_up_to_least` — the readings for 32 and 64 bits;
* `Reading.int64_refuses_negated_least` — a numeral that fits, and that only 64 bits refuse.
-/

namespace Numeral

variable {k : WholeKind} {w : Word} {bits : Nat}

namespace Word

/-! ### Numerals of a kind -/

/-- In decimal a numeral fits a kind if it is a number of the kind, and in base sixteen if its digits are a bit
    pattern of the kind, whatever the sign. -/
def Fits (w : Word) (k : WholeKind) : Prop :=
  if w.mark = .none then k.least ≤ w.signed ∧ w.signed ≤ k.greatest else w.size < k.count

/-- A decimal numeral stands for its number, and one in base sixteen for the integer of the kind that agrees with its
    number modulo the count of the kind. -/
def Denotes (w : Word) (v : Whole k) : Prop :=
  if w.mark = .none then v.toInt = w.signed else v.toInt ≡ w.signed [ZMOD k.count]

/-- A minus sign before the pattern of the least number. -/
def NegatesLeast (w : Word) (k : WholeKind) : Prop :=
  w.mark ≠ .none ∧ w.sign = .minus ∧ w.size = k.count / 2

instance (w : Word) (k : WholeKind) : Decidable (w.Fits k) :=
  inferInstanceAs (Decidable (ite ..))

instance (w : Word) (v : Whole k) : Decidable (w.Denotes v) :=
  inferInstanceAs (Decidable (ite ..))

/-- The limit of a scan for a signed kind admits the numerals that fit the kind. -/
theorem le_limit_iff_fits (signed : k.isSigned = true) :
    w.size ≤ limit k.width w.mark.radix w.sign.isMinus ↔ w.Fits k := by
  have all : Nat.pow 2 k.width = k.count := rfl
  have half : Nat.pow 2 (k.width - 1) = k.count / 2 := k.count_half.symm
  have pos := k.count_pos
  unfold limit Fits
  rw [all, half]
  by_cases unmarked : w.mark = .none
  · rw [if_pos (Mark.radix_eq_ten_iff.mpr unmarked), if_pos unmarked, k.least_of_isSigned signed,
      k.greatest_of_isSigned signed, Word.signed]
    have even := k.count_eq_two_mul_half
    -- the least number has no counterpart above zero, and so the limit is one more behind a minus sign
    cases w.sign.isMinus with
    | true =>
      simp only [if_true]
      omega
    | false =>
      simp only [Bool.false_eq_true, if_false]
      omega
  · rw [if_neg (mt Mark.radix_eq_ten_iff.mp unmarked), if_neg unmarked]
    omega

/-! ### The numbers of numerals -/

/-- The number that is scanned agrees with the digits and the sign. -/
theorem valueIn_modEq (w : Word) (k : WholeKind) : w.valueIn k.width ≡ w.signed [ZMOD k.count] := by
  -- a bit pattern is reduced modulo the count, and a decimal number is not reduced at all
  have agree : interpret k.width w.mark.radix w.size ≡ w.size [ZMOD k.count] := by
    unfold interpret
    split
    · rfl
    · exact Int.bmod_emod
  unfold valueIn signed
  split
  · exact agree.neg
  · exact agree

/-- What is left of the number of a numeral that fits is the integer that it stands for. -/
theorem ofInt_valueIn_eq_iff {v : Whole k} (fits : w.Fits k) :
    Whole.ofInt k (w.valueIn k.width) = v ↔ w.Denotes v := by
  unfold Denotes
  by_cases unmarked : w.mark = .none
  · -- a number of the kind is its own rest
    rw [Fits, if_pos unmarked] at fits
    rw [if_pos unmarked, valueIn_of_unmarked unmarked]
    exact Whole.ofInt_eq_iff_of_range fits.1 fits.2
  · rw [if_neg unmarked, Whole.ofInt_eq_iff]
    exact ⟨fun h => h.trans (w.valueIn_modEq k), fun h => h.trans (w.valueIn_modEq k).symm⟩

/-- The number of a bit pattern with a sign: patterns from the half on are negative. -/
theorem bmod_of_lt {size half : Nat} (lt : size < 2 * half) :
    (size : Int).bmod (2 * half) = if size < half then (size : Int) else size - (2 * half : Nat) := by
  have pattern : (size : Int) % (2 * half : Nat) = size := Int.emod_eq_of_lt (by omega) (by omega)
  rw [Int.bmod_def, pattern]
  split <;> split <;> omega

/-- The number of a numeral that fits a signed kind is one of the kind, or the one behind the greatest; and that is
    the least number, negated. -/
theorem valueIn_range (signed : k.isSigned = true) (fits : w.Fits k) :
    k.least ≤ w.valueIn k.width ∧ w.valueIn k.width ≤ k.greatest + 1 ∧
      (w.valueIn k.width ≤ k.greatest ↔ ¬ w.NegatesLeast k) := by
  unfold NegatesLeast
  unfold Fits at fits
  by_cases unmarked : w.mark = .none
  · rw [if_pos unmarked] at fits
    rw [valueIn_of_unmarked unmarked]
    refine ⟨fits.1, by omega, ?_⟩
    simp only [unmarked, ne_eq, not_true_eq_false, false_and, not_false_eq_true, iff_true]
    exact fits.2
  · rw [if_neg unmarked] at fits
    -- below the half a pattern is its own number, and from there on less by the count
    have even : Nat.pow 2 k.width = 2 * (k.count / 2) := k.count_eq_two_mul_half
    have lt : w.size < 2 * (k.count / 2) := by rwa [← k.count_eq_two_mul_half]
    have pattern : interpret k.width w.mark.radix w.size =
        if w.size < k.count / 2 then (w.size : Int) else w.size - (2 * (k.count / 2) : Nat) := by
      rw [interpret, if_neg (mt Mark.radix_eq_ten_iff.mp unmarked), even]
      exact bmod_of_lt lt
    have minus : w.sign = .minus ↔ w.sign.isMinus = true := by rw [Sign.isMinus, decide_eq_true_eq]
    rw [k.least_of_isSigned signed, k.greatest_of_isSigned signed, valueIn, pattern, minus]
    simp only [ne_eq, unmarked, not_false_eq_true, true_and]
    cases w.sign.isMinus with
    | true =>
      -- only the pattern of the highest bit alone is the least number
      simp only [if_true, true_and]
      split <;> omega
    | false =>
      simp only [Bool.false_eq_true, if_false, false_and, not_false_eq_true, iff_true]
      split <;> omega

end Word

/-- A scan for 64 bits drops the numbers that have no place there. -/
theorem whole?_scan_eq_some_iff {mark : List CodeUnit → Nat × Nat} {units : List CodeUnit} {n : Int} :
    whole? units (scan bits mark units) = some n ↔
      whole? units (scanWide bits mark units) = some n ∧
        WholeKind.int64.least ≤ n ∧ n ≤ WholeKind.int64.greatest := by
  unfold scan
  cases scanWide bits mark units with
  | error n => simp [whole?]
  | ok found =>
    obtain ⟨value, stop⟩ := found
    dsimp only
    split
    · rename_i place
      constructor
      · intro h
        -- the number that is scanned is the one that is read, and so it has a place
        have same : value = n := by
          rw [whole?] at h
          split at h
          · exact Option.some.inj h
          · cases h
        exact ⟨h, same ▸ place⟩
      · exact And.left
    · rename_i noPlace
      constructor
      · intro h
        cases h
      · rintro ⟨h, place⟩
        rw [whole?] at h
        split at h
        · cases h
          exact absurd place noPlace
        · cases h

end Numeral

namespace Reading

open Numeral

variable {α : Type} {k : WholeKind} {s : Text}

/-! ### Readings told by numerals -/

/-- Of a text that has a value a reading gives this value. -/
theorem strict_eq_ok_iff {r : Reading α} {v : α} : r.strict s = .ok v ↔ r.read? s = some v := by
  unfold strict
  cases r.read? s with
  | none => simp
  | some x => simp

/-- A text without a value is an error, which names the form that it was to have. -/
theorem strict_of_read?_eq_none {r : Reading α} (none : r.read? s = none) :
    r.strict s = .error (.malformed r.form s) := by
  rw [strict, none]

/-- A text is read if it is a numeral of a set with blanks around it.  The value is the integer that the numeral
    stands for, and no other text has one. -/
structure Reads (r : Reading (Whole k)) (accepts : Word → Prop) (s : Text) : Prop where
  isOk_iff : (∃ v, r.strict s = .ok v) ↔ ∃ w : Word, w.IsIn s.units ∧ accepts w
  ok_iff : ∀ v, r.strict s = .ok v ↔ ∃ w : Word, w.IsIn s.units ∧ accepts w ∧ w.Denotes v
  refused : (¬ ∃ w : Word, w.IsIn s.units ∧ accepts w) → ∃ fault, r.strict s = .error fault ∧
    fault.kind = .convertError

/-- A reading that cuts the numbers of numerals is told by the numerals, as they fit the kind. -/
theorem reads_of_read?_eq_some_iff {r : Reading (Whole k)} {accepts : Word → Prop}
    (fits : ∀ w, accepts w → w.Fits k)
    (read : ∀ v, r.read? s = some v ↔
      ∃ w : Word, w.IsIn s.units ∧ accepts w ∧ Whole.ofInt k (w.valueIn k.width) = v) : r.Reads accepts s := by
  -- a numeral that is accepted has some number, which can be cut
  have isOk_iff : (∃ v, r.strict s = .ok v) ↔ ∃ w : Word, w.IsIn s.units ∧ accepts w := by
    constructor
    · rintro ⟨v, ok⟩
      obtain ⟨w, isIn, accepted, -⟩ := (read v).mp (strict_eq_ok_iff.mp ok)
      exact ⟨w, isIn, accepted⟩
    · rintro ⟨w, isIn, accepted⟩
      exact ⟨_, strict_eq_ok_iff.mpr ((read _).mpr ⟨w, isIn, accepted, rfl⟩)⟩
  refine ⟨isOk_iff, ?_, ?_⟩
  · intro v
    rw [strict_eq_ok_iff, read]
    constructor
    · rintro ⟨w, isIn, accepted, value⟩
      exact ⟨w, isIn, accepted, (Word.ofInt_valueIn_eq_iff (fits w accepted)).mp value⟩
    · rintro ⟨w, isIn, accepted, value⟩
      exact ⟨w, isIn, accepted, (Word.ofInt_valueIn_eq_iff (fits w accepted)).mpr value⟩
  · intro none
    cases value : r.read? s with
    | none => exact ⟨.malformed r.form s, by rw [strict, value], rfl⟩
    | some v => exact absurd (isOk_iff.mp ⟨v, strict_eq_ok_iff.mpr value⟩) none

/-- The numerals that a scan for a signed kind finds and that have a place in 64 bits. -/
theorem whole?_scan_map_eq_some_iff (signed : k.isSigned = true) {v : Whole k} :
    (whole? s.units (scan k.width radixMark s.units)).map (Whole.ofInt k) = some v ↔
      ∃ w : Word, w.IsIn s.units ∧ (w.Fits k ∧ WholeKind.int64.least ≤ w.valueIn k.width ∧
        w.valueIn k.width ≤ WholeKind.int64.greatest) ∧ Whole.ofInt k (w.valueIn k.width) = v := by
  rw [Option.map_eq_some_iff]
  simp only [whole?_scan_eq_some_iff, whole?_scanWide_eq_some_iff, Word.le_limit_iff_fits signed]
  constructor
  · rintro ⟨n, ⟨⟨w, isIn, fits, rfl⟩, place⟩, cut⟩
    exact ⟨w, isIn, ⟨fits, place⟩, cut⟩
  · rintro ⟨w, isIn, ⟨fits, place⟩, cut⟩
    exact ⟨_, ⟨⟨w, isIn, fits, rfl⟩, place⟩, cut⟩

/-- 64 bits have room for the number of a numeral that fits 32 bits, negated or not. -/
theorem place_of_fits {w : Word} (fits : w.Fits .integer) :
    WholeKind.int64.least ≤ w.valueIn 32 ∧ w.valueIn 32 ≤ WholeKind.int64.greatest := by
  obtain ⟨least, greatest, -⟩ := w.valueIn_range (k := .integer) rfl fits
  exact ⟨Int.le_trans (by decide) least, Int.le_trans greatest (by decide)⟩

/-- The numerals that are read as an integer of 32 bits; their numbers are cut. -/
theorem integer_read?_eq_some_iff {v : Whole .integer} :
    integer.read? s = some v ↔
      ∃ w : Word, w.IsIn s.units ∧ w.Fits .integer ∧ Whole.ofInt .integer (w.valueIn 32) = v := by
  show (whole? s.units (scan WholeKind.integer.width radixMark s.units)).map (Whole.ofInt .integer) = some v ↔ _
  rw [whole?_scan_map_eq_some_iff rfl]
  constructor
  · rintro ⟨w, isIn, ⟨fits, -⟩, cut⟩
    exact ⟨w, isIn, fits, cut⟩
  · rintro ⟨w, isIn, fits, cut⟩
    exact ⟨w, isIn, ⟨fits, place_of_fits fits⟩, cut⟩

/-- **A text is read as an integer of 32 bits if it is a numeral that fits, with blanks around it**: 64 bits have
    room for all numbers of such numerals, negated or not. -/
theorem integer_reads (s : Text) : integer.Reads (·.Fits .integer) s := by
  -- 32 bits refuse no number of a numeral that fits
  apply reads_of_read?_eq_some_iff fun w fits => fits
  intro v
  exact integer_read?_eq_some_iff

/-- A number and a bit pattern, and the least number negated. -/
example : integer.strict (.ofString " -2147483648 ") = .ok ⟨0x80000000⟩ ∧
    integer.strict (.ofString "+0x00fFfFfFfF") = .ok ⟨-1⟩ ∧
    integer.strict (.ofString "-$80000000") = .ok ⟨0x80000000⟩ := by
  decide +kernel

/-- **A text is read as an integer of 64 bits by the same rule, up to the least number negated**: 64 bits have no
    room for that number, and it is not cut. -/
theorem int64_reads_up_to_least (s : Text) :
    int64.Reads (fun w => w.Fits .int64 ∧ ¬ w.NegatesLeast .int64) s := by
  apply reads_of_read?_eq_some_iff fun w accepted => accepted.1
  intro v
  show (whole? s.units (scan WholeKind.int64.width radixMark s.units)).map (Whole.ofInt .int64) = some v ↔ _
  rw [whole?_scan_map_eq_some_iff rfl]
  constructor
  · rintro ⟨w, isIn, ⟨fits, -, greatest⟩, cut⟩
    -- at 64 bits a place is all that the kind itself has
    obtain ⟨-, -, room⟩ := w.valueIn_range (k := .int64) rfl fits
    exact ⟨w, isIn, ⟨fits, room.mp greatest⟩, cut⟩
  · rintro ⟨w, isIn, ⟨fits, notLeast⟩, cut⟩
    obtain ⟨least, -, room⟩ := w.valueIn_range (k := .int64) rfl fits
    exact ⟨w, isIn, ⟨fits, least, room.mpr notLeast⟩, cut⟩

/-- The least number negated is refused for 64 bits, though its digits are a bit pattern.  For 32 bits it is the least
    number again. -/
theorem int64_refuses_negated_least :
    let s := Text.ofString "-$8000000000000000"
    ¬ int64.Reads (·.Fits .int64) s ∧ int64.strict s = .error (.malformed .integer s) ∧
      integer.strict (.ofString "-$80000000") = .ok ⟨0x80000000⟩ := by
  have refused : int64.strict (.ofString "-$8000000000000000") =
      .error (.malformed .integer (.ofString "-$8000000000000000")) := by decide +kernel
  refine ⟨?_, refused, by decide +kernel⟩
  intro reads
  -- the digits alone are a pattern of 64 bits, so that the numeral fits
  let digits := (Text.ofString "8000000000000000").units
  let w : Word := ⟨.minus, .dollar, digits, by decide, List.all_eq_true.mp rfl⟩
  have isIn : w.IsIn (Text.ofString "-$8000000000000000").units := w.isIn_units
  have fits : w.Fits .int64 := by decide
  obtain ⟨v, ok⟩ := reads.isOk_iff.mpr ⟨w, isIn, fits⟩
  rw [refused] at ok
  cases ok

end Reading

end SystemUnit
