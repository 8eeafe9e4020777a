import SystemUnit.Whole.Basic
import Mathlib.Algebra.Group.Nat.Defs
import Mathlib.Data.Int.ModEq

namespace SystemUnit

/-!
# The numbers of a kind

An integer of a kind stands for a number between the least and the greatest of the kind.  What is cut from another
number is a multiple of the count of these numbers.

* `WholeKind.wrap_modEq`, `WholeKind.wrap_eq_self` — a number that is cut, and one of the kind, from which nothing is;
* `Whole.toInt_range`, `Whole.toInt_ofNat` — an integer stands for a number of its kind, and for that which it was made
  of if it is one;
* `Whole.ofInt_eq_iff`, `Whole.ofInt_eq_iff_of_range` — the integer that is left of a number.
-/

namespace WholeKind

variable {k : WholeKind}

/-- Half of the numbers of a kind. -/
theorem count_half (k : WholeKind) : k.count / 2 = 2 ^ (k.width - 1) := by
  cases k <;> rfl

/-- Their number is even. -/
theorem count_eq_two_mul_half (k : WholeKind) : k.count = 2 * (k.count / 2) := by
  cases k <;> rfl

/-- There are as many numbers as there are from the least to the greatest. -/
theorem count_eq (k : WholeKind) : (k.count : Int) = k.greatest - k.least + 1 := by
  cases k <;> decide

/-- One is a number of every kind. -/
theorem one_le_greatest (k : WholeKind) : 1 ≤ k.greatest := by
  cases k <;> decide

/-- A kind has no negative numbers, or one more of them than positive ones. -/
theorem least_cases (k : WholeKind) : k.least = 0 ∨ k.least = -k.greatest - 1 := by
  cases k <;> decide

/-- With a sign, half of the numbers are negative. -/
theorem least_of_isSigned (signed : k.isSigned = true) : k.least = -(k.count / 2 : Nat) := by
  rw [least, if_pos signed]

/-- So the other half begins at zero. -/
theorem greatest_of_isSigned (signed : k.isSigned = true) : k.greatest = (k.count / 2 : Nat) - 1 := by
  rw [greatest, if_pos signed]

/-- Numbers that agree modulo the count are cut to the same. -/
theorem wrap_eq_of_modEq {m n : Int} (h : m ≡ n [ZMOD k.count]) : k.wrap m = k.wrap n := by
  unfold wrap
  split
  · calc m.bmod k.count
        = (m % k.count).bmod k.count := (Int.emod_bmod m k.count).symm
      _ = (n % k.count).bmod k.count := by rw [h]
      _ = n.bmod k.count := Int.emod_bmod n k.count
  · exact h

/-- A number that is cut agrees with what it is cut to. -/
theorem wrap_modEq (k : WholeKind) (n : Int) : k.wrap n ≡ n [ZMOD k.count] := by
  unfold wrap
  split
  · exact Int.bmod_emod
  · exact Int.mod_modEq n k.count

/-- There is nothing to cut from a number of the kind. -/
theorem wrap_eq_self {n : Int} (least : k.least ≤ n) (greatest : n ≤ k.greatest) : k.wrap n = n := by
  have even := k.count_eq_two_mul_half
  unfold WholeKind.least at least
  unfold WholeKind.greatest at greatest
  unfold wrap
  split
  · rename_i signed
    rw [if_pos signed] at least greatest
    exact Int.bmod_eq_of_le (by omega) (by omega)
  · rename_i unsigned
    rw [if_neg unsigned] at least greatest
    exact Int.emod_eq_of_lt least (by omega)

end WholeKind

namespace Whole

variable {k : WholeKind} {v : Whole k} {n : Int}

/-- The number of a pattern is a number of its kind. -/
theorem toInt_range (a : Whole k) : k.least ≤ a.toInt ∧ a.toInt ≤ k.greatest := by
  unfold toInt WholeKind.least WholeKind.greatest
  -- the bits are read with the sign, or without it
  cases k.isSigned with
  | true =>
    have least := BitVec.le_toInt a.bits
    have lt : a.bits.toInt < 2 ^ (k.width - 1) := BitVec.toInt_lt
    rw [if_pos rfl, if_pos rfl, if_pos rfl, k.count_half]
    push_cast
    omega
  | false =>
    have lt : a.bits.toNat < k.count := a.bits.isLt
    rw [if_neg Bool.false_ne_true, if_neg Bool.false_ne_true, if_neg Bool.false_ne_true]
    omega

/-- An integer is told by its number. -/
theorem toInt_inj {a b : Whole k} : a.toInt = b.toInt ↔ a = b := by
  constructor
  · intro same
    rw [← ofInt_toInt a, same, ofInt_toInt]
  · rintro rfl
    rfl

/-- Without a sign a number is that of its bits. -/
theorem toInt_of_unsigned (unsigned : k.isSigned = false) (a : Whole k) : a.toInt = a.toNat := by
  rw [toInt, unsigned]
  rfl

/-- The number of the bits is below the count. -/
theorem toNat_lt (a : Whole k) : a.toNat < k.count := a.bits.isLt

/-- An integer of a kind is told by any number that agrees with it. -/
theorem ofInt_eq_iff : ofInt k n = v ↔ v.toInt ≡ n [ZMOD k.count] := by
  constructor
  · rintro rfl
    rw [toInt_ofInt]
    exact k.wrap_modEq n
  · intro h
    calc ofInt k n
        = ofInt k (ofInt k n).toInt := (ofInt_toInt _).symm
      _ = ofInt k (ofInt k v.toInt).toInt := by rw [toInt_ofInt, toInt_ofInt, WholeKind.wrap_eq_of_modEq h]
      _ = v := by rw [ofInt_toInt, ofInt_toInt]

/-- A number of the kind is that of one integer. -/
theorem ofInt_eq_iff_of_range (least : k.least ≤ n) (greatest : n ≤ k.greatest) :
    ofInt k n = v ↔ v.toInt = n := by
  constructor
  · rintro rfl
    rw [toInt_ofInt, WholeKind.wrap_eq_self least greatest]
  · rintro rfl
    exact ofInt_toInt v

/-- A natural number of the kind is that of its pattern. -/
theorem toInt_ofNat {n : Nat} (le : (n : Int) ≤ k.greatest) : (ofNat k n).toInt = n := by
  have least : k.least ≤ 0 := by
    unfold WholeKind.least
    split <;> omega
  have bits : ofNat k n = ofInt k n := Whole.ext (BitVec.ofInt_natCast _ n).symm
  rw [bits, toInt_ofInt, WholeKind.wrap_eq_self (by omega) le]

end Whole

end SystemUnit
