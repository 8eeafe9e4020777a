import Mathlib.Data.Rat.Floor
import Mathlib.Tactic.Linarith
import SystemUnit.Arithmetic
import SystemUnit.Proofs.Whole.Range

namespace SystemUnit

/-!
# Arithmetic of integers of a kind

Sums, differences and products are those of the numbers, cut to the width of the kind.  A quotient is cut only if it is
that of the least number by -1: any other one, and every remainder, is a number of the kind.

* `Whole.ofInt_add`, `Whole.ofInt_sub`, `Whole.ofInt_mul` — sums, differences and products of what is cut;
* `truncated`, `truncated_div` — a rational number without what is behind its point, and truncating division;
* `Whole.toInt_quotient`, `Whole.toInt_remainder` — what a quotient and a remainder stand for;
* `Whole.div_mod_law` — quotient and remainder of any two integers.
-/

namespace Whole

variable {k : WholeKind} (m n : Int)

/-! ### Sums, differences and products -/

/-- What is left of a sum is the sum of what is left. -/
theorem ofInt_add : ofInt k (m + n) = ofInt k m + ofInt k n :=
  congrArg Whole.mk (BitVec.ofInt_add m n)

/-- So with a difference. -/
theorem ofInt_sub : ofInt k (m - n) = ofInt k m - ofInt k n := by
  ext1
  show BitVec.ofInt k.width (m - n) = BitVec.ofInt k.width m - BitVec.ofInt k.width n
  rw [Int.sub_eq_add_neg, BitVec.ofInt_add, BitVec.ofInt_neg, ← BitVec.sub_eq_add_neg]

/-- So with a product. -/
theorem ofInt_mul : ofInt k (m * n) = ofInt k m * ofInt k n :=
  congrArg Whole.mk (BitVec.ofInt_mul m n)

end Whole

/-! ### Truncation -/

/-- A number without what is behind its point: the next integer toward zero. -/
def truncated (x : ℚ) : Int :=
  if 0 ≤ x then ⌊x⌋ else ⌈x⌉

/-- Numbers are cut towards zero on either side of it. -/
theorem truncated_neg (x : ℚ) : truncated (-x) = -truncated x := by
  unfold truncated
  rcases lt_trichotomy x 0 with neg | rfl | pos
  · rw [if_pos (by linarith), if_neg (by linarith), Int.floor_neg]
  · simp
  · rw [if_neg (by linarith), if_pos pos.le, Int.ceil_neg]

/-- Truncating division truncates the fraction. -/
theorem truncated_div (m n : Int) : truncated (m / n) = m.tdiv n := by
  -- of numbers that are not negative the floor is taken, and both sides change their sign with the operands
  have nat (m n : Nat) : truncated ((m : Int) / (n : Int) : ℚ) = (m : Int).tdiv n := by
    rw [truncated, if_pos (by positivity), Int.cast_natCast n, Rat.floor_intCast_div_natCast]
    rfl
  obtain ⟨m, rfl | rfl⟩ := m.eq_nat_or_neg <;> obtain ⟨n, rfl | rfl⟩ := n.eq_nat_or_neg
  · exact nat m n
  · rw [Int.cast_neg, div_neg, truncated_neg, nat, Int.tdiv_neg]
  · rw [Int.cast_neg, neg_div, truncated_neg, nat, Int.neg_tdiv]
  · rw [Int.cast_neg, Int.cast_neg, neg_div_neg_eq, nat, Int.tdiv_neg, Int.neg_tdiv, neg_neg]

namespace Whole

variable {k : WholeKind} (a b : Whole k)

/-! ### Quotients and remainders -/

/-- A remainder is between zero and the dividend, so there is nothing to cut from it. -/
theorem toInt_remainder : (a.remainder b).toInt = a.toInt.tmod b.toInt := by
  have range := a.toInt_range
  have least := k.least_cases
  have greatest := k.one_le_greatest
  -- a remainder is no further from zero than the dividend, and on its side, so that nothing is cut
  have near : (a.toInt.tmod b.toInt).natAbs ≤ a.toInt.natAbs := by
    rw [Int.natAbs_tmod]
    exact Nat.mod_le _ _
  have sign : 0 ≤ a.toInt → 0 ≤ a.toInt.tmod b.toInt := Int.tmod_nonneg b.toInt
  have sign' : 0 ≤ -a.toInt → 0 ≤ (-a.toInt).tmod b.toInt := Int.tmod_nonneg b.toInt
  rw [Int.neg_tmod] at sign'
  rw [remainder, toInt_ofInt]
  exact WholeKind.wrap_eq_self (by omega) (by omega)

/-- Only the quotient of the least number by -1 does not fit. -/
theorem toInt_quotient (fits : ¬ (a.toInt = k.least ∧ b.toInt = -1)) :
    (a.quotient b).toInt = a.toInt.tdiv b.toInt := by
  obtain ⟨above, below⟩ := a.toInt_range
  have least_le := b.toInt_range.1
  have least := k.least_cases
  have greatest := k.one_le_greatest
  rw [quotient, toInt_ofInt]
  by_cases unit : b.toInt.natAbs = 1
  · rcases Int.natAbs_eq_iff.mp unit with one | minus
    · rw [one, Int.natCast_one, Int.tdiv_one]
      exact WholeKind.wrap_eq_self above below
    · rw [minus, Int.natCast_one, Int.tdiv_neg, Int.tdiv_one]
      exact WholeKind.wrap_eq_self (by omega) (by omega)
  · -- any other divisor halves the dividend at least
    have near : (a.toInt.tdiv b.toInt).natAbs ≤ a.toInt.natAbs / 2 := by
      rw [Int.natAbs_tdiv]
      show a.toInt.natAbs / b.toInt.natAbs ≤ _
      rcases Nat.eq_zero_or_pos b.toInt.natAbs with zero | pos
      · rw [zero, Nat.div_zero]
        exact Nat.zero_le _
      · exact Nat.div_le_div_left (by omega) (by decide)
    have sign : 0 ≤ a.toInt → 0 ≤ b.toInt → 0 ≤ a.toInt.tdiv b.toInt := Int.tdiv_nonneg
    exact WholeKind.wrap_eq_self (by omega) (by omega)

/-- The quotient of the least number by -1 is cut to the least number. -/
theorem quotient_least (least : a.toInt = k.least) (minus : b.toInt = -1) : (a.quotient b).toInt = k.least := by
  -- there is a -1, so the least number is minus half of the count, and the same as half of it once it is cut
  have half : (k.count : Int) = -2 * k.least := by
    have count := k.count_eq
    have cases := k.least_cases
    have range := b.toInt_range
    omega
  have same : -k.least ≡ k.least [ZMOD k.count] := Int.modEq_iff_dvd.mpr ⟨-1, by omega⟩
  have range := a.toInt_range
  rw [quotient, toInt_ofInt, least, minus, Int.tdiv_neg, Int.tdiv_one, WholeKind.wrap_eq_of_modEq same]
  exact WholeKind.wrap_eq_self (by omega) (by omega)

/-- What is lost when a quotient is cut is lost from the product, too. -/
theorem quotient_mul_add_remainder : a.quotient b * b + a.remainder b = a :=
  calc a.quotient b * b + a.remainder b
      = ofInt k (a.toInt.tdiv b.toInt * b.toInt + a.toInt.tmod b.toInt) := by
        rw [ofInt_add, ofInt_mul, ofInt_toInt, quotient, remainder]
    _ = ofInt k a.toInt := by rw [Int.tdiv_mul_add_tmod]
    _ = a := ofInt_toInt a

/-- **Quotient and remainder of integers of a kind.**  A divisor of zero is a fault.  Any other one has a quotient and a
    remainder.  The remainder is nearer to zero than the divisor and has the sign of the dividend, unless it is zero; the
    quotient is the fraction without what is behind its point, and together they make up the dividend.  That holds of
    the numbers, but for the least one divided by -1, which is its own quotient; it holds of the integers always. -/
theorem div_mod_law (k : WholeKind) (a b : Whole k) :
    (b.toInt = 0 → a.div b = .error .divisionByZero ∧ a.mod b = .error .divisionByZero ∧
      Fault.divisionByZero.kind = .divByZero) ∧
    (b.toInt ≠ 0 → ∃ q r, a.div b = .ok q ∧ a.mod b = .ok r ∧ q * b + r = a ∧
      |r.toInt| < |b.toInt| ∧ (r.toInt = 0 ∨ r.toInt.sign = a.toInt.sign) ∧
      if a.toInt = k.least ∧ b.toInt = -1 then q.toInt = k.least ∧ r.toInt = 0
      else a.toInt = q.toInt * b.toInt + r.toInt ∧ q.toInt = truncated (a.toInt / b.toInt)) := by
  refine ⟨fun zero => ⟨if_pos zero, if_pos zero, rfl⟩, fun ne =>
    ⟨a.quotient b, a.remainder b, if_neg ne, if_neg ne, a.quotient_mul_add_remainder b, ?_, ?_, ?_⟩⟩
  · rw [toInt_remainder, Int.abs_eq_natAbs, Int.abs_eq_natAbs, Int.natAbs_tmod]
    exact Int.ofNat_lt.mpr (Nat.mod_lt _ (Int.natAbs_pos.mpr ne))
  · rw [toInt_remainder, Int.sign_tmod]
    split
    · rename_i dvd
      exact .inl (Int.tmod_eq_zero_of_dvd dvd)
    · exact .inr rfl
  · -- only the quotient of the least number by minus one is cut
    split
    · rename_i least
      rw [toInt_remainder, least.2, a.quotient_least b least.1 least.2]
      exact ⟨rfl, Int.tmod_eq_zero_of_dvd (by simp)⟩
    · rename_i fits
      rw [a.toInt_quotient b fits, toInt_remainder, truncated_div, Int.tdiv_mul_add_tmod]
      exact ⟨rfl, rfl⟩

/-- The least integer of 64 bits by -1 is itself and leaves nothing, minus seven by two is minus three and leaves minus
    one, and nothing is divided by zero. -/
theorem div_mod_law_least :
    let least : Whole .int64 := ⟨0x8000000000000000⟩
    let minus : Whole .int64 := ⟨-1⟩
    let seven : Whole .int64 := ⟨-7⟩
    minus.toInt ≠ 0 ∧
      (∃ q r, least.div minus = .ok q ∧ least.mod minus = .ok r ∧ q.toInt = -9223372036854775808 ∧ r.toInt = 0) ∧
      (∃ q r, seven.div ⟨2⟩ = .ok q ∧ seven.mod ⟨2⟩ = .ok r ∧ -7 = q.toInt * 2 + r.toInt ∧
        q.toInt = truncated (-7 / 2) ∧ r.toInt.sign = -1) ∧
      least.div ⟨0⟩ = .error .divisionByZero := by
  intro least minus seven
  have ne : minus.toInt ≠ 0 := by decide
  obtain ⟨q, r, div, mod, -, -, -, value⟩ := (div_mod_law .int64 least minus).2 ne
  rw [if_pos (by decide)] at value
  obtain ⟨q', r', div', mod', -, -, sign, value'⟩ := (div_mod_law .int64 seven ⟨2⟩).2 (by decide)
  have minus_seven : seven.toInt = -7 := by decide
  have two : (⟨2⟩ : Whole .int64).toInt = 2 := by decide
  rw [if_neg (by decide), minus_seven, two] at value'
  rw [minus_seven] at sign
  -- the dividend is odd, so that there is a remainder
  have odd : r'.toInt ≠ 0 := by omega
  refine ⟨ne, ⟨q, r, div, mod, value⟩, ⟨q', r', div', mod', value'.1, ?_, sign.resolve_left odd⟩,
    ((div_mod_law .int64 least ⟨0⟩).1 (by decide)).1⟩
  rw [value'.2]
  norm_num

end Whole

end SystemUnit
