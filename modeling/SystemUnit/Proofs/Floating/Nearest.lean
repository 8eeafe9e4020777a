import SystemUnit.Proofs.Floating.Pattern
import Mathlib.Tactic.GCongr

namespace SystemUnit

/-!
# The number nearest to a size

A number is a sign and a pattern, and its size, told by its mantissa and its exponent, is that of the pattern.  So a
size has one nearest number of each sign.  The number that is made of a decimal is the nearest one, also where the power
of ten is not computed.

* `Floating.size?`, `Floating.IsNearest` — the size of a number, and the number nearest to a size among all numbers;
* `Floating.size?_eq`, `Floating.eq_ofSign_iff` — a number as a sign and a pattern;
* `Floating.isNearest_iff_eq` — a size has one nearest number of each sign;
* `Floating.isNearest_of_large`, `Floating.isNearest_of_small` — powers of ten that are not computed;
* `Floating.eq_ofDecimal_iff` — the number nearest to a decimal.
-/

/-! ### Numbers and their sizes -/

namespace FloatingKind

/-- The patterns without a sign: a mantissa for each exponent. -/
theorem signWeight_eq (k : FloatingKind) : k.signWeight = k.exponentCount * k.leadingOne := by
  cases k <;> decide

/-- The sign is the bit of the greatest weight. -/
theorem two_pow_width (k : FloatingKind) : 2 ^ k.width = 2 * k.signWeight := by
  cases k <;> decide

/-- There are exponents between the least and the greatest. -/
theorem two_lt_exponentCount (k : FloatingKind) : 2 < k.exponentCount := by
  cases k <;> decide

/-- Infinity has a pattern without a sign. -/
theorem infinity_lt (k : FloatingKind) : k.infinity < k.signWeight := by
  cases k <;> decide

/-- Infinity stands for the power of two behind the greatest finite number. -/
theorem sizeOf_infinity (k : FloatingKind) : k.sizeOf k.infinity = 2 ^ (k.exponentCount / 2) := by
  have pattern : k.infinity = (k.exponentCount - 2) * k.leadingOne + k.leadingOne := by cases k <;> decide
  have exponent : (k.precision : Int) + (k.leastExponent + (k.exponentCount - 2 : Nat)) =
      (k.exponentCount / 2 + 1 : Nat) := by cases k <;> decide
  have doubled : 2 * k.sizeOf k.infinity = 2 * 2 ^ (k.exponentCount / 2) := by
    rw [pattern, sizeOf_add (by omega) (.inl le_rfl), ← mul_assoc, Floating.two_mul_leadingOne,
      ← zpow_add₀ two_ne_zero, exponent, zpow_natCast, pow_succ']
  exact mul_left_cancel₀ two_ne_zero doubled

end FloatingKind

namespace Floating

variable {k : FloatingKind} {a b : Floating k} {negative : Bool} {p : Nat} {x : ℚ}

/-- The size of a number, which infinity has too: as a size it is the power of two behind the greatest finite one. -/
def size? (a : Floating k) : Option ℚ :=
  match a.magnitude with
  | .finite m e => some (m * 2 ^ e)
  | .infinite => some (2 ^ (k.exponentCount / 2))
  | .notANumber => none

/-- The number nearest to a size, with a sign, among all numbers of the kind: another is farther from it, or as far if
    the last place of the mantissa is even. -/
structure IsNearest (a : Floating k) (negative : Bool) (x : ℚ) : Prop where
  sign : a.isNegative = negative
  size : ∃ r, a.size? = some r ∧ ∀ (b : Floating k) (s : ℚ), b.size? = some s → s ≠ r →
    |x - r| < |x - s| ∨ |x - r| = |x - s| ∧ a.mantissaField % 2 = 0

/-- The bits without the sign. -/
def pattern (a : Floating k) : Nat := a.bits.toNat % k.signWeight

/-- The exponent is the high part of the pattern. -/
theorem exponentField_eq (a : Floating k) : a.exponentField = a.pattern / k.leadingOne := by
  rw [pattern, k.signWeight_eq, Nat.mod_mul_left_div_self]
  rfl

/-- The mantissa is the low part of the pattern. -/
theorem mantissaField_eq (a : Floating k) : a.mantissaField = a.pattern % k.leadingOne := by
  rw [pattern, k.signWeight_eq, Nat.mod_mul_left_mod]
  rfl

/-- A pattern has no bit for the sign. -/
theorem pattern_lt (a : Floating k) : a.pattern < k.exponentCount * k.leadingOne := by
  have pos := Nat.lt_of_le_of_lt (Nat.zero_le _) k.infinity_lt
  rw [← k.signWeight_eq]
  exact Nat.mod_lt _ pos

/-- The size of a number is that of its pattern. -/
theorem size?_eq (a : Floating k) : a.size? = if a.pattern ≤ k.infinity then some (k.sizeOf a.pattern) else none := by
  have lt : a.mantissaField < k.leadingOne := Nat.mod_lt _ k.leadingOne_pos
  have field : a.exponentField < k.exponentCount := by
    rw [exponentField_eq]
    exact Nat.div_lt_of_lt_mul (Nat.mul_comm _ _ ▸ a.pattern_lt)
  have parts : a.pattern = a.exponentField * k.leadingOne + a.mantissaField := by
    rw [exponentField_eq, mantissaField_eq, Nat.div_add_mod']
  have count := k.two_lt_exponentCount
  have infinity : k.infinity = (k.exponentCount - 1) * k.leadingOne := rfl
  unfold size? magnitude
  rw [parts]
  dsimp only
  by_cases zero : a.exponentField = 0
  · have le : k.leadingOne ≤ (k.exponentCount - 1) * k.leadingOne := Nat.le_mul_of_pos_left _ (by omega)
    have size := FloatingKind.sizeOf_add (k := k) (r := a.mantissaField) (j := 0) (by omega) (.inr rfl)
    rw [if_pos zero, zero, if_pos (by omega), size]
    simp
  · rw [if_neg zero]
    by_cases last : a.exponentField = k.exponentCount - 1
    · rw [if_pos last, last, ← infinity]
      by_cases none : a.mantissaField = 0
      · rw [if_pos none, none, Nat.add_zero, if_pos le_rfl, k.sizeOf_infinity]
      · rw [if_neg none, if_neg (by omega)]
    · -- the field of the exponent is one more than the exponent, as if the leading one were added to it
      obtain ⟨j, next⟩ := Nat.exists_eq_succ_of_ne_zero zero
      have size := FloatingKind.sizeOf_add (k := k) (r := k.leadingOne + a.mantissaField) (j := j) (by omega)
        (.inl (by omega))
      have le : (j + 1 + 1) * k.leadingOne ≤ (k.exponentCount - 1) * k.leadingOne :=
        Nat.mul_le_mul_right _ (by omega)
      have split : (j + 1 + 1) * k.leadingOne = (j + 1) * k.leadingOne + k.leadingOne := Nat.succ_mul _ _
      have regroup : (j + 1) * k.leadingOne + a.mantissaField =
          j * k.leadingOne + (k.leadingOne + a.mantissaField) := by ring
      rw [if_neg last, next, Nat.succ_eq_add_one, if_pos (by omega), regroup, size]
      push_cast
      rw [add_sub_cancel_right]

/-- A number is negative if it has the bit of the sign. -/
theorem isNegative_eq (a : Floating k) : a.isNegative = decide (k.signWeight ≤ a.bits.toNat) :=
  BitVec.msb_eq_decide a.bits

/-- The bits of a number are its sign and its pattern. -/
theorem toNat_bits (a : Floating k) : a.bits.toNat = (if a.isNegative then k.signWeight else 0) + a.pattern := by
  have lt : a.bits.toNat < 2 * k.signWeight := k.two_pow_width ▸ a.bits.isLt
  rw [isNegative_eq, pattern]
  by_cases negative : k.signWeight ≤ a.bits.toNat
  · rw [decide_eq_true negative, if_pos rfl, Nat.mod_eq_sub_mod negative, Nat.mod_eq_of_lt (by omega)]
    omega
  · rw [decide_eq_false negative, if_neg Bool.false_ne_true, Nat.mod_eq_of_lt (by omega), Nat.zero_add]

/-- A number with its sign and its pattern. -/
theorem ofSign_spec (negative : Bool) (lt : p < k.signWeight) :
    (ofSign k negative p).isNegative = negative ∧ (ofSign k negative p).pattern = p := by
  have bits : (ofSign k negative p).bits.toNat = (if negative then k.signWeight else 0) + p := by
    refine (BitVec.toNat_ofNat _ _).trans (Nat.mod_eq_of_lt ?_)
    rw [k.two_pow_width]
    split <;> omega
  rw [isNegative_eq, pattern, bits]
  cases negative with
  | true => simp [Nat.mod_eq_of_lt lt]
  | false => simp [Nat.mod_eq_of_lt lt, lt]

/-- A number is its sign and its pattern. -/
theorem eq_ofSign_iff (lt : p < k.signWeight) : a = ofSign k negative p ↔ a.isNegative = negative ∧ a.pattern = p := by
  constructor
  · rintro rfl
    exact ofSign_spec negative lt
  · rintro ⟨rfl, rfl⟩
    have same := ofSign_spec a.isNegative lt
    ext1
    rw [← BitVec.toNat_inj, toNat_bits, toNat_bits (ofSign _ _ _), same.1, same.2]

/-! ### The nearest number -/

/-- A number is nearest to a size as its pattern is. -/
theorem isNearest_iff : a.IsNearest negative x ↔ a.isNegative = negative ∧ k.IsNearest x a.pattern := by
  -- of two patterns side by side the one that is even has an even mantissa
  have even : a.mantissaField % 2 = a.pattern % 2 := by
    rw [mantissaField_eq, Nat.mod_mod_of_dvd _ k.two_dvd_leadingOne]
  have injective := k.sizeOf_strictMono.injective
  constructor
  · rintro ⟨sign, r, size, nearest⟩
    rw [size?_eq] at size
    split at size
    · rename_i le
      cases size
      refine ⟨sign, le, fun q le_q ne => ?_⟩
      -- a pattern is the size of a number, and of no other of that sign
      have sizeQ : (ofSign k false q).size? = some (k.sizeOf q) := by
        rw [size?_eq, (ofSign_spec false (Nat.lt_of_le_of_lt le_q k.infinity_lt)).2, if_pos le_q]
      rw [← even]
      exact nearest _ _ sizeQ fun same => ne (injective same)
    · cases size
  · rintro ⟨sign, nearest⟩
    refine ⟨sign, k.sizeOf a.pattern, by rw [size?_eq, if_pos nearest.le], fun b s size ne => ?_⟩
    rw [size?_eq] at size
    split at size
    · rename_i le
      cases size
      rw [even]
      exact nearest.nearest _ le fun same => ne (by rw [same])
    · cases size

/-- A size has one nearest number of each sign. -/
theorem isNearest_iff_eq (nearest : k.IsNearest x p) : a.IsNearest negative x ↔ a = ofSign k negative p := by
  rw [isNearest_iff, eq_ofSign_iff (Nat.lt_of_le_of_lt nearest.le k.infinity_lt)]
  constructor
  · rintro ⟨sign, here⟩
    exact ⟨sign, here.unique nearest⟩
  · rintro ⟨sign, same⟩
    exact ⟨sign, same ▸ nearest⟩

/-! ### Decimals -/

variable {digits : Nat} {exponent : Int}

/-- With a great power of ten a decimal is not below infinity. -/
theorem isNearest_of_large (k : FloatingKind) (pos : digits ≠ 0) (large : 400 < exponent) :
    k.IsNearest (digits * 10 ^ exponent) k.infinity := by
  apply FloatingKind.isNearest_infinity
  have count : k.exponentCount / 2 ≤ 1024 := by cases k <;> decide
  have one : (1 : ℚ) ≤ digits := by exact_mod_cast Nat.pos_of_ne_zero pos
  rw [k.sizeOf_infinity]
  calc (2 : ℚ) ^ (k.exponentCount / 2) ≤ 2 ^ (3 * 400) := pow_le_pow_right₀ one_le_two (by omega)
    _ = (2 ^ 3) ^ 400 := pow_mul 2 3 400
    _ ≤ 10 ^ 400 := pow_le_pow_left₀ (by norm_num) (by norm_num) 400
    _ = 10 ^ (400 : Int) := (zpow_natCast 10 400).symm
    _ ≤ 10 ^ exponent := zpow_le_zpow_right₀ (by norm_num) large.le
    _ ≤ digits * 10 ^ exponent := le_mul_of_one_le_left (by positivity) one

/-- With a small power of ten a decimal is not half of the least size. -/
theorem isNearest_of_small (k : FloatingKind) (small : 3 * exponent + (digits.log2 : Int) < -1200) :
    k.IsNearest (digits * 10 ^ exponent) 0 := by
  apply FloatingKind.isNearest_zero (by positivity)
  have least : -1199 ≤ k.leastExponent := by cases k <;> decide
  have lt : (digits : ℚ) < 2 ^ ((digits.log2 : Int) + 1) := by
    exact_mod_cast Nat.lt_log2_self (n := digits)
  obtain ⟨n, rfl⟩ : ∃ n : Nat, exponent = -n := ⟨(-exponent).toNat, by omega⟩
  -- a negative power of ten is at most that of eight
  have power : (10 : ℚ) ^ (-(n : Int)) ≤ 2 ^ (3 * -(n : Int)) := by
    rw [zpow_mul, zpow_neg, zpow_neg, zpow_natCast, zpow_natCast]
    exact inv_anti₀ (by positivity) (pow_le_pow_left₀ (by norm_num) (by norm_num) n)
  calc (2 : ℚ) * (digits * 10 ^ (-(n : Int)))
      < 2 * (2 ^ ((digits.log2 : Int) + 1) * 10 ^ (-(n : Int))) := by gcongr
    _ ≤ 2 * (2 ^ ((digits.log2 : Int) + 1) * 2 ^ (3 * -(n : Int))) := by gcongr
    _ = 2 ^ (1 + ((digits.log2 : Int) + 1 + 3 * -(n : Int))) := by
      rw [zpow_add₀ two_ne_zero 1, zpow_add₀ two_ne_zero ((digits.log2 : Int) + 1), zpow_one]
    _ ≤ 2 ^ k.leastExponent := zpow_le_zpow_right₀ one_le_two (by omega)

/-- **The number that is made of a decimal is the one nearest to it**, with its sign. -/
theorem eq_ofDecimal_iff (a : Floating k) (negative : Bool) (digits : Nat) (exponent : Int) :
    a = ofDecimal k negative digits exponent ↔ a.IsNearest negative (digits * 10 ^ exponent) := by
  have power : ∀ n : Nat, ((Nat.pow 10 n : Nat) : ℚ) = 10 ^ n := fun n => Nat.cast_pow 10 n
  unfold ofDecimal
  dsimp only
  -- zero, what is too large or too small to be computed, and the two signs of the exponent
  split_ifs with zero large small nonneg
  · refine (isNearest_iff_eq ?_).symm
    rw [zero, Nat.cast_zero, zero_mul]
    exact FloatingKind.isNearest_zero le_rfl (by rw [mul_zero]; exact zpow_pos two_pos _)
  · exact (isNearest_iff_eq (isNearest_of_large k zero large)).symm
  · exact (isNearest_iff_eq (isNearest_of_small k small)).symm
  · obtain ⟨n, rfl⟩ := Int.eq_ofNat_of_zero_le nonneg
    have nearest := isNearest_nearestPattern k (digits * Nat.pow 10 n) Nat.one_pos
    rw [Nat.cast_one, div_one, Nat.cast_mul, power] at nearest
    rw [Int.toNat_natCast, zpow_natCast]
    exact (isNearest_iff_eq nearest).symm
  · obtain ⟨n, rfl⟩ : ∃ n : Nat, exponent = -n := ⟨(-exponent).toNat, by omega⟩
    have nearest := isNearest_nearestPattern k digits (Nat.pow_pos (show 0 < 10 by decide) (n := n))
    have cast : ((10 ^ n : Nat) : ℚ) = 10 ^ n := power n
    rw [cast, div_eq_mul_inv] at nearest
    rw [Int.neg_neg, Int.toNat_natCast, zpow_neg, zpow_natCast]
    exact (isNearest_iff_eq nearest).symm

/-- On both sides of the middle between the greatest number of 64 bits and infinity, and of half of the least one. -/
example : ofDecimal .double false 17976931348623158 292 = ofSign .double false (FloatingKind.double.infinity - 1) ∧
    ofDecimal .double true 17976931348623159 292 = infinity .double true ∧
    ofDecimal .double false 25 (-325) = ofSign .double false 1 ∧
    ofDecimal .double true 24 (-325) = ofSign .double true 0 := by
  decide +kernel

end Floating

end SystemUnit
