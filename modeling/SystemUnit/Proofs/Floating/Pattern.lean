import SystemUnit.Floating.Basic
import Mathlib.Algebra.Order.Field.Power
import Mathlib.Algebra.Order.Field.Rat
import Mathlib.Order.Monotone.Basic
import Mathlib.Tactic.FieldSimp
import Mathlib.Tactic.Linarith
import Mathlib.Tactic.NormNum
import Mathlib.Tactic.Positivity
import Mathlib.Tactic.Ring

namespace SystemUnit

/-!
# The pattern nearest to a size

The patterns without sign up to that of infinity are in the order of their sizes, if infinity stands where the next
number would be if the exponents went on.  So each size from zero on has one nearest pattern, where of two that are as
near the even one is taken, and all that is too large is nearest to infinity.  The pattern that is computed for a
fraction is this one.

* `FloatingKind.sizeOf`, `FloatingKind.sizeOf_strictMono` — the sizes of patterns, and their order;
* `FloatingKind.IsNearest`, `FloatingKind.IsNearest.unique` — the pattern nearest to a size, and that there is one only;
* `FloatingKind.isNearest_of_between`, `FloatingKind.isNearest_of_rest` — a size is nearest to one of the two patterns
  that it lies between;
* `Floating.exponentFor_spec`, `Floating.roundEven_eq` — the exponent and the mantissa of a fraction;
* `Floating.isNearest_nearestPattern` — the pattern of a fraction is the nearest one.
-/

namespace FloatingKind

variable {k : FloatingKind} {p q r j : Nat} {x : ℚ}

/-! ### The sizes of patterns -/

/-- The leading one has a weight. -/
theorem leadingOne_pos (k : FloatingKind) : 0 < k.leadingOne := by
  cases k <;> decide

theorem two_dvd_leadingOne (k : FloatingKind) : 2 ∣ k.leadingOne := by
  cases k <;> decide

/-- How many times the least size a pattern has. -/
def steps (k : FloatingKind) (p : Nat) : Nat :=
  if p < k.leadingOne then p else (k.leadingOne + p % k.leadingOne) * 2 ^ (p / k.leadingOne - 1)

/-- The size of a pattern without sign. -/
def sizeOf (k : FloatingKind) (p : Nat) : ℚ := k.steps p * 2 ^ k.leastExponent

/-- A mantissa with its leading one behind the field of an exponent; up to the next power of two it may be anything. -/
theorem steps_add (le : r ≤ 2 * k.leadingOne) (normal : k.leadingOne ≤ r ∨ j = 0) :
    k.steps (j * k.leadingOne + r) = r * 2 ^ j := by
  have pos := k.leadingOne_pos
  unfold steps
  by_cases small : r < k.leadingOne
  · obtain rfl : j = 0 := normal.resolve_left (by omega)
    simp [small]
  · rw [if_neg (by omega)]
    by_cases carry : r = 2 * k.leadingOne
    · -- the mantissa is the leading one of the next exponent, and nothing behind it
      have next : j * k.leadingOne + r = (j + 2) * k.leadingOne := by
        rw [carry]
        ring
      rw [next, Nat.mul_mod_left, Nat.mul_div_cancel _ pos, carry, Nat.add_zero]
      show k.leadingOne * 2 ^ (j + 1) = 2 * k.leadingOne * 2 ^ j
      ring
    · obtain ⟨m, rfl⟩ := Nat.exists_eq_add_of_le (Nat.le_of_not_lt small)
      have lt : m < k.leadingOne := by omega
      have field : j * k.leadingOne + (k.leadingOne + m) = m + (j + 1) * k.leadingOne := by ring
      rw [field, Nat.add_mul_mod_self_right, Nat.mod_eq_of_lt lt, Nat.add_mul_div_right _ _ pos,
        Nat.div_eq_of_lt lt, Nat.zero_add, Nat.add_sub_cancel]

/-- All patterns are a mantissa behind the field of an exponent. -/
theorem exists_place (k : FloatingKind) (p : Nat) :
    ∃ j r, p = j * k.leadingOne + r ∧ r < 2 * k.leadingOne ∧ (k.leadingOne ≤ r ∨ j = 0) := by
  have pos := k.leadingOne_pos
  -- a small pattern has the least exponent, and every other one a leading one
  by_cases small : p < k.leadingOne
  · exact ⟨0, p, by omega, by omega, .inr rfl⟩
  · have lt := Nat.mod_lt p pos
    have split := Nat.div_add_mod' p k.leadingOne
    have one : 1 ≤ p / k.leadingOne := Nat.div_pos (by omega) pos
    refine ⟨p / k.leadingOne - 1, k.leadingOne + p % k.leadingOne, ?_, by omega, .inl (by omega)⟩
    rw [Nat.sub_mul]
    have := Nat.mul_le_mul_right k.leadingOne one
    omega

/-- Each pattern is more steps from zero than the one before. -/
theorem steps_lt_succ (k : FloatingKind) (p : Nat) : k.steps p < k.steps (p + 1) := by
  obtain ⟨j, r, rfl, lt, normal⟩ := k.exists_place p
  rw [Nat.add_assoc, steps_add (by omega) normal, steps_add (by omega) (normal.imp_left (by omega))]
  exact Nat.mul_lt_mul_of_pos_right (Nat.lt_succ_self r) (Nat.two_pow_pos j)

/-- The size of a pattern is its mantissa times the power of its exponent. -/
theorem sizeOf_add (le : r ≤ 2 * k.leadingOne) (normal : k.leadingOne ≤ r ∨ j = 0) :
    k.sizeOf (j * k.leadingOne + r) = r * 2 ^ (k.leastExponent + j) := by
  rw [sizeOf, steps_add le normal, zpow_add₀ two_ne_zero, zpow_natCast]
  push_cast
  ring

/-- **Patterns are in the order of their sizes.** -/
theorem sizeOf_strictMono (k : FloatingKind) : StrictMono k.sizeOf := by
  apply strictMono_nat_of_lt_succ
  intro p
  have lt : (k.steps p : ℚ) < k.steps (p + 1) := by exact_mod_cast k.steps_lt_succ p
  exact mul_lt_mul_of_pos_right lt (zpow_pos two_pos _)

/-- The pattern of zero has no size. -/
theorem sizeOf_zero (k : FloatingKind) : k.sizeOf 0 = 0 := by
  simp [sizeOf, steps, k.leadingOne_pos]

/-! ### The nearest pattern -/

/-- The pattern nearest to a size, of those up to infinity; if another is as near it is even. -/
structure IsNearest (k : FloatingKind) (x : ℚ) (p : Nat) : Prop where
  le : p ≤ k.infinity
  nearest : ∀ q ≤ k.infinity, q ≠ p →
    |x - k.sizeOf p| < |x - k.sizeOf q| ∨ |x - k.sizeOf p| = |x - k.sizeOf q| ∧ p % 2 = 0

/-- What is not below infinity is nearest to it. -/
theorem isNearest_infinity (le : k.sizeOf k.infinity ≤ x) : k.IsNearest x k.infinity where
  le := Nat.le_refl _
  nearest q le_q ne := by
    have lt := k.sizeOf_strictMono (Nat.lt_of_le_of_ne le_q ne)
    rw [abs_of_nonneg (by linarith), abs_of_nonneg (by linarith)]
    left
    linarith

section

variable (below : k.sizeOf p ≤ x) (above : x < k.sizeOf (p + 1))

include below above

/-- All other patterns are farther from a size than the nearer one of the two that it lies between. -/
theorem min_lt_of_ne (ne : q ≠ p) (ne' : q ≠ p + 1) :
    min (x - k.sizeOf p) (k.sizeOf (p + 1) - x) < |x - k.sizeOf q| := by
  rcases Nat.lt_or_gt_of_ne ne with lt | gt
  · have less := k.sizeOf_strictMono lt
    rw [abs_of_nonneg (by linarith)]
    exact min_lt_of_left_lt (by linarith)
  · have greater := k.sizeOf_strictMono (show p + 1 < q by omega)
    rw [abs_sub_comm, abs_of_nonneg (by linarith)]
    exact min_lt_of_right_lt (by linarith)

/-- A size between two patterns that follow each other is nearest to one of them, unless it is beyond infinity. -/
theorem isNearest_of_between :
    k.IsNearest x (min (if x - k.sizeOf p < k.sizeOf (p + 1) - x ∨
      x - k.sizeOf p = k.sizeOf (p + 1) - x ∧ p % 2 = 0 then p else p + 1) k.infinity) := by
  -- above the greatest number the nearest one is infinity
  by_cases beyond : k.infinity ≤ p
  · rw [Nat.min_eq_right (by split <;> omega)]
    exact isNearest_infinity (le_trans (k.sizeOf_strictMono.monotone beyond) below)
  · have toP : |x - k.sizeOf p| = x - k.sizeOf p := abs_of_nonneg (by linarith)
    have toNext : |x - k.sizeOf (p + 1)| = k.sizeOf (p + 1) - x := by
      rw [abs_sub_comm]
      exact abs_of_nonneg (by linarith)
    rw [Nat.min_eq_left (by split <;> omega)]
    refine ⟨by split <;> omega, fun q _ ne => ?_⟩
    split at ne <;> rename_i side
    · rw [if_pos side, toP]
      -- against its neighbour a pattern wins by the distance, or by being even
      by_cases next : q = p + 1
      · rw [next, toNext]
        exact side
      · have le : x - k.sizeOf p ≤ k.sizeOf (p + 1) - x := by
          rcases side with lt | ⟨eq, -⟩
          · exact lt.le
          · exact eq.le
        exact .inl (min_eq_left le ▸ min_lt_of_ne below above ne next)
    · rw [if_neg side, toNext]
      rw [not_or, not_lt, not_and] at side
      by_cases same : q = p
      · rw [same, toP]
        rcases lt_or_eq_of_le side.1 with lt | eq
        · exact .inl lt
        · have odd := side.2 eq.symm
          exact .inr ⟨eq, by omega⟩
      · exact .inl (min_eq_right side.1 ▸ min_lt_of_ne below above same ne)

end

/-- A mantissa with a rest is nearest to the one without it or to the next one; of two that are as near, to the even
    one. -/
theorem isNearest_of_rest {rest : ℚ} (lt : r < 2 * k.leadingOne) (normal : k.leadingOne ≤ r ∨ j = 0)
    (nonneg : 0 ≤ rest) (lt_one : rest < 1) :
    k.IsNearest ((r + rest) * 2 ^ (k.leastExponent + j)) (min (j * k.leadingOne +
      if rest < 1 - rest ∨ rest = 1 - rest ∧ r % 2 = 0 then r else r + 1) k.infinity) := by
  have unit : (0 : ℚ) < 2 ^ (k.leastExponent + j) := zpow_pos two_pos _
  have here := sizeOf_add lt.le normal
  have next := sizeOf_add (r := r + 1) lt (normal.imp_left (by omega))
  rw [← Nat.add_assoc, Nat.cast_succ] at next
  -- the distances to the two neighbours, in units of the last place
  have toHere : (r + rest) * 2 ^ (k.leastExponent + j) - k.sizeOf (j * k.leadingOne + r) =
      rest * 2 ^ (k.leastExponent + j) := by
    rw [here]
    ring
  have toNext : k.sizeOf (j * k.leadingOne + r + 1) - (r + rest) * 2 ^ (k.leastExponent + j) =
      (1 - rest) * 2 ^ (k.leastExponent + j) := by
    rw [next]
    ring
  have even : (j * k.leadingOne + r) % 2 = r % 2 := by
    obtain ⟨m, two⟩ := k.two_dvd_leadingOne
    rw [two, Nat.mul_left_comm, Nat.mul_add_mod]
  have between := isNearest_of_between
    (sub_nonneg.mp (toHere ▸ mul_nonneg nonneg unit.le)) (sub_pos.mp (toNext ▸ mul_pos (sub_pos.mpr lt_one) unit))
  simp only [toHere, toNext, mul_lt_mul_iff_left₀ unit, mul_left_inj' unit.ne', even] at between
  split at between <;> rename_i side
  · rwa [if_pos side]
  · rwa [if_neg side]

/-- What is not half of the least size is nearest to zero. -/
theorem isNearest_zero (nonneg : 0 ≤ x) (lt : 2 * x < 2 ^ k.leastExponent) : k.IsNearest x 0 := by
  have one : k.sizeOf (0 + 1) = 2 ^ k.leastExponent := by
    have le : 1 ≤ 2 * k.leadingOne := by
      have := k.leadingOne_pos
      omega
    simpa using sizeOf_add (j := 0) le (.inr rfl)
  have below : k.sizeOf 0 ≤ x := by rwa [sizeOf_zero]
  have above : x < k.sizeOf (0 + 1) := by
    rw [one]
    linarith
  -- zero is nearer than the least number
  have nearer : x - k.sizeOf 0 < k.sizeOf (0 + 1) - x := by
    rw [one, sizeOf_zero]
    linarith
  have between := isNearest_of_between below above
  rwa [if_pos (.inl nearer), Nat.zero_min] at between

/-- **A size has no more than one nearest pattern.** -/
theorem IsNearest.unique (hp : k.IsNearest x p) (hq : k.IsNearest x q) : p = q := by
  by_contra ne
  wlog lt : p < q generalizing p q
  · exact this hq hp (Ne.symm ne) (by omega)
  -- both are as near, and so both are even, and there is a pattern between them that is nearer
  have fromP := hp.nearest q hq.le (Ne.symm ne)
  have fromQ := hq.nearest p hp.le ne
  have same : |x - k.sizeOf p| = |x - k.sizeOf q| := by
    rcases fromP with closer | same
    · rcases fromQ with closer' | same
      · exact absurd closer (lt_asymm closer')
      · exact same.1.symm
    · exact same.1
  have evenP : p % 2 = 0 := (fromP.resolve_left (by rw [same]; exact lt_irrefl _)).2
  have evenQ : q % 2 = 0 := (fromQ.resolve_left (by rw [same]; exact lt_irrefl _)).2
  have between := hp.nearest (p + 1) (by have := hq.le; omega) (Nat.succ_ne_self p)
  have ltNext := k.sizeOf_strictMono (Nat.lt_succ_self p)
  have nextLt := k.sizeOf_strictMono (show p + 1 < q by omega)
  have closer : |x - k.sizeOf (p + 1)| < |x - k.sizeOf p| := by
    rcases abs_eq_abs.mp same with eq | eq
    · linarith
    · rw [abs_of_nonneg (show 0 ≤ x - k.sizeOf p by linarith), abs_lt]
      constructor <;> linarith
  rcases between with far | far
  · exact absurd far (lt_asymm closer)
  · exact absurd closer (by rw [far.1]; exact lt_irrefl _)

end FloatingKind

/-! ### The pattern of a fraction -/

namespace Floating

variable {k : FloatingKind} {num den : Nat}

/-- A fraction is scaled by a power of two. -/
theorem scale_eq (num : Nat) (pos : 0 < den) (shift : Int) :
    0 < (scale num den shift).2 ∧
      ((scale num den shift).1 : ℚ) / (scale num den shift).2 = (num / den : ℚ) * 2 ^ shift := by
  have power : ∀ n : Nat, ((Nat.pow 2 n : Nat) : ℚ) = 2 ^ n := fun n => Nat.cast_pow 2 n
  unfold scale
  -- to the left, or to the right
  split
  · rename_i nonneg
    obtain ⟨n, rfl⟩ := Int.eq_ofNat_of_zero_le nonneg
    refine ⟨pos, ?_⟩
    rw [Int.toNat_natCast, Nat.cast_mul, power, zpow_natCast]
    ring
  · rename_i negative
    obtain ⟨n, eq⟩ := Int.eq_ofNat_of_zero_le (show 0 ≤ -shift by omega)
    obtain rfl : shift = -n := by omega
    refine ⟨Nat.mul_pos pos (Nat.two_pow_pos _), ?_⟩
    rw [Int.neg_neg, Int.toNat_natCast, Nat.cast_mul, power, zpow_neg, zpow_natCast]
    field_simp

/-- The weight of the leading one is half of the count of mantissas. -/
theorem two_mul_leadingOne (k : FloatingKind) : (2 * k.leadingOne : ℚ) = 2 ^ (k.precision : Int) := by
  have eq : 2 * k.leadingOne = 2 ^ k.precision := by cases k <;> decide
  rw [zpow_natCast]
  exact_mod_cast eq

/-- The least exponent that a fraction may need, told by the digits of its parts. -/
def lowExponent (k : FloatingKind) (num den : Nat) : Int := (num.log2 : Int) - den.log2 - k.precision

/-- With that exponent a fraction has the precision of the kind or one digit more. -/
theorem lowExponent_spec (pos : 0 < num) (pos' : 0 < den) :
    k.leadingOne ≤ (num / den : ℚ) * 2 ^ (-lowExponent k num den) ∧
      (num / den : ℚ) * 2 ^ (-lowExponent k num den) < 4 * k.leadingOne := by
  have numLe : (2 : ℚ) ^ num.log2 ≤ num := by exact_mod_cast Nat.log2_self_le (Nat.pos_iff_ne_zero.mp pos)
  have numLt : (num : ℚ) < 2 * 2 ^ num.log2 := by
    have lt := Nat.lt_log2_self (n := num)
    rw [Nat.pow_succ'] at lt
    exact_mod_cast lt
  have denLe : (2 : ℚ) ^ den.log2 ≤ den := by exact_mod_cast Nat.log2_self_le (Nat.pos_iff_ne_zero.mp pos')
  have denLt : (den : ℚ) < 2 * 2 ^ den.log2 := by
    have lt := Nat.lt_log2_self (n := den)
    rw [Nat.pow_succ'] at lt
    exact_mod_cast lt
  have denPos : (0 : ℚ) < den := by exact_mod_cast pos'
  have leading : (0 : ℚ) < k.leadingOne := by exact_mod_cast k.leadingOne_pos
  -- both parts are brought between one and two, and their quotient lies between a half and two
  have scaled : (num / den : ℚ) * 2 ^ (-lowExponent k num den) =
      num / 2 ^ num.log2 * (2 ^ den.log2 / den) * (2 * k.leadingOne) := by
    rw [two_mul_leadingOne, lowExponent, neg_sub, sub_sub_eq_add_sub, zpow_sub₀ two_ne_zero,
      zpow_add₀ two_ne_zero, zpow_natCast, zpow_natCast, zpow_natCast]
    ring
  have one : 1 ≤ (num : ℚ) / 2 ^ num.log2 := (one_le_div (by positivity)).mpr numLe
  have two : (num : ℚ) / 2 ^ num.log2 < 2 := (div_lt_iff₀ (by positivity)).mpr numLt
  have half : 1 / 2 ≤ (2 : ℚ) ^ den.log2 / den := (le_div_iff₀ denPos).mpr (by linarith)
  have whole : (2 : ℚ) ^ den.log2 / den ≤ 1 := (div_le_one denPos).mpr denLe
  rw [scaled]
  constructor
  · nlinarith [mul_le_mul one half (by norm_num) (by positivity)]
  · have product : (num : ℚ) / 2 ^ num.log2 * (2 ^ den.log2 / den) < 2 := by nlinarith
    nlinarith

/-- One digit more than the precision goes into the exponent. -/
theorem exists_exactExponent (k : FloatingKind) (pos : 0 < num) (pos' : 0 < den) :
    ∃ e, exponentFor k num den = max e k.leastExponent ∧
      (k.leadingOne : ℚ) ≤ (num / den : ℚ) * 2 ^ (-e) ∧ (num / den : ℚ) * 2 ^ (-e) < 2 * k.leadingOne := by
  obtain ⟨low, high⟩ := lowExponent_spec (k := k) pos pos'
  obtain ⟨positive, scaled⟩ := scale_eq num pos' (-lowExponent k num den)
  have chosen : exponentFor k num den = max (if (scale num den (-lowExponent k num den)).1 /
      (scale num den (-lowExponent k num den)).2 < 2 * k.leadingOne then lowExponent k num den
        else lowExponent k num den + 1) k.leastExponent := rfl
  generalize lowExponent k num den = e at *
  generalize (scale num den (-e)).1 = n at *
  generalize (scale num den (-e)).2 = d at *
  have positive' : (0 : ℚ) < d := by exact_mod_cast positive
  refine ⟨_, chosen, ?_⟩
  -- the estimate is right, or too small by one
  split <;> rename_i size <;> rw [Nat.div_lt_iff_lt_mul positive] at size
  · have small : (n : ℚ) < 2 * k.leadingOne * d := by exact_mod_cast size
    rw [← scaled] at low ⊢
    exact ⟨low, (div_lt_iff₀ positive').mpr small⟩
  · have large : 2 * k.leadingOne * d ≤ (n : ℚ) := by exact_mod_cast Nat.le_of_not_lt size
    rw [← le_div_iff₀ positive'] at large
    rw [← scaled] at high
    rw [neg_add, zpow_add₀ two_ne_zero, ← mul_assoc, ← scaled, zpow_neg_one]
    constructor <;> linarith

/-- With the exponent that is chosen a fraction has the precision of the kind, or the exponent is the least one. -/
theorem exponentFor_spec (k : FloatingKind) (pos : 0 < num) (pos' : 0 < den) :
    k.leastExponent ≤ exponentFor k num den ∧
      (num / den : ℚ) * 2 ^ (-exponentFor k num den) < 2 * k.leadingOne ∧
      ((k.leadingOne : ℚ) ≤ (num / den : ℚ) * 2 ^ (-exponentFor k num den) ∨
        exponentFor k num den = k.leastExponent) := by
  obtain ⟨e, chosen, leading, lt⟩ := exists_exactExponent k pos pos'
  rw [chosen]
  refine ⟨le_max_right _ _, ?_⟩
  rcases le_total k.leastExponent e with le | le
  · rw [max_eq_left le]
    exact ⟨lt, .inl leading⟩
  · -- below the least exponent the mantissa only gets smaller
    rw [max_eq_right le]
    have more : (2 : ℚ) ^ (-k.leastExponent) ≤ 2 ^ (-e) := zpow_le_zpow_right₀ one_le_two (by omega)
    exact ⟨lt_of_le_of_lt (mul_le_mul_of_nonneg_left more (by positivity)) lt, .inr rfl⟩

/-- A fraction is its whole part and a rest, which is not the next one. -/
theorem div_eq_add_rest (n : Nat) (pos : 0 < den) :
    (n / den : ℚ) = (n / den : Nat) + ((n % den : Nat) / den : ℚ) ∧ ((n % den : Nat) / den : ℚ) < 1 := by
  have pos' : (0 : ℚ) < den := by exact_mod_cast pos
  have division : (n : ℚ) = (n / den : Nat) * den + (n % den : Nat) := by exact_mod_cast (Nat.div_add_mod' n den).symm
  constructor
  · rw [div_eq_iff pos'.ne', add_mul, div_mul_cancel₀ _ pos'.ne']
    exact division
  · rw [div_lt_one pos']
    exact_mod_cast Nat.mod_lt n pos

/-- A rest is dropped if it is nearer to zero than to one, or as near and behind an even number. -/
theorem roundEven_eq (n : Nat) (pos : 0 < den) :
    roundEven n den = if ((n % den : Nat) / den : ℚ) < 1 - (n % den : Nat) / den ∨
      ((n % den : Nat) / den : ℚ) = 1 - (n % den : Nat) / den ∧ n / den % 2 = 0 then n / den else n / den + 1 := by
  have pos' : (0 : ℚ) < den := by exact_mod_cast pos
  -- twice the rest is compared with the divisor, and not the rest with a half
  have closer : ((n % den : Nat) / den : ℚ) < 1 - (n % den : Nat) / den ↔ 2 * (n % den) < den := by
    rw [lt_sub_iff_add_lt, ← two_mul, ← mul_div_assoc, div_lt_one pos']
    exact_mod_cast Iff.rfl
  have tie : ((n % den : Nat) / den : ℚ) = 1 - (n % den : Nat) / den ↔ 2 * (n % den) = den := by
    rw [eq_sub_iff_add_eq, ← two_mul, ← mul_div_assoc, div_eq_one_iff_eq pos'.ne']
    exact_mod_cast Iff.rfl
  simp only [closer, tie]
  rfl

/-- A mantissa that is rounded to the even one, behind the field of its exponent, is the nearest pattern. -/
theorem isNearest_roundEven {n j : Nat} (pos : 0 < den) (lt : (n / den : ℚ) < 2 * k.leadingOne)
    (normal : (k.leadingOne : ℚ) ≤ n / den ∨ j = 0) :
    k.IsNearest (n / den * 2 ^ (k.leastExponent + j)) (min (j * k.leadingOne + roundEven n den) k.infinity) := by
  have pos' : (0 : ℚ) < den := by exact_mod_cast pos
  -- the bounds of the quotient are those of its integral part
  have small : n / den < 2 * k.leadingOne := by
    rw [div_lt_iff₀ pos'] at lt
    exact (Nat.div_lt_iff_lt_mul pos).mpr (by exact_mod_cast lt)
  have normal : k.leadingOne ≤ n / den ∨ j = 0 := by
    refine normal.imp_left fun le => ?_
    rw [le_div_iff₀ pos'] at le
    exact (Nat.le_div_iff_mul_le pos).mpr (by exact_mod_cast le)
  obtain ⟨division, lt_one⟩ := div_eq_add_rest n pos
  rw [division, roundEven_eq n pos]
  exact FloatingKind.isNearest_of_rest small normal (by positivity) lt_one

/-- **The pattern that is computed for a fraction is the nearest one.** -/
theorem isNearest_nearestPattern (k : FloatingKind) (num : Nat) (pos : 0 < den) :
    k.IsNearest (num / den : ℚ) (nearestPattern k num den) := by
  by_cases zero : num = 0
  · rw [nearestPattern, if_pos zero, zero, Nat.cast_zero, zero_div]
    exact FloatingKind.isNearest_zero le_rfl (by rw [mul_zero]; exact zpow_pos two_pos _)
  · obtain ⟨least, lt, leading⟩ := exponentFor_spec k (Nat.pos_of_ne_zero zero) pos
    obtain ⟨positive, scaled⟩ := scale_eq num pos (-exponentFor k num den)
    have pattern : nearestPattern k num den = min ((exponentFor k num den - k.leastExponent).toNat * k.leadingOne +
        roundEven (scale num den (-exponentFor k num den)).1 (scale num den (-exponentFor k num den)).2)
          k.infinity := if_neg zero
    -- from here on only the bounds of the exponent count
    generalize exponentFor k num den = e at *
    obtain ⟨j, exponent⟩ := Int.eq_ofNat_of_zero_le (show 0 ≤ e - k.leastExponent by omega)
    obtain rfl : e = k.leastExponent + j := by omega
    rw [← scaled] at lt leading
    have rounded := isNearest_roundEven (j := j) positive lt (leading.imp_right (by omega))
    rw [scaled, mul_assoc, ← zpow_add₀ two_ne_zero, neg_add_cancel, zpow_zero, mul_one] at rounded
    rw [pattern, exponent]
    exact rounded

end Floating

end SystemUnit
