import Mathlib.Algebra.Order.Floor.Div
import Mathlib.Data.BitVec
import Mathlib.Data.List.Iterate
import Mathlib.Data.Nat.Count
import Mathlib.Dynamics.PeriodicPts.Lemmas
import Mathlib.Tactic.LinearCombination
import Mathlib.Tactic.Ring
import SystemUnit.Proofs.Whole.Range
import SystemUnit.Random

namespace SystemUnit

namespace Generator

/-!
# The period of the generator

A step multiplies the seed by `1 + 4 * m` and adds one.  So `2 ^ k` steps multiply it by `1 + 2 ^ (k + 2) * t` and add
an odd multiple of `2 ^ k`; half of the seeds are not enough to come back to a seed, and all of them are.  Over one
period each seed is drawn once, and a scaled number therefore as often as there are seeds that are scaled to it.

* `Draw`, `perform`, `after`, `passed`, `drawn` — calls that draw, one after another;
* `exists_seed_iterate_two_pow`, `minimalPeriod_next` — the period is the number of seeds;
* `seeds_perm_range` — over one period the seeds are all seeds;
* `filter_scaled`, `countP_scaled` — the seeds that are scaled to a number are an interval, of one of two lengths;
* `full_period_even` — the generator has full period, and its numbers are as even as they can be.
-/

open Function

variable (g : Generator) {m n : Nat}

/-! ### Calls that draw -/

/-- The calls that draw. -/
inductive Draw where
  | int (range : Whole .integer)
  | real

/-- What a call gives. -/
inductive Drawn where
  | int (number : Whole .integer)
  | real (number : Floating .double)
  deriving DecidableEq

/-- What a call gives, and the generator after it. -/
def perform (g : Generator) : Draw → Drawn × Generator
  | .int range => (.int (g.int range).1, (g.int range).2)
  | .real => (.real g.real.1, g.real.2)

/-- The generator after calls one after another. -/
def after (g : Generator) : List Draw → Generator
  | [] => g
  | draw :: draws => (g.perform draw).2.after draws

/-- The generators that calls one after another leave. -/
def passed (g : Generator) : List Draw → List Generator
  | [] => []
  | draw :: draws => (g.perform draw).2 :: (g.perform draw).2.passed draws

/-- What calls one after another give. -/
def drawn (g : Generator) : List Draw → List Drawn
  | [] => []
  | draw :: draws => (g.perform draw).1 :: (g.perform draw).2.drawn draws

/-- The number below a range that the seed of a generator is scaled to. -/
def scaledTo (range : Whole .integer) (g : Generator) : Nat :=
  if range.toInt ≤ 0 then 0 else g.seed.toNat * range.toInt.toNat / seedCount

/-- A number that is drawn is the next seed, scaled. -/
theorem int_fst (range : Whole .integer) : (g.int range).1 = Whole.ofNat .integer (scaledTo range g.next) := by
  rw [int, scaledTo]

/-- Every call makes one step, whatever it asks for. -/
@[simp] theorem perform_snd (draw : Draw) : (g.perform draw).2 = g.next := by
  cases draw with
  | int range => rw [perform, int]
  | real => rw [perform, real]

/-- After some draws the generator has taken as many steps, whatever has been drawn. -/
theorem after_eq_iterate (draws : List Draw) : g.after draws = next^[draws.length] g := by
  induction draws generalizing g with
  | nil => rfl
  | cons draw draws ih => rw [after, ih, perform_snd, List.length_cons, iterate_succ_apply]

/-- So has it passed as many states. -/
theorem passed_eq_iterate (draws : List Draw) : g.passed draws = List.iterate next g.next draws.length := by
  induction draws generalizing g with
  | nil => rfl
  | cons draw draws ih => rw [passed, ih, perform_snd, List.length_cons, List.iterate]

/-- Draws from a range scale the generators that they leave. -/
theorem drawn_replicate_int (range : Whole .integer) (n : Nat) :
    g.drawn (List.replicate n (.int range)) =
      (List.iterate next g.next n).map fun h => .int (Whole.ofNat .integer (scaledTo range h)) := by
  induction n generalizing g with
  | zero => rfl
  | succ n ih => rw [List.replicate_succ, drawn, ih, perform_snd, List.iterate, List.map_cons, perform, int_fst]

/-! ### The period -/

/-- `2 ^ k` steps add an odd multiple of `2 ^ k` to the seed, and what depends on the seed in it is a multiple of
    four. -/
theorem exists_seed_iterate_two_pow (k : Nat) : ∃ t s : BitVec 32, ∀ g : Generator,
    (next^[2 ^ k] g).seed = g.seed + 2 ^ k * (4 * t * g.seed + 2 * s + 1) := by
  induction k with
  | zero =>
    refine ⟨33693953, 0, fun g => ?_⟩
    have multiplier : (134775813 : BitVec 32) = 1 + 4 * 33693953 := rfl
    show g.seed * 134775813 + 1 = _
    rw [multiplier]
    ring
  | succ k ih =>
    -- the second half of twice as many steps starts where the first one ends; `t` and `s` are those of both together
    obtain ⟨t, s, step⟩ := ih
    refine ⟨t + 2 ^ (k + 1) * t * t, s + 2 ^ k * t * (2 * s + 1), fun g => ?_⟩
    rw [pow_succ, Nat.mul_two, iterate_add_apply, step, step]
    ring

theorem two_pow_32 : (2 : BitVec 32) ^ 32 = 0 := by decide

/-- All seeds bring a seed back. -/
theorem iterate_two_pow_32 : next^[2 ^ 32] g = g := by
  obtain ⟨t, s, step⟩ := exists_seed_iterate_two_pow 32
  ext1
  rw [step, two_pow_32, zero_mul, add_zero]

/-- Half of the seeds flip the highest bit. -/
theorem seed_iterate_two_pow_31 : (next^[2 ^ 31] g).seed = g.seed + 2 ^ 31 := by
  obtain ⟨t, s, step⟩ := exists_seed_iterate_two_pow 31
  rw [step]
  linear_combination (2 * t * g.seed + s) * two_pow_32

/-- **The period is the number of seeds.** -/
theorem minimalPeriod_next : minimalPeriod next g = seedCount := by
  have : Fact (Nat.Prime 2) := ⟨Nat.prime_two⟩
  refine minimalPeriod_eq_prime_pow (k := 31) (fun half => ?_) g.iterate_two_pow_32
  have flipped := g.seed_iterate_two_pow_31
  rw [half.eq] at flipped
  have ne : (2 : BitVec 32) ^ 31 ≠ 0 := by decide
  exact ne (left_eq_add.mp flipped)

/-- **Over one period the seeds are all seeds**: as many as there are, and none of them twice. -/
theorem seeds_perm_range :
    ((List.iterate next g seedCount).map fun h => h.seed.toNat).Perm (List.range seedCount) := by
  have within : (List.iterate next g seedCount).map (fun h => h.seed.toNat) ⊆ List.range seedCount := by
    intro seed mem
    obtain ⟨h, -, rfl⟩ := List.mem_map.mp mem
    exact List.mem_range.mpr h.seed.isLt
  -- no seed comes back before the period is over
  have once : ((List.iterate next g seedCount).map fun h => h.seed.toNat).Nodup := by
    rw [← List.range_map_iterate, List.map_map]
    refine List.nodup_range.map_on fun j hj k hk same => ?_
    rw [List.mem_range, ← g.minimalPeriod_next] at hj hk
    exact iterate_injOn_Iio_minimalPeriod hj hk (Generator.ext (BitVec.toNat_inj.mp same))
  refine (once.subperm within).perm_of_length_le ?_
  rw [List.length_map, List.length_iterate, List.length_range]

/-- Over one period each generator is left once. -/
theorem count_passed {draws : List Draw} (length : draws.length = seedCount) (h : Generator) :
    (g.passed draws).count h = 1 := by
  have told : Injective fun h : Generator => h.seed.toNat := fun _ _ same =>
    Generator.ext (BitVec.toNat_inj.mp same)
  rw [passed_eq_iterate, length, ← List.count_map_of_injective _ _ told, g.next.seeds_perm_range.count_eq]
  exact List.count_eq_one_of_mem List.nodup_range (List.mem_range.mpr h.seed.isLt)

/-! ### Scaled numbers -/

/-- The numbers below `m` that are scaled to one number below `n` are an interval. -/
theorem filter_scaled (pos : 0 < n) {v : Nat} (lt : v < n) :
    ((Finset.range m).filter fun s => s * n / m = v) = Finset.Ico (v * m ⌈/⌉ n) ((v + 1) * m ⌈/⌉ n) := by
  ext s
  have below : s < (v + 1) * m ⌈/⌉ n ↔ s * n < (v + 1) * m := by
    rw [← not_le, ceilDiv_le_iff_le_mul pos, not_le, Nat.mul_comm]
  rw [Finset.mem_filter, Finset.mem_range, Finset.mem_Ico, ceilDiv_le_iff_le_mul pos, below, Nat.mul_comm n s]
  constructor
  · rintro ⟨inside, rfl⟩
    exact ⟨Nat.div_mul_le_self _ _, Nat.lt_mul_of_div_lt (Nat.lt_succ_self _) (by omega)⟩
  · rintro ⟨above, below⟩
    have last : (v + 1) * m ≤ n * m := Nat.mul_le_mul_right m lt
    rw [Nat.mul_comm n m] at last
    -- a seed of the interval is one of the generator, as the number is below the range
    have inside : s < m := Nat.lt_of_mul_lt_mul_right (Nat.lt_of_lt_of_le below last)
    exact ⟨inside, Nat.div_eq_of_lt_le above below⟩

/-- Between multiples of `n` that are `m` apart there are `m / n` numbers, rounded down or up. -/
theorem ceilDiv_add_sub_ceilDiv (pos : 0 < n) (a m : Nat) :
    (a + m) ⌈/⌉ n - a ⌈/⌉ n = m / n ∨ (a + m) ⌈/⌉ n - a ⌈/⌉ n = m ⌈/⌉ n := by
  have sum : (a + m) ⌈/⌉ n = (a + n - 1) / n + (m / n + if n ≤ (a + n - 1) % n + m % n then 1 else 0) := by
    have shift : a + m + n - 1 = a + n - 1 + m := by omega
    rw [Nat.ceilDiv_eq_add_pred_div, shift, Nat.add_div pos, Nat.add_assoc]
  rw [sum, Nat.ceilDiv_eq_add_pred_div a, Nat.add_sub_cancel_left]
  by_cases carry : n ≤ (a + n - 1) % n + m % n
  · -- a remainder is below `n`, so there is a carry only if `m` leaves one too, and then `m / n` is rounded up
    have rest := Nat.mod_lt (a + n - 1) pos
    have last : n - 1 < n := by omega
    have up : m ⌈/⌉ n = m / n + 1 := by
      rw [Nat.ceilDiv_eq_add_pred_div, Nat.add_sub_assoc pos, Nat.add_div pos, Nat.div_eq_of_lt last,
        Nat.mod_eq_of_lt last, if_pos (by omega)]
    exact .inr (by rw [if_pos carry, up])
  · exact .inl (by rw [if_neg carry, Nat.add_zero])

/-- The numbers that are scaled to one number are `m / n`, rounded down or up. -/
theorem countP_scaled (pos : 0 < n) {v : Nat} (lt : v < n) :
    (List.range m).countP (fun s => s * n / m = v) = m / n ∨
      (List.range m).countP (fun s => s * n / m = v) = m ⌈/⌉ n := by
  have interval : (List.range m).countP (fun s => s * n / m = v) = ((v + 1) * m ⌈/⌉ n) - (v * m ⌈/⌉ n) :=
    calc (List.range m).countP (fun s => s * n / m = v)
        = ((Finset.range m).filter fun s => s * n / m = v).card := Nat.count_eq_card_filter_range _ m
      _ = _ := by rw [filter_scaled pos lt, Nat.card_Ico]
  rw [interval, Nat.succ_mul]
  exact ceilDiv_add_sub_ceilDiv pos (v * m) m

/-! ### Numbers in a range -/

variable {range : Whole .integer} (pos : 0 < range.toInt)

include pos

/-- A range that is positive scales the seed to its part of it. -/
theorem scaledTo_of_pos : scaledTo range g = g.seed.toNat * range.toInt.toNat / seedCount :=
  if_neg (Int.not_le.mpr pos)

/-- What is drawn from a range lies in it. -/
theorem scaledTo_lt : (scaledTo range g : Int) < range.toInt := by
  have lt : g.seed.toNat < seedCount := g.seed.isLt
  rw [← Int.lt_toNat, g.scaledTo_of_pos pos, Nat.div_lt_iff_lt_mul (by decide), Nat.mul_comm]
  exact Nat.mul_lt_mul_of_pos_left lt (by omega)

/-- So it is an integer, and nothing is cut from it. -/
theorem toInt_scaledTo : (Whole.ofNat .integer (scaledTo range g)).toInt = scaledTo range g :=
  Whole.toInt_ofNat (Int.le_of_lt (Int.lt_of_lt_of_le (g.scaledTo_lt pos) range.toInt_range.2))

/-- A number of a range is not negative and below the range. -/
theorem toInt_int_range : 0 ≤ (g.int range).1.toInt ∧ (g.int range).1.toInt < range.toInt := by
  rw [int_fst, g.next.toInt_scaledTo pos]
  exact ⟨Int.natCast_nonneg _, g.next.scaledTo_lt pos⟩

/-- Over one period a number is drawn as often as there are seeds that are scaled to it. -/
theorem count_drawn {number : Whole .integer} (nonneg : 0 ≤ number.toInt) :
    (g.drawn (List.replicate seedCount (.int range))).count (.int number) =
      (List.range seedCount).countP (fun s => s * range.toInt.toNat / seedCount = number.toInt.toNat) := by
  rw [← g.next.seeds_perm_range.countP_eq, List.countP_map, drawn_replicate_int, List.count_eq_countP, List.countP_map]
  refine List.countP_congr fun h _ => ?_
  have value := h.toInt_scaledTo pos
  rw [comp_apply, comp_apply, beq_iff_eq, decide_eq_true_iff, Drawn.int.injEq, ← Whole.toInt_inj, value,
    ← h.scaledTo_of_pos pos]
  omega

omit pos

/-! ### The whole period -/

/-- **The generator has full period, and its numbers are as even as they can be.**  Calls only count by their number,
    whatever they ask for.  As many calls as there are seeds leave each seed once, and the seed of the start at last.
    A number is below the range that it is drawn from; and if all calls of a period ask for that range, it is drawn as
    often as the number of seeds divided by the range says, rounded down or up. -/
theorem full_period_even (g : Generator) :
    (∀ draws : List Draw, g.after draws = next^[draws.length] g) ∧
    (∀ draws : List Draw, draws.length = seedCount →
      g.after draws = g ∧ ∀ h : Generator, (g.passed draws).count h = 1) ∧
    ∀ range : Whole .integer, 0 < range.toInt →
      (0 ≤ (g.int range).1.toInt ∧ (g.int range).1.toInt < range.toInt) ∧
      ∀ number : Whole .integer, 0 ≤ number.toInt → number.toInt < range.toInt →
        let times := (g.drawn (List.replicate seedCount (.int range))).count (.int number)
        times = seedCount / range.toInt.toNat ∨ times = seedCount ⌈/⌉ range.toInt.toNat := by
  refine ⟨g.after_eq_iterate, fun draws length => ⟨?_, g.count_passed length⟩, fun range pos =>
    ⟨g.toInt_int_range pos, fun number nonneg lt => ?_⟩⟩
  · rw [after_eq_iterate, length]
    exact g.iterate_two_pow_32
  · dsimp only
    -- a number is drawn as often as there are seeds that are scaled to it
    rw [g.count_drawn pos nonneg]
    exact countP_scaled (by omega) (by omega)

/-- A period of which one half asks for a number below six and the other for a real; and how often five is drawn over
    a period that asks for nothing else than a number below six. -/
theorem full_period_even_six :
    let g := ofSeed ⟨-42⟩
    let six : Whole .integer := ⟨6⟩
    let draws := List.replicate (seedCount / 2) (.int six) ++ List.replicate (seedCount / 2) .real
    let times := (g.drawn (List.replicate seedCount (.int six))).count (.int ⟨5⟩)
    draws.length = seedCount ∧ g.after draws = g ∧ (g.passed draws).count ⟨0⟩ = 1 ∧ 0 < six.toInt ∧
      (times = 715827882 ∨ times = 715827883) := by
  intro g six draws times
  obtain ⟨-, period, even⟩ := full_period_even g
  have length : draws.length = seedCount := by
    rw [List.length_append, List.length_replicate, List.length_replicate]
    rfl
  have pos : 0 < six.toInt := by decide
  obtain ⟨back, once⟩ := period draws length
  have down : seedCount / six.toInt.toNat = 715827882 := by decide
  have up : seedCount ⌈/⌉ six.toInt.toNat = 715827883 := by decide
  -- the two counts of which one must be that of the number
  have sixth := (even six pos).2 ⟨5⟩ (by decide) (by decide)
  dsimp only at sixth
  rw [down, up] at sixth
  exact ⟨length, back, once ⟨0⟩, pos, sixth⟩

end Generator

end SystemUnit
