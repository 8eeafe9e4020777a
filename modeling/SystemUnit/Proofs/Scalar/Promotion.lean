import Mathlib.Data.Finset.Insert
import Mathlib.Data.Fintype.Defs
import SystemUnit.Proofs.Whole.Arithmetic
import SystemUnit.Scalar.Promotion

namespace SystemUnit

/-!
# Integers of two kinds

Two integers of different kinds are brought to the kind in which their kinds meet, and nothing is lost on the way.  If
that kind is wider than both, their sum, difference and product are numbers of it; otherwise what does not fit is cut.

* `WholeKind.widening`, `WholeKind.keeping` — the kinds that meet in a wider kind, and those that meet in the wider of
  the two;
* `WholeKind.MeetIn`, `WholeKind.common?_eq_some_iff` — the kind in which two kinds meet;
* `Whole.toInt_convert` — an integer keeps its number in a kind that has all numbers of its own;
* `WholeKind.reach`, `Operator.natAbs_exact_le` — how far the numbers of a kind are from zero, and the results of an
  operator;
* `Scalar.mixed_exact` — operands and results of the operators on integers of two kinds.
-/

/-! ### Kinds that meet -/

namespace WholeKind

/-- Two kinds that meet in one that is wider than both, and that kind. -/
def widening : List (WholeKind × WholeKind × WholeKind) :=
  [(shortInt, smallInt, integer), (shortInt, byte, integer), (shortInt, word, integer), (smallInt, byte, integer),
    (smallInt, word, integer), (byte, word, integer),
    (shortInt, cardinal, int64), (smallInt, cardinal, int64), (integer, cardinal, int64)]

/-- Two kinds that meet in the wider one of them, and that kind. -/
def keeping : List (WholeKind × WholeKind × WholeKind) :=
  [(shortInt, integer, integer), (smallInt, integer, integer), (byte, integer, integer), (word, integer, integer),
    (byte, cardinal, cardinal), (word, cardinal, cardinal),
    (shortInt, int64, int64), (smallInt, int64, int64), (integer, int64, int64), (byte, int64, int64),
    (word, int64, int64), (cardinal, int64, int64),
    (byte, uInt64, uInt64), (word, uInt64, uInt64), (cardinal, uInt64, uInt64)]

/-- Two kinds are in a table with the kind in which they meet, in one order or the other. -/
def MeetIn (table : List (WholeKind × WholeKind × WholeKind)) (k j c : WholeKind) : Prop :=
  (k, j, c) ∈ table ∨ (j, k, c) ∈ table

instance (table : List (WholeKind × WholeKind × WholeKind)) (k j c : WholeKind) : Decidable (MeetIn table k j c) :=
  inferInstanceAs (Decidable (_ ∨ _))

instance : Fintype WholeKind where
  elems := {shortInt, smallInt, integer, int64, byte, word, cardinal, uInt64}
  complete k := by cases k <;> decide

variable {k j c : WholeKind}

/-- **Two different kinds meet as the tables say.** -/
theorem common?_eq_some_iff (ne : k ≠ j) : k.common? j = some c ↔ MeetIn (widening ++ keeping) k j c := by
  -- the rule is computed for all kinds, of which there are few
  have all : ∀ k j c : WholeKind, k ≠ j → (k.common? j = some c ↔ MeetIn (widening ++ keeping) k j c) := by
    decide +kernel
  exact all k j c ne

/-- Only kinds of the first table meet in a kind that is wider than both. -/
theorem meetIn_widening_iff (meet : MeetIn (widening ++ keeping) k j c) :
    MeetIn widening k j c ↔ k.width < c.width ∧ j.width < c.width := by
  have all : ∀ row ∈ widening ++ keeping, (row ∈ widening ∨ (row.2.1, row.1, row.2.2) ∈ widening) ↔
    row.1.width < row.2.2.width ∧ row.2.1.width < row.2.2.width := by decide +kernel
  rcases meet with row | row
  · exact all _ row
  · rw [And.comm, ← all _ row]
    exact Or.comm

/-- Both kinds embed into the one in which they meet. -/
theorem embeds_of_common? (meet : k.common? j = some c) : k.embeds c = true ∧ j.embeds c = true := by
  have both := List.find?_some meet
  rwa [Bool.and_eq_true] at both

/-- How far from zero the numbers of a kind are. -/
def reach (k : WholeKind) : Nat := max k.greatest.natAbs k.least.natAbs

/-- A kind in which others meet, and which is wider than both, reaches as far as their sums and products. -/
theorem reach_of_widening (meet : MeetIn widening k j c) :
    k.reach + j.reach ≤ c.greatest.toNat ∧ k.reach * j.reach ≤ c.greatest.toNat ∧ c.least ≤ -c.greatest := by
  have all : ∀ row ∈ widening, row.1.reach + row.2.1.reach ≤ row.2.2.greatest.toNat ∧
    row.1.reach * row.2.1.reach ≤ row.2.2.greatest.toNat ∧ row.2.2.least ≤ -row.2.2.greatest := by decide +kernel
  rcases meet with row | row
  · exact all _ row
  · rw [Nat.add_comm, Nat.mul_comm]
    exact all _ row

end WholeKind

variable {k j c : WholeKind} {op : Operator} {m n r : Int}

/-! ### Operands in the common kind -/

namespace Whole

/-- An integer keeps its number in a kind that has all numbers of its own. -/
theorem toInt_convert (embeds : k.embeds c = true) (a : Whole k) : (a.convert c).toInt = a.toInt := by
  obtain ⟨above, below⟩ := a.toInt_range
  rw [WholeKind.embeds, Bool.and_eq_true, decide_eq_true_iff, decide_eq_true_iff] at embeds
  rw [convert, toInt_ofInt, WholeKind.wrap_eq_self (by omega) (by omega)]

/-- A number is within the reach of its kind. -/
theorem natAbs_toInt_le (a : Whole k) : a.toInt.natAbs ≤ k.reach := by
  have range := a.toInt_range
  unfold WholeKind.reach
  omega

/-- A number that is converted to its own kind stays what it is. -/
theorem convert_self (a : Whole k) : a.convert k = a := ofInt_toInt a

end Whole

namespace Scalar

theorem convert?_whole (embeds : k.embeds c = true) (a : Whole k) :
    (whole a).convert? (.whole c) = some (whole (a.convert c)) := by
  unfold convert?
  split
  · rename_i same
    cases same
    rw [a.convert_self]
  · exact if_pos embeds

/-- Two numbers of different kinds are promoted to the kind in which they meet. -/
theorem promote?_whole (ne : k ≠ j) (meet : k.common? j = some c) (a : Whole k) (b : Whole j) :
    (whole a).promote? (whole b) = some (whole (a.convert c), whole (b.convert c)) := by
  obtain ⟨embeds, embeds'⟩ := WholeKind.embeds_of_common? meet
  have common : ScalarType.common? (.whole k) (.whole j) = some (.whole c) := by
    rw [ScalarType.common?, if_neg fun same => ne (ScalarType.whole.inj same)]
    exact Option.map_eq_some_iff.mpr ⟨c, meet, rfl⟩
  have types : (whole a).type.common? (whole b).type = some (.whole c) := common
  rw [promote?, types, Option.bind_eq_bind, Option.bind_some, convert?_whole embeds, convert?_whole embeds']
  rfl

end Scalar

/-! ### Results -/

/-- The exact result of an operator on two integers, if that is an integer. -/
def Operator.exact? : Operator → Int → Int → Option Int
  | add, m, n => some (m + n)
  | sub, m, n => some (m - n)
  | mul, m, n => some (m * n)
  | div, _, _ => none

/-- A result is not further from zero than the sum of the operands or their product. -/
theorem Operator.natAbs_exact_le {x y z : Nat} (exact : op.exact? m n = some r) (hm : m.natAbs ≤ x)
    (hn : n.natAbs ≤ y) (sum : x + y ≤ z) (product : x * y ≤ z) : r.natAbs ≤ z := by
  -- a sum and a difference are bounded by the sum of the sizes, a product by their product
  cases op with
  | add | sub =>
    cases exact
    omega
  | mul =>
    cases exact
    rw [Int.natAbs_mul]
    exact Nat.le_trans (Nat.mul_le_mul hm hn) product
  | div => cases exact

/-- In a kind that is wider than both, there is nothing to cut from a result. -/
theorem Whole.toInt_ofInt_of_widening (meet : WholeKind.MeetIn WholeKind.widening k j c) {a : Whole k} {b : Whole j}
    (exact : op.exact? a.toInt b.toInt = some r) : (ofInt c r).toInt = r := by
  obtain ⟨sum, product, symmetric⟩ := WholeKind.reach_of_widening meet
  have near := op.natAbs_exact_le exact a.natAbs_toInt_le b.natAbs_toInt_le sum product
  have greatest := c.one_le_greatest
  rw [toInt_ofInt]
  exact WholeKind.wrap_eq_self (by omega) (by omega)

namespace Scalar

/-- An operator on two integers of one kind gives its exact result, cut to the kind. -/
theorem sameType?_whole {a b : Whole k} (exact : op.exact? a.toInt b.toInt = some r) :
    sameType? op (whole a) (whole b) = some (whole (Whole.ofInt k r)) := by
  cases op with
  | add | sub | mul =>
    cases exact
    simp only [Whole.ofInt_add, Whole.ofInt_sub, Whole.ofInt_mul, Whole.ofInt_toInt]
    exact dif_pos rfl
  | div => cases exact

/-- So does an operator on integers of two kinds, in the kind in which these meet. -/
theorem combine?_whole (ne : k ≠ j) (meet : k.common? j = some c) {a : Whole k} {b : Whole j}
    (exact : op.exact? a.toInt b.toInt = some r) :
    combine? op (whole a) (whole b) = some (whole (Whole.ofInt c r)) := by
  obtain ⟨embeds, embeds'⟩ := WholeKind.embeds_of_common? meet
  unfold combine?
  rw [promote?_whole ne meet]
  refine sameType?_whole ?_
  rw [Whole.toInt_convert embeds, Whole.toInt_convert embeds', exact]

/-- **Integers of two kinds, and the operators on them.**  Two different kinds meet as the tables say, and those of the
    first table in a kind that is wider than both.  Operands keep their numbers in the common kind.  A sum, difference or
    product agrees with the exact one modulo the count of the common kind, and is the exact one if that kind is wider
    than both. -/
theorem mixed_exact {k j c : WholeKind} (ne : k ≠ j) :
    (k.common? j = some c ↔ WholeKind.MeetIn (WholeKind.widening ++ WholeKind.keeping) k j c) ∧
    (k.common? j = some c →
      (WholeKind.MeetIn WholeKind.widening k j c ↔ k.width < c.width ∧ j.width < c.width) ∧
      ∀ (a : Whole k) (b : Whole j),
        ((whole a).promote? (whole b) = some (whole (a.convert c), whole (b.convert c)) ∧
          (a.convert c).toInt = a.toInt ∧ (b.convert c).toInt = b.toInt) ∧
        ∀ op n, op.exact? a.toInt b.toInt = some n →
          ∃ r : Whole c, combine? op (whole a) (whole b) = some (whole r) ∧ r.toInt ≡ n [ZMOD 2 ^ c.width] ∧
            (k.width < c.width → j.width < c.width → r.toInt = n)) := by
  -- the tables of the kinds are finite, and looked through once for all
  have tables := WholeKind.common?_eq_some_iff (c := c) ne
  refine ⟨tables, fun meet => ?_⟩
  have widening := WholeKind.meetIn_widening_iff (tables.mp meet)
  obtain ⟨embeds, embeds'⟩ := WholeKind.embeds_of_common? meet
  refine ⟨widening, fun a b => ⟨⟨promote?_whole ne meet a b, a.toInt_convert embeds, b.toInt_convert embeds'⟩,
    fun op n exact => ⟨.ofInt c n, combine?_whole ne meet exact, ?_, fun wide wide' => ?_⟩⟩⟩
  · have modulo : (2 : Int) ^ c.width = c.count := (Int.natCast_pow 2 c.width).symm
    rw [Whole.toInt_ofInt, modulo]
    exact c.wrap_modEq n
  · exact Whole.toInt_ofInt_of_widening (widening.mpr ⟨wide, wide'⟩) exact

/-- The furthest product of an integer of 16 bits and one without a sign fits into 32 bits; and the sum of the greatest
    integers of 8 and of 64 bits without a sign does not fit into 64. -/
theorem mixed_exact_furthest :
    let least : Whole .smallInt := ⟨0x8000⟩
    let word : Whole .word := ⟨0xFFFF⟩
    let byte : Whole .byte := ⟨0xFF⟩
    let greatest : Whole .uInt64 := ⟨-1⟩
    WholeKind.smallInt ≠ .word ∧ WholeKind.MeetIn WholeKind.widening .smallInt .word .integer ∧
      (∃ r : Whole .integer, combine? .mul (whole least) (whole word) = some (whole r) ∧ r.toInt = -2147450880) ∧
      ∃ r : Whole .uInt64, combine? .add (whole greatest) (whole byte) = some (whole r) ∧
        r.toInt ≡ 18446744073709551870 [ZMOD 2 ^ 64] := by
  intro least word byte greatest
  have ne : WholeKind.smallInt ≠ .word := by decide
  obtain ⟨widening, values⟩ := (mixed_exact (c := .integer) ne).2 (by decide)
  -- the product of the two that is furthest from zero
  obtain ⟨r, product, -, exact⟩ := (values least word).2 .mul (-2147450880) (by decide)
  obtain ⟨r', sum, agrees, -⟩ := (((mixed_exact (c := .uInt64) (show WholeKind.uInt64 ≠ .byte by decide)).2
    (by decide)).2 greatest byte).2 .add 18446744073709551870 (by decide)
  exact ⟨ne, widening.mpr (by decide), ⟨r, product, exact (by decide) (by decide)⟩, r', sum, agrees⟩

end Scalar

end SystemUnit
