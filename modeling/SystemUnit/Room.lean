namespace SystemUnit

/-!
# Room for sequences

The items of a sequence lie side by side in memory, and the number of their bytes has to be an integer of 64
bits with a sign.  Main definitions:

* `Room.greatest` — the greatest number of bytes of a sequence;
* `Room.admits` — whether there is room for a number of items.
-/

namespace Room

/-- The greatest number of bytes of a sequence. -/
def greatest : Nat := 0x7FFFFFFFFFFFFFFF

/-- Whether there is room for `count` items of `itemSize` bytes; a negative count counts as zero. -/
def admits (itemSize : Nat) (count : Int) : Bool := count.toNat * itemSize ≤ greatest

/-- Where there is room for a sequence, there is room for a shorter one. -/
theorem admits_of_le {itemSize : Nat} {m n : Int} (h : m ≤ n) (room : admits itemSize n) :
    admits itemSize m := by
  simp only [admits, decide_eq_true_eq] at room ⊢
  exact Nat.le_trans (Nat.mul_le_mul_right itemSize (by omega)) room

end Room

end SystemUnit
