import SystemUnit.Whole.Basic
import SystemUnit.IndexFault

namespace SystemUnit

/-!
# Arrays of a fixed length

The indexes of a `FixedArray` of length `n` are `0, …, n - 1`.
-/

/-- An array of `n` items. -/
@[ext] structure FixedArray (α : Type) (n : Nat) where
  items : List α
  length_items : items.length = n

namespace FixedArray

variable {α : Type} {n : Nat}

/-- The empty array. -/
def nil : FixedArray α 0 := ⟨[], rfl⟩

/-- An array with one more item at its start. -/
def cons (item : α) (a : FixedArray α n) : FixedArray α (n + 1) :=
  ⟨item :: a.items, by simp [a.length_items]⟩

/-- `n` times the same item. -/
def replicate (n : Nat) (item : α) : FixedArray α n := ⟨List.replicate n item, by simp⟩

/-- The array of the items of a list, if there are `n`. -/
def ofList? (n : Nat) (items : List α) : Option (FixedArray α n) :=
  if h : items.length = n then some ⟨items, h⟩ else none

/-- The number of items as an integer of 32 bits. -/
def length (_ : FixedArray α n) : Whole .integer := Whole.ofNat .integer n

/-- The first index. -/
def low (_ : FixedArray α n) : Whole .integer := Whole.ofNat .integer 0

/-- The last index. -/
def high (a : FixedArray α n) : Whole .integer := a.length.pred

/-- The item at an index. -/
def get? (a : FixedArray α n) (index : Int) : Option α :=
  if index < 0 then none else a.items[index.toNat]?

/-- The item at an index that has to lie in the array. -/
def itemAt (a : FixedArray α n) (index : Int) : Except IndexFault α :=
  match a.get? index with
  | some item => .ok item
  | none => .error (.array index n)

/-- Replaces the item at an index that has to lie in the array. -/
def put (a : FixedArray α n) (index : Int) (item : α) : Except IndexFault (FixedArray α n) :=
  if 0 ≤ index ∧ index < n then
    .ok ⟨a.items.set index.toNat item, by simp [a.length_items]⟩
  else .error (.array index n)

/-- The items in the order of a comparison. -/
def sort (le : α → α → Bool) (a : FixedArray α n) : FixedArray α n :=
  ⟨a.items.mergeSort le, by simp [a.length_items]⟩

end FixedArray

end SystemUnit
