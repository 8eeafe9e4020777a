import SystemUnit.Whole.Basic
import SystemUnit.IndexFault
import SystemUnit.Room

namespace SystemUnit

/-!
# Arrays whose length changes

The first index of a `DynArray` is 0 and the last is one less than its length, so -1 if it is empty.  Main
definitions:

* `DynArray.get?`, `DynArray.itemAt`, `DynArray.put` — one item;
* `DynArray.setLength`, `DynArray.copy` — another length, and a part of an array;
* `DynArray.replicate?`, `DynArray.setLength?` — arrays of a length for which there has to be room.
-/

/-- An array whose length may change. -/
@[ext] structure DynArray (α : Type) where
  items : List α
  deriving DecidableEq

namespace DynArray

variable {α : Type}

def empty : DynArray α := ⟨[]⟩

instance : Inhabited (DynArray α) := ⟨empty⟩

/-- `length` times the same item; none for a negative length. -/
def replicate (length : Int) (item : α) : DynArray α := ⟨List.replicate length.toNat item⟩

def size (a : DynArray α) : Nat := a.items.length

/-- The number of items as an integer of 32 bits. -/
def length (a : DynArray α) : Whole .integer := Whole.ofNat .integer a.size

/-- The first index. -/
def low (_ : DynArray α) : Whole .integer := Whole.ofNat .integer 0

/-- The last index. -/
def high (a : DynArray α) : Whole .integer := a.length.pred

/-- The item at an index. -/
def get? (a : DynArray α) (index : Int) : Option α :=
  if index < 0 then none else a.items[index.toNat]?

/-- The item at an index that has to lie in the array. -/
def itemAt (a : DynArray α) (index : Int) : Except IndexFault α :=
  match a.get? index with
  | some item => .ok item
  | none => .error (.array index a.size)

/-- Replaces the item at an index that has to lie in the array. -/
def put (a : DynArray α) (index : Int) (item : α) : Except IndexFault (DynArray α) :=
  if 0 ≤ index ∧ index < a.size then .ok ⟨a.items.set index.toNat item⟩
  else .error (.array index a.size)

/-- Cuts an array to a length, or fills it up with an item; a negative length counts as zero. -/
def setLength (a : DynArray α) (length : Int) (item : α) : DynArray α :=
  ⟨a.items.take length.toNat ++ List.replicate (length.toNat - a.size) item⟩

/-- `length` times the same item of `itemSize` bytes, if there is room for them. -/
def replicate? (itemSize : Nat) (length : Int) (item : α) : Option (DynArray α) :=
  if Room.admits itemSize length then some (replicate length item) else none

/-- An array of items of `itemSize` bytes cut to a length or filled up, if there is room for it. -/
def setLength? (a : DynArray α) (itemSize : Nat) (length : Int) (item : α) : Option (DynArray α) :=
  if Room.admits itemSize length then some (a.setLength length item) else none

/-- At most `count` items from `index` on; none if the index is not in the array. -/
def copy (a : DynArray α) (index count : Int) : DynArray α :=
  if index < 0 then empty else ⟨(a.items.drop index.toNat).take count.toNat⟩

/-- Applies a function to every item. -/
def map {β : Type} (f : α → β) (a : DynArray α) : DynArray β := ⟨a.items.map f⟩

end DynArray

/-! ### Items that are integers -/

/-- The order of two lists of integers, the first difference deciding. -/
def compareItems {k : WholeKind} : List (Whole k) → List (Whole k) → Ordering
  | [], [] => .eq
  | [], _ :: _ => .lt
  | _ :: _, [] => .gt
  | a :: as, b :: bs => (a.compare b).then (compareItems as bs)

/-- Integers in ascending order. -/
def sortItems {k : WholeKind} (items : List (Whole k)) : List (Whole k) :=
  items.mergeSort fun a b => a.toInt ≤ b.toInt

/-- The sum of integers, without the bits that do not fit. -/
def sumItems {k : WholeKind} (items : List (Whole k)) : Whole k :=
  items.foldl (· + ·) (Whole.ofNat k 0)

end SystemUnit
