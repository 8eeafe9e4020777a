import SystemUnit.CodeUnit
import SystemUnit.IndexFault
import SystemUnit.Room

namespace SystemUnit

/-!
# Texts

A text is a sequence of UTF-16 code units, unpaired surrogates included, whose first index is 1.  An index is
any number; `Text.offset?` says which unit it means.  Main definitions:

* `Text` — the sequence;
* `Text.get?`, `Text.unitAt`, `Text.put` — one unit;
* `Text.setLength` — cutting and filling up;
* `Text.replicate?`, `Text.setLength?` — texts of a length for which there has to be room.
-/

/-- A sequence of code units. -/
@[ext] structure Text where
  units : List CodeUnit
  deriving DecidableEq, Inhabited

namespace Text

/-- The empty text. -/
def empty : Text := ⟨[]⟩

instance : EmptyCollection Text := ⟨empty⟩

instance : Append Text := ⟨fun s t => ⟨s.units ++ t.units⟩⟩

/-- The text of one unit. -/
def singleton (c : CodeUnit) : Text := ⟨[c]⟩

/-- `count` times the same unit; none for a negative count. -/
def replicate (c : CodeUnit) (count : Int) : Text := ⟨List.replicate count.toNat c⟩

/-- The number of units. -/
def size (s : Text) : Nat := s.units.length

/-- The number of units as an integer of 32 bits. -/
def length (s : Text) : Whole .integer := Whole.ofNat .integer s.size

def isEmpty (s : Text) : Bool := s.units.isEmpty

/-- A text with one more unit. -/
def push (s : Text) (c : CodeUnit) : Text := ⟨s.units ++ [c]⟩

/-- The number of units before an index that lies in the text. -/
def offset? (s : Text) (index : Int) : Option Nat :=
  if 1 ≤ index ∧ index ≤ s.size then some (index - 1).toNat else none

/-- The unit at an index. -/
def get? (s : Text) (index : Int) : Option CodeUnit :=
  (s.offset? index).bind (s.units[·]?)

/-- The unit at an index that has to lie in the text. -/
def unitAt (s : Text) (index : Int) : Except IndexFault CodeUnit :=
  match s.get? index with
  | some c => .ok c
  | none => .error (.text index s.size)

/-- Replaces the unit at an index that has to lie in the text. -/
def put (s : Text) (index : Int) (c : CodeUnit) : Except IndexFault Text :=
  match s.offset? index with
  | some i => .ok ⟨s.units.set i c⟩
  | none => .error (.text index s.size)

/-- Cuts a text to a length, or fills it up with units of zero; a negative length counts as zero. -/
def setLength (s : Text) (length : Int) : Text :=
  ⟨s.units.take length.toNat ++ List.replicate (length.toNat - s.size) 0⟩

/-- The number of bytes of a unit. -/
def unitSize : Nat := 2

/-- `count` times the same unit, if there is room for them. -/
def replicate? (c : CodeUnit) (count : Int) : Option Text :=
  if Room.admits unitSize count then some (replicate c count) else none

/-- A text cut to a length or filled up, if there is room for it. -/
def setLength? (s : Text) (length : Int) : Option Text :=
  if Room.admits unitSize length then some (s.setLength length) else none

/-- The units in reverse order. -/
def reverse (s : Text) : Text := ⟨s.units.reverse⟩

/-- The low byte of each unit. -/
def lowBytes (s : Text) : List UInt8 := s.units.map (·.toUInt8)

/-- The order by code units, the first difference deciding. -/
def compare (s t : Text) : Ordering := Ord.compare s.units t.units

@[simp] theorem units_append (s t : Text) : (s ++ t).units = s.units ++ t.units := rfl

theorem offset?_eq_some_iff {s : Text} {index : Int} {i : Nat} :
    s.offset? index = some i ↔ index = i + 1 ∧ i < s.size := by
  unfold offset?
  split
  · rw [Option.some.injEq]; omega
  · simp only [reduceCtorEq, false_iff]; omega

/-- An index in the text has a unit. -/
theorem get?_natCast_add_one (s : Text) (i : Nat) : s.get? ((i : Int) + 1) = s.units[i]? := by
  unfold get? offset? size
  split
  · simp
  · rw [List.getElem?_eq_none (by omega)]; rfl

end Text

end SystemUnit
