import SystemUnit.Whole.Basic
import SystemUnit.Numeral.Digits

namespace SystemUnit

/-!
# Pointers

A pointer is an address of 64 bits and nothing else: what it points at, if anything, is the business of the
arena that handed it out.  Offsets wrap around.
-/

/-- An address; zero is nil. -/
@[ext] structure Pointer where
  address : UInt64
  deriving DecidableEq

namespace Pointer

/-- The pointer to nothing. -/
def nil : Pointer := ⟨0⟩

instance : Inhabited Pointer := ⟨nil⟩

def isNil (p : Pointer) : Bool := p.address == 0

theorem isNil_iff {p : Pointer} : p.isNil = true ↔ p = nil := by
  rw [Pointer.ext_iff, isNil, beq_iff_eq]
  rfl

/-- The pointer `offset` bytes further on. -/
def add (p : Pointer) (offset : Int) : Pointer := ⟨p.address + UInt64.ofInt offset⟩

/-- The pointer `offset` bytes before. -/
def sub (p : Pointer) (offset : Int) : Pointer := ⟨p.address - UInt64.ofInt offset⟩

/-- The address as an integer of 32 bits, the high half dropped. -/
def toInteger (p : Pointer) : Whole .integer := Whole.ofNat .integer p.address.toNat

/-- The order of the addresses. -/
def compare (p q : Pointer) : Ordering := Ord.compare p.address q.address

/-- The address in base sixteen behind its mark. -/
def hex (p : Pointer) : List Char := "0x".toList ++ Digits.hex false p.address.toNat

end Pointer

end SystemUnit
