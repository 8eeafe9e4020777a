import SystemUnit.Whole.Kind

namespace SystemUnit

/-!
# Integers of a fixed kind

A `Whole k` is a bit pattern of the kind's width.  Sums, differences and products drop the bits that do
not fit; quotient and remainder truncate toward zero.  Main definitions:

* `Whole.toInt`, `Whole.ofInt` — the number a pattern stands for, and the pattern of a number;
* `Whole.quotient`, `Whole.remainder` — division that truncates toward zero;
* `Whole.shiftLeft`, `Whole.shiftRight` — shifts whose count is taken modulo the width.
-/

/-- An integer of kind `k`. -/
@[ext] structure Whole (k : WholeKind) where
  bits : BitVec k.width
  deriving DecidableEq

namespace Whole

variable {k : WholeKind}

/-- The number a pattern stands for: two's complement for a signed kind. -/
def toInt (a : Whole k) : Int :=
  if k.isSigned then a.bits.toInt else a.bits.toNat

/-- The bit pattern read as an unsigned number. -/
def toNat (a : Whole k) : Nat :=
  a.bits.toNat

/-- The low bits of a number. -/
def ofInt (k : WholeKind) (n : Int) : Whole k :=
  ⟨BitVec.ofInt k.width n⟩

/-- The low bits of a natural number. -/
def ofNat (k : WholeKind) (n : Nat) : Whole k :=
  ⟨BitVec.ofNat k.width n⟩

instance : Inhabited (Whole k) := ⟨ofNat k 0⟩

/-- The number of a cut pattern is the wrapped number. -/
@[simp] theorem toInt_ofInt (k : WholeKind) (n : Int) : (ofInt k n).toInt = k.wrap n := by
  have hp : (k.count : Int) ≠ 0 := by
    have := k.count_pos
    omega
  unfold toInt ofInt WholeKind.wrap
  split
  · exact BitVec.toInt_ofInt n
  · rw [BitVec.toNat_ofInt]
    exact Int.toNat_of_nonneg (Int.emod_nonneg _ hp)

/-- Cutting the number of a pattern gives the pattern back. -/
@[simp] theorem ofInt_toInt (a : Whole k) : ofInt k a.toInt = a := by
  ext1
  unfold toInt ofInt
  split <;> simp

/-! ### Arithmetic -/

instance : Add (Whole k) := ⟨fun a b => ⟨a.bits + b.bits⟩⟩

instance : Sub (Whole k) := ⟨fun a b => ⟨a.bits - b.bits⟩⟩

instance : Mul (Whole k) := ⟨fun a b => ⟨a.bits * b.bits⟩⟩

instance : Neg (Whole k) := ⟨fun a => ⟨-a.bits⟩⟩

/-- The quotient truncated toward zero; the one quotient that does not fit, of the least number by -1,
    wraps to the least number. -/
def quotient (a b : Whole k) : Whole k :=
  ofInt k (a.toInt.tdiv b.toInt)

/-- The remainder of `quotient`, with the sign of the dividend. -/
def remainder (a b : Whole k) : Whole k :=
  ofInt k (a.toInt.tmod b.toInt)

/-- The distance from zero; that of the least number wraps to the least number. -/
def abs (a : Whole k) : Whole k :=
  ofInt k a.toInt.natAbs

/-- -1, 0 or 1. -/
def sign (a : Whole k) : Whole .integer :=
  ofInt .integer a.toInt.sign

/-- The next number; after the greatest comes the least. -/
def succ (a : Whole k) : Whole k :=
  a + ofNat k 1

/-- The number before; before the least comes the greatest. -/
def pred (a : Whole k) : Whole k :=
  a - ofNat k 1

/-- Adds the low bits of `amount`. -/
def increaseBy (a : Whole k) (amount : Int) : Whole k :=
  a + ofInt k amount

/-- Subtracts the low bits of `amount`. -/
def decreaseBy (a : Whole k) (amount : Int) : Whole k :=
  a - ofInt k amount

/-- Whether the lowest bit is set. -/
def isOdd (a : Whole k) : Bool :=
  a.bits.getLsbD 0

/-- The order of the numbers, which for a signed kind is not that of the patterns. -/
def compare (a b : Whole k) : Ordering :=
  Ord.compare a.toInt b.toInt

/-! ### Bit patterns -/

instance : AndOp (Whole k) := ⟨fun a b => ⟨a.bits &&& b.bits⟩⟩

instance : OrOp (Whole k) := ⟨fun a b => ⟨a.bits ||| b.bits⟩⟩

instance : XorOp (Whole k) := ⟨fun a b => ⟨a.bits ^^^ b.bits⟩⟩

instance : Complement (Whole k) := ⟨fun a => ⟨~~~a.bits⟩⟩

/-- A shift count keeps only what is left modulo the width. -/
def shiftCount (k : WholeKind) (count : Int) : Nat :=
  (count % k.width).toNat

/-- Shifts to the left by the count modulo the width. -/
def shiftLeft (a : Whole k) (count : Int) : Whole k :=
  ⟨a.bits <<< shiftCount k count⟩

/-- Shifts to the right by the count modulo the width; a signed number keeps its sign. -/
def shiftRight (a : Whole k) (count : Int) : Whole k :=
  if k.isSigned then ⟨a.bits.sshiftRight (shiftCount k count)⟩
  else ⟨a.bits >>> shiftCount k count⟩

/-- A 16-bit word with its two bytes exchanged. -/
def swapBytes (a : Whole .word) : Whole .word :=
  ofNat .word (a.toNat % 256 * 256 + a.toNat / 256)

/-- A shift moves by fewer bits than the kind has. -/
theorem shiftCount_lt (k : WholeKind) (count : Int) : shiftCount k count < k.width := by
  have h := k.width_pos
  have := Int.emod_lt_of_pos count (show (0 : Int) < k.width by omega)
  unfold shiftCount
  omega

end Whole

end SystemUnit
