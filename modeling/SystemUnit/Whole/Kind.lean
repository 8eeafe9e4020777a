namespace SystemUnit

/-!
# Integer kinds

The integer types differ in two things only, their width and whether they have a sign:

* `WholeKind` — the eight kinds, four signed and four unsigned;
* `WholeKind.wrap` — the number of a kind that a number becomes when its high bits are dropped.
-/

/-- The eight integer types. -/
inductive WholeKind where
  | shortInt
  | smallInt
  | integer
  | int64
  | byte
  | word
  | cardinal
  | uInt64
  deriving DecidableEq

namespace WholeKind

/-- Width in bits. -/
def width : WholeKind → Nat
  | shortInt => 8
  | smallInt => 16
  | integer => 32
  | int64 => 64
  | byte => 8
  | word => 16
  | cardinal => 32
  | uInt64 => 64

/-- Whether the kind has negative numbers. -/
def isSigned : WholeKind → Bool
  | shortInt | smallInt | integer | int64 => true
  | byte | word | cardinal | uInt64 => false

/-- How many numbers a kind has. -/
def count (k : WholeKind) : Nat := Nat.pow 2 k.width

/-- The least number of a kind. -/
def least (k : WholeKind) : Int :=
  if k.isSigned then -(k.count / 2 : Nat) else 0

/-- The greatest number of a kind. -/
def greatest (k : WholeKind) : Int :=
  if k.isSigned then (k.count / 2 : Nat) - 1 else k.count - 1

/-- The number of the kind that agrees with `n` modulo the count of its numbers. -/
def wrap (k : WholeKind) (n : Int) : Int :=
  if k.isSigned then n.bmod k.count else n % k.count

theorem count_pos (k : WholeKind) : 0 < k.count := by
  cases k <;> decide

theorem width_pos (k : WholeKind) : 0 < k.width := by
  cases k <;> decide

end WholeKind

end SystemUnit
