import SystemUnit.Scalar.Basic
import SystemUnit.Floating.Arithmetic

namespace SystemUnit

/-!
# Mixed operands

Operands of two types are first brought to a common type.  An integer kind embeds in another if that has all
its numbers; two integer kinds meet in the first of four kinds in which both embed, and narrow kinds
therefore in 32 bits.  Main definitions:

* `WholeKind.embeds`, `WholeKind.common?` — embedding, and the kind in which two kinds meet;
* `Scalar.convert?` — the conversions that happen without being asked for;
* `ScalarType.common?`, `Scalar.promote?` — the common type, and both operands in it;
* `Scalar.combine?` — the four operators on any two numbers.
-/

/-- Whether every number of one kind is a number of the other. -/
def WholeKind.embeds (k j : WholeKind) : Bool :=
  j.least ≤ k.least && k.greatest ≤ j.greatest

/-- The first kind of at least 32 bits that has all numbers of both kinds. -/
def WholeKind.common? (k j : WholeKind) : Option WholeKind :=
  [.integer, .cardinal, .int64, .uInt64].find? fun c => k.embeds c && j.embeds c

/-- Whether every number of one real kind is a number of the other, and is brought to it. -/
def FloatingKind.embeds : FloatingKind → FloatingKind → Bool
  | .single, _ => true
  | .double, .single => false
  | .double, _ => true
  | .extended, .extended => true
  | .extended, _ => false

/-- The type in which two operands meet: the same type, the wider real, the real of a real and an integer,
    or the common integer kind. -/
def ScalarType.common? (s t : ScalarType) : Option ScalarType :=
  if s = t then some s
  else
    match s, t with
    | .whole k, .whole j => (k.common? j).map .whole
    | .whole _, .floating j => some (.floating j)
    | .floating k, .whole _ => some (.floating k)
    | .floating k, .floating j => some (.floating (if k.embeds j then j else k))
    | _, _ => none

namespace Whole

/-- The same number in another kind, cut to its width. -/
def convert {k : WholeKind} (a : Whole k) (target : WholeKind) : Whole target := ofInt target a.toInt

/-- The real nearest to an integer. -/
def toFloating {k : WholeKind} (a : Whole k) (target : FloatingKind) : Floating target :=
  Floating.ofInt target a.toInt

/-- The quotient of two integers as a real. -/
def divide {k : WholeKind} (a b : Whole k) : Floating .double :=
  a.toFloating .double / b.toFloating .double

end Whole

namespace Scalar

/-- A value in another type, if that conversion exists: into a kind that has all its numbers, from an integer
    to a real, from an unsigned integer of at most 16 bits to a code unit, and between an address and its
    number. -/
def convert? (a : Scalar) (target : ScalarType) : Option Scalar :=
  if a.type = target then some a
  else
    match a, target with
    | ⟨.whole k, x⟩, .whole j => if k.embeds j then some (whole (x.convert j)) else none
    | ⟨.whole _, x⟩, .floating j => some (floating (x.toFloating j))
    | ⟨.whole k, x⟩, .char =>
      if k = .byte ∨ k = .word then some (char (CodeUnit.ofInt x.toInt)) else none
    | ⟨.whole k, x⟩, .pointer =>
      if k = .uInt64 then some (pointer ⟨UInt64.ofInt x.toInt⟩) else none
    | ⟨.floating k, x⟩, .floating j =>
      if k.width ≤ j.width then some (floating (x.convert j)) else none
    | ⟨.pointer, p⟩, .whole .uInt64 => some (whole (Whole.ofNat .uInt64 p.address.toNat))
    | ⟨.pointer, p⟩, .whole .integer => some (whole p.toInteger)
    | _, _ => none

/-- Both operands in their common type. -/
def promote? (a b : Scalar) : Option (Scalar × Scalar) := do
  let t ← a.type.common? b.type
  return (← a.convert? t, ← b.convert? t)

end Scalar

/-! ### The four operators -/

/-- The operators that mixed operands allow. -/
inductive Operator where
  | add
  | sub
  | mul
  | div
  deriving DecidableEq

namespace Scalar

/-- An operator on two numbers of one type; the quotient of two integers is a real. -/
def sameType? (op : Operator) (a b : Scalar) : Option Scalar :=
  match a, b with
  | ⟨.whole k, x⟩, ⟨.whole j, y⟩ =>
    if h : j = k then
      let y : Whole k := h ▸ y
      some (match op with
        | .add => whole (x + y)
        | .sub => whole (x - y)
        | .mul => whole (x * y)
        | .div => floating (x.divide y))
    else none
  | ⟨.floating k, x⟩, ⟨.floating j, y⟩ =>
    if h : j = k then
      let y : Floating k := h ▸ y
      some (floating (match op with
        | .add => x + y
        | .sub => x - y
        | .mul => x * y
        | .div => x / y))
    else none
  | _, _ => none

/-- An operator on any two numbers, in their common type. -/
def combine? (op : Operator) (a b : Scalar) : Option Scalar := do
  let (x, y) ← a.promote? b
  sameType? op x y

end Scalar

end SystemUnit
