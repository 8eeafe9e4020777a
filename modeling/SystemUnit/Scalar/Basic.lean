import SystemUnit.Whole.Basic
import SystemUnit.Floating.Text
import SystemUnit.CodeUnit
import SystemUnit.Pointer

namespace SystemUnit

/-!
# Scalars

A scalar is a value of one of the fourteen simple types.  Main definitions:

* `ScalarType`, `ScalarType.Value` — the types and their values;
* `Scalar` — a value together with its type;
* `Scalar.ordinal?` — the number of a value of an ordinal type, as an index, a count or a step;
* `Scalar.text` — a value as it is written.
-/

/-- The simple types. -/
inductive ScalarType where
  | whole (k : WholeKind)
  | floating (k : FloatingKind)
  | boolean
  | char
  | pointer
  deriving DecidableEq

/-- The values of a simple type. -/
@[reducible] def ScalarType.Value : ScalarType → Type
  | whole k => Whole k
  | floating k => Floating k
  | boolean => Bool
  | char => CodeUnit
  | pointer => Pointer

/-- A value and its type. -/
structure Scalar where
  type : ScalarType
  value : type.Value

namespace Scalar

/-- An integer as a scalar. -/
def whole {k : WholeKind} (a : Whole k) : Scalar := ⟨.whole k, a⟩

/-- A real as a scalar. -/
def floating {k : FloatingKind} (a : Floating k) : Scalar := ⟨.floating k, a⟩

/-- A truth value as a scalar. -/
def boolean (b : Bool) : Scalar := ⟨.boolean, b⟩

/-- A code unit as a scalar. -/
def char (c : CodeUnit) : Scalar := ⟨.char, c⟩

/-- A pointer as a scalar. -/
def pointer (p : Pointer) : Scalar := ⟨.pointer, p⟩

instance : Inhabited Scalar := ⟨boolean false⟩

/-- The value, if it is of a type. -/
def as? (a : Scalar) (t : ScalarType) : Option t.Value :=
  if h : a.type = t then some (h ▸ a.value) else none

/-- The number of a value of an ordinal type in 64 bits with a sign; reals and pointers have none. -/
def ordinal? : Scalar → Option Int
  | ⟨.whole _, a⟩ => some (WholeKind.int64.wrap a.toInt)
  | ⟨.boolean, b⟩ => some b.toInt
  | ⟨.char, c⟩ => some c.ordinal
  | ⟨.floating _, _⟩ => none
  | ⟨.pointer, _⟩ => none

/-! ### Written values -/

/-- A truth value as a word. -/
def boolWord (b : Bool) : List Char :=
  if b then "True".toList else "False".toList

/-- A value in the parts in which it is written out; together they are `text`. -/
def parts : Scalar → List (List Char)
  | ⟨.whole _, a⟩ =>
    if a.toInt < 0 then [['-'], Digits.decimal a.toInt.natAbs] else [Digits.decimal a.toInt.natAbs]
  | ⟨.floating _, a⟩ => a.parts
  | ⟨.boolean, b⟩ => [boolWord b]
  | ⟨.char, c⟩ => [[c.toChar]]
  | ⟨.pointer, p⟩ =>
    if p.isNil then ["nil".toList] else ["0x".toList, Digits.hex false p.address.toNat]

/-- A value as it is written. -/
def text (a : Scalar) : List Char := a.parts.flatten

end Scalar

end SystemUnit
