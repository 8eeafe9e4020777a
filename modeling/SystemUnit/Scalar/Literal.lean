import SystemUnit.Scalar.Basic

namespace SystemUnit

/-!
# Literals

A literal is the name of a scalar type, a colon and a value of that type.  Reals are written as bit patterns,
so that none is lost; every pattern that is not a number is written alike.  Main definitions:

* `ScalarType.name`, `ScalarType.ofName?` — the types by their names;
* `Scalar.literal`, `Scalar.ofLiteral?` — a scalar as a literal, and back.
-/

namespace ScalarType

def all : List ScalarType :=
  [.whole .shortInt, .whole .smallInt, .whole .integer, .whole .int64, .whole .byte, .whole .word,
    .whole .cardinal, .whole .uInt64, .floating .single, .floating .double, .floating .extended, .boolean,
    .char, .pointer]

/-- The name of a type in a literal. -/
def name : ScalarType → String
  | whole .shortInt => "i8"
  | whole .smallInt => "i16"
  | whole .integer => "i32"
  | whole .int64 => "i64"
  | whole .byte => "u8"
  | whole .word => "u16"
  | whole .cardinal => "u32"
  | whole .uInt64 => "u64"
  | floating .single => "f32"
  | floating .double => "f64"
  | floating .extended => "ext"
  | boolean => "bool"
  | char => "char"
  | pointer => "ptr"

/-- The type of a name. -/
def ofName? (s : String) : Option ScalarType := all.find? (·.name = s)

@[simp] theorem ofName?_name (t : ScalarType) : ofName? t.name = some t := by
  cases t with
  | whole k => cases k <;> rfl
  | floating k => cases k <;> rfl
  | boolean => rfl
  | char => rfl
  | pointer => rfl

/-- A value in a literal. -/
def valueText : (t : ScalarType) → t.Value → List Char
  | whole _, a => Digits.signedDecimal a.toInt
  | floating k, a =>
    if a.isNaN then "nan".toList else Digits.padLeft '0' (k.width / 4) (Digits.hex false a.bits.toNat)
  | boolean, b => (if b then "true" else "false").toList
  | char, c => Digits.decimal c.toNat
  | pointer, p => Digits.decimal p.address.toNat

/-- The value that a text stands for in a literal. -/
def ofValueText? : (t : ScalarType) → List Char → Option t.Value
  | whole k, '-' :: digits => (Digits.read? 10 digits).map fun n => Whole.ofInt k (-n)
  | whole k, digits => (Digits.read? 10 digits).map (Whole.ofNat k)
  | floating k, text =>
    if text = "nan".toList then some (Floating.notANumber k)
    else (Digits.read? 16 text).map fun n => (⟨BitVec.ofNat _ n⟩ : Floating k)
  | boolean, text =>
    if text = "true".toList then some true
    else if text = "false".toList then some false
    else none
  | char, digits => (Digits.read? 10 digits).map UInt16.ofNat
  | pointer, digits => (Digits.read? 10 digits).map fun n => (⟨UInt64.ofNat n⟩ : Pointer)

end ScalarType

namespace Scalar

/-- A scalar as a literal. -/
def literal (a : Scalar) : List Char := a.type.name.toList ++ ':' :: a.type.valueText a.value

/-- The scalar of a literal. -/
def ofLiteral? (text : List Char) : Option Scalar := do
  let t ← ScalarType.ofName? (String.ofList (text.takeWhile (· ≠ ':')))
  return ⟨t, ← t.ofValueText? ((text.dropWhile (· ≠ ':')).drop 1)⟩

end Scalar

end SystemUnit
