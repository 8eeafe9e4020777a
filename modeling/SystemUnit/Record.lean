import SystemUnit.Scalar.Literal
import SystemUnit.Collection.FixedArray
import SystemUnit.Bytes

namespace SystemUnit

/-!
# Records

A record is a scalar or an array of records of a fixed length.  It takes the same number of bytes whatever its
value: a scalar the bytes of its pattern, least weight first, and an array those of its items.  Main
definitions:

* `RecordType`, `RecordType.Value` — the types of records and their values;
* `RecordType.name`, `RecordType.ofName?` — the types by their names;
* `RecordType.size` — the number of bytes of a record;
* `RecordType.encode`, `RecordType.decode?` — a record as bytes, and back.
-/

/-- The types of records. -/
inductive RecordType where
  | scalar (t : ScalarType)
  | array (element : RecordType) (count : Nat)
  deriving DecidableEq

namespace ScalarType

/-- The number of bytes of a scalar. -/
def size : ScalarType → Nat
  | whole k => k.width / 8
  | floating k => k.width / 8
  | boolean => 1
  | char => 2
  | pointer => 8

/-- The number of the bit pattern of a scalar. -/
def pattern : (t : ScalarType) → t.Value → Nat
  | whole _, a => a.bits.toNat
  | floating _, a => a.bits.toNat
  | boolean, b => b.toNat
  | char, c => c.toNat
  | pointer, p => p.address.toNat

/-- The scalar of a bit pattern; every pattern but zero is true. -/
def ofPattern : (t : ScalarType) → Nat → t.Value
  | whole k, n => (⟨BitVec.ofNat _ n⟩ : Whole k)
  | floating k, n => (⟨BitVec.ofNat _ n⟩ : Floating k)
  | boolean, n => (n != 0 : Bool)
  | char, n => UInt16.ofNat n
  | pointer, n => (⟨UInt64.ofNat n⟩ : Pointer)

end ScalarType

namespace RecordType

/-- The values of a type of records. -/
@[reducible] def Value : RecordType → Type
  | scalar t => t.Value
  | array element count => FixedArray element.Value count

/-- The name of a type of records: that of a scalar type, or that of the items, a cross and their number. -/
def name : RecordType → String
  | scalar t => t.name
  | array element count => element.name ++ "x" ++ String.ofList (Digits.decimal count)

/-- The type of a name. -/
def ofName? (s : String) : Option RecordType :=
  match s.splitOn "x" with
  | t :: counts =>
    match ScalarType.ofName? t with
    | some t =>
      counts.foldlM (fun r count => (Digits.read? 10 count.toList).map (array r)) (scalar t)
    | none => (ScalarType.ofName? s).map scalar
  | [] => none

/-- The number of bytes of a record. -/
def size : RecordType → Nat
  | scalar t => t.size
  | array element count => element.size * count

/-- The bytes of a record. -/
def encode : (r : RecordType) → r.Value → List UInt8
  | scalar t, v => Bytes.ofNat t.size (t.pattern v)
  | array element _, v => v.items.flatMap element.encode

/-- Reads `count` items of `size` bytes each. -/
def decodeItems? {α : Type} (decode? : List UInt8 → Option α) (size : Nat) :
    (count : Nat) → List UInt8 → Option (FixedArray α count)
  | 0, _ => some .nil
  | count + 1, bytes => do
    let item ← decode? (bytes.take size)
    let rest ← decodeItems? decode? size count (bytes.drop size)
    return .cons item rest

/-- The record at the start of some bytes; none if there are too few. -/
def decode? : (r : RecordType) → List UInt8 → Option r.Value
  | scalar t, bytes =>
    if t.size ≤ bytes.length then some (t.ofPattern (Bytes.toNat (bytes.take t.size))) else none
  | array element count, bytes => decodeItems? element.decode? element.size count bytes

/-- The whole records in some bytes, one after the other. -/
def decodeAll (r : RecordType) : Nat → List UInt8 → List r.Value
  | 0, _ => []
  | count + 1, bytes =>
    match r.decode? (bytes.take r.size) with
    | some v => v :: decodeAll r count (bytes.drop r.size)
    | none => []

end RecordType

end SystemUnit
