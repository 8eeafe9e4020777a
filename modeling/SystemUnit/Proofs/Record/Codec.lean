import SystemUnit.Record
import Mathlib.Algebra.Group.Nat.Defs
import Mathlib.Data.List.Basic

namespace SystemUnit

/-!
# Records as bytes

A record takes the same number of bytes whatever its value, and comes back from them.  A list of records is
their bytes one after the other, and is cut where its bytes are cut at a multiple of that number.

* `Bytes.toNat_ofNat`, `Bytes.ofNat_toNat` — the low bytes of a number are its low part, and bytes come back from
  their number;
* `ScalarType.ofPattern_pattern`, `ScalarType.pattern_ofPattern` — a scalar comes back from its pattern, and a pattern
  from its scalar, but for a truth value;
* `RecordType.length_encode`, `RecordType.decode?_encode_append` — a record has its size, and comes back;
* `RecordType.isSome_decode?` — bytes hold a record exactly if there are enough of them;
* `RecordType.zero`, `RecordType.encode_zero` — the record of zero bytes;
* `RecordType.encodeAll`, `RecordType.cut_encodeAll` — the bytes of a list of records, and of a part of it.
-/

namespace Bytes

/-- The low bytes of a number are its low part. -/
theorem toNat_ofNat (count n : Nat) : toNat (ofNat count n) = n % 256 ^ count := by
  induction count generalizing n with
  | zero =>
    rw [Nat.pow_zero, Nat.mod_one]
    rfl
  | succ count ih => rw [ofNat, toNat, ih, UInt8.toNat_ofNat', Nat.mod_mod, Nat.pow_succ', Nat.mod_mul]

/-- Bytes come back from their number. -/
theorem ofNat_toNat (bytes : List UInt8) : ofNat bytes.length (toNat bytes) = bytes := by
  induction bytes with
  | nil => rfl
  | cons b bytes ih =>
    have lt := b.toNat_lt
    have low : (b.toNat + 256 * toNat bytes) % 256 = b.toNat := by omega
    have high : (b.toNat + 256 * toNat bytes) / 256 = toNat bytes := by omega
    rw [List.length_cons, toNat, ofNat, low, high, ih, UInt8.ofNat_toNat]

/-- The number of some bytes is below the limit for so many of them. -/
theorem toNat_lt (bytes : List UInt8) : toNat bytes < 256 ^ bytes.length := by
  induction bytes with
  | nil => exact Nat.one_pos
  | cons b bytes ih =>
    have lt := b.toNat_lt
    rw [List.length_cons, toNat, Nat.pow_succ]
    omega

@[simp] theorem ofNat_zero (count : Nat) : ofNat count 0 = List.replicate count 0 := by
  induction count with
  | zero => rfl
  | succ count ih =>
    rw [ofNat, Nat.zero_div, ih, List.replicate_succ]
    rfl

end Bytes

namespace ScalarType

/-- A pattern fits into the bytes of its type. -/
theorem pattern_lt (t : ScalarType) (v : t.Value) : t.pattern v < 256 ^ t.size := by
  cases t with
  | whole k =>
    have lt := v.bits.isLt
    cases k <;> exact lt
  | floating k =>
    have lt := v.bits.isLt
    cases k <;> exact lt
  | boolean => cases v <;> decide
  | char => exact UInt16.toNat_lt v
  | pointer => exact UInt64.toNat_lt v.address

/-- A scalar comes back from its pattern, the payload of a not-a-number included. -/
theorem ofPattern_pattern (t : ScalarType) (v : t.Value) : t.ofPattern (t.pattern v) = v := by
  cases t with
  | whole k => exact congrArg Whole.mk ((BitVec.ofNat_toNat _ _).trans (BitVec.setWidth_eq _))
  | floating k => exact congrArg Floating.mk ((BitVec.ofNat_toNat _ _).trans (BitVec.setWidth_eq _))
  | boolean => cases v <;> rfl
  | char => exact UInt16.ofNat_toNat
  | pointer => exact congrArg Pointer.mk UInt64.ofNat_toNat

/-- A pattern comes back from its scalar, but for a truth value, of which there are two patterns only. -/
theorem pattern_ofPattern (t : ScalarType) {n : Nat} (lt : n < 256 ^ t.size) :
    t.pattern (t.ofPattern n) = if t = .boolean ∧ n ≠ 0 then 1 else n := by
  cases t with
  | whole k | floating k =>
    rw [if_neg fun h => nomatch h.1]
    cases k <;> exact Nat.mod_eq_of_lt lt
  | boolean =>
    show (n != 0).toNat = _
    by_cases zero : n = 0 <;> simp [zero]
  | char | pointer =>
    rw [if_neg fun h => nomatch h.1]
    exact Nat.mod_eq_of_lt lt

end ScalarType

namespace RecordType

/-! ### One record -/

/-- The number of bytes of a list whose items take the same number each. -/
theorem length_flatMap_of_length {α : Type} {encode : α → List UInt8} {size : Nat}
    (length_eq : ∀ a, (encode a).length = size) (items : List α) :
    (items.flatMap encode).length = items.length * size := by
  induction items with
  | nil => exact (Nat.zero_mul size).symm
  | cons a items ih =>
    rw [List.flatMap_cons, List.length_append, length_eq, ih, List.length_cons, Nat.succ_mul, Nat.add_comm]

/-- A record has the size of its type. -/
@[simp] theorem length_encode (r : RecordType) (v : r.Value) : (r.encode v).length = r.size := by
  induction r with
  | scalar t => exact Bytes.length_ofNat _ _
  | array element count ih => rw [encode, length_flatMap_of_length ih, v.length_items, size, Nat.mul_comm]

/-- Items that each come back from their bytes come back one after another, whatever follows them. -/
theorem decodeItems?_flatMap_append {α : Type} {decode? : List UInt8 → Option α} {encode : α → List UInt8}
    {size : Nat} (length_eq : ∀ a, (encode a).length = size) (back : ∀ a, decode? (encode a) = some a)
    {count : Nat} (a : FixedArray α count) (rest : List UInt8) :
    decodeItems? decode? size count (a.items.flatMap encode ++ rest) = some a := by
  obtain ⟨items, rfl⟩ := a
  -- each item takes the bytes of its size, and leaves the others
  induction items with
  | nil => rfl
  | cons item items ih =>
    show decodeItems? decode? size (items.length + 1) ((item :: items).flatMap encode ++ rest) = _
    rw [decodeItems?, List.flatMap_cons, List.append_assoc, List.take_left' (length_eq item),
      List.drop_left' (length_eq item), back, ih]
    rfl

/-- **A record comes back from its bytes**, whatever follows them. -/
theorem decode?_encode_append (r : RecordType) (v : r.Value) (rest : List UInt8) :
    r.decode? (r.encode v ++ rest) = some v := by
  induction r generalizing rest with
  | scalar t =>
    have enough : t.size ≤ (Bytes.ofNat t.size (t.pattern v) ++ rest).length := by simp
    rw [encode, decode?, if_pos enough, List.take_left' (Bytes.length_ofNat _ _), Bytes.toNat_ofNat,
      Nat.mod_eq_of_lt (t.pattern_lt v), t.ofPattern_pattern]
  | array element count ih =>
    refine decodeItems?_flatMap_append element.length_encode (fun a => ?_) v rest
    simpa using ih a []

/-- Items are read if there are bytes enough for all of them. -/
theorem isSome_decodeItems? {α : Type} {decode? : List UInt8 → Option α} {size : Nat}
    (h : ∀ bytes, (decode? bytes).isSome = true ↔ size ≤ bytes.length) (count : Nat) (bytes : List UInt8) :
    (decodeItems? decode? size count bytes).isSome = true ↔ size * count ≤ bytes.length := by
  induction count generalizing bytes with
  | zero => simp [decodeItems?]
  | succ count ih =>
    -- the first item has enough bytes, and the others have enough of what is left
    have first := h (bytes.take size)
    have others := ih (bytes.drop size)
    rw [List.length_take] at first
    rw [List.length_drop] at others
    rw [decodeItems?, Nat.mul_succ]
    cases item : decode? (bytes.take size) with
    | none =>
      simp [item] at first ⊢
      omega
    | some item =>
      cases rest : decodeItems? decode? size count (bytes.drop size) with
      | none | some rest =>
        simp_all
        omega

/-- Bytes hold a record exactly if there are enough of them. -/
theorem isSome_decode? (r : RecordType) (bytes : List UInt8) :
    (r.decode? bytes).isSome = true ↔ r.size ≤ bytes.length := by
  induction r generalizing bytes with
  | scalar t =>
    unfold decode? size
    split <;> simp_all
  | array element count ih => exact isSome_decodeItems? ih count bytes

/-! ### The record of zero bytes -/

/-- The record of zero bytes. -/
def zero : (r : RecordType) → r.Value
  | scalar t => t.ofPattern 0
  | array element count => .replicate count element.zero

/-- The record of zero bytes is encoded as them. -/
@[simp] theorem encode_zero (r : RecordType) : r.encode r.zero = List.replicate r.size 0 := by
  induction r with
  | scalar t =>
    rw [zero, encode, t.pattern_ofPattern (Nat.pow_pos (by decide)), if_neg fun h => h.2 rfl, Bytes.ofNat_zero, size]
  | array element count ih =>
    show (List.replicate count element.zero).flatMap element.encode = List.replicate (element.size * count) 0
    rw [List.flatMap_replicate, ih, List.flatten_replicate_replicate, Nat.mul_comm]

/-! ### Lists of records -/

/-- The bytes of records one after the other. -/
def encodeAll (r : RecordType) (records : List r.Value) : List UInt8 := records.flatMap r.encode

variable (r : RecordType) (x y : List r.Value) (n : Nat)

/-- Records take as many bytes as all of them have together. -/
@[simp] theorem length_encodeAll : (r.encodeAll x).length = x.length * r.size :=
  length_flatMap_of_length r.length_encode x

@[simp] theorem encodeAll_nil : r.encodeAll [] = [] := rfl

@[simp] theorem encodeAll_cons (value : r.Value) :
    r.encodeAll (value :: x) = r.encode value ++ r.encodeAll x := rfl

/-- Records behind records are their bytes behind the bytes. -/
theorem encodeAll_append : r.encodeAll (x ++ y) = r.encodeAll x ++ r.encodeAll y :=
  List.flatMap_append

/-- Zero records are zero bytes. -/
theorem encodeAll_replicate_zero : r.encodeAll (List.replicate n r.zero) = List.replicate (n * r.size) 0 := by
  rw [encodeAll, List.flatMap_replicate, encode_zero, List.flatten_replicate_replicate]

/-- **The bytes of records are cut where the records are.** -/
theorem cut_encodeAll :
    (r.encodeAll x).take (n * r.size) = r.encodeAll (x.take n) ∧
      (r.encodeAll x).drop (n * r.size) = r.encodeAll (x.drop n) := by
  -- beyond the end there is nothing to cut
  rcases Nat.le_total n x.length with le | le
  · have front : (r.encodeAll (x.take n)).length = n * r.size := by
      rw [length_encodeAll, List.length_take, Nat.min_eq_left le]
    have split : r.encodeAll x = r.encodeAll (x.take n) ++ r.encodeAll (x.drop n) := by
      rw [← encodeAll_append, List.take_append_drop]
    rw [split]
    exact ⟨List.take_left' front, List.drop_left' front⟩
  · have all : (r.encodeAll x).length ≤ n * r.size := by
      rw [length_encodeAll]
      exact Nat.mul_le_mul_right r.size le
    rw [List.take_of_length_le le, List.take_of_length_le all, List.drop_of_length_le le,
      List.drop_of_length_le all]
    exact ⟨rfl, rfl⟩

/-- The bytes of the first records. -/
theorem take_encodeAll : (r.encodeAll x).take (n * r.size) = r.encodeAll (x.take n) := (r.cut_encodeAll x n).1

/-- The bytes of the records behind them. -/
theorem drop_encodeAll : (r.encodeAll x).drop (n * r.size) = r.encodeAll (x.drop n) := (r.cut_encodeAll x n).2

end RecordType

end SystemUnit
