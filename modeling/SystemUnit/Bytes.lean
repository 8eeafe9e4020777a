import SystemUnit.Numeral.Digits

namespace SystemUnit

/-!
# Bytes

Natural numbers as bytes, the byte of least weight first, and bytes as text.  Main definitions:

* `Bytes.ofNat` — the low bytes of a number;
* `Bytes.toNat` — the number of a list of bytes;
* `Bytes.hex`, `Bytes.ofHex?` — bytes as pairs of digits in base sixteen, and back.
-/

namespace Bytes

/-- The `count` low bytes of a number. -/
def ofNat : Nat → Nat → List UInt8
  | 0, _ => []
  | count + 1, n => UInt8.ofNat (n % 256) :: ofNat count (n / 256)

/-- The number of a list of bytes. -/
def toNat : List UInt8 → Nat
  | [] => 0
  | b :: rest => b.toNat + 256 * toNat rest

@[simp] theorem length_ofNat (count n : Nat) : (ofNat count n).length = count := by
  induction count generalizing n with
  | zero => rfl
  | succ count ih => simp [ofNat, ih]

/-- The byte of least weight stands before those of the number without it. -/
theorem ofNat_succ (count n : Nat) : ofNat (count + 1) n = UInt8.ofNat n :: ofNat count (n / 256) := by
  rw [ofNat, UInt8.ofNat_mod_size]

/-! ### Pairs of digits -/

/-- Two digits for each byte, that of greater weight first. -/
def hex (bytes : List UInt8) : List Char :=
  bytes.flatMap fun b => [Digits.char false (b.toNat / 16), Digits.char false (b.toNat % 16)]

/-- The bytes of pairs of digits. -/
def ofHex? : List Char → Option (List UInt8)
  | [] => some []
  | [_] => none
  | a :: b :: rest => do
    let n ← Digits.read? 16 [a, b]
    return UInt8.ofNat n :: (← ofHex? rest)

/-- Two digits read as the byte that they were written for. -/
theorem read?_pair (b : UInt8) :
    Digits.read? 16 [Digits.char false (b.toNat / 16), Digits.char false (b.toNat % 16)] = some b.toNat := by
  have all : ∀ n < 256,
      Digits.read? 16 [Digits.char false (n / 16), Digits.char false (n % 16)] = some n := by
    decide +kernel
  exact all _ b.toNat_lt

@[simp] theorem ofHex?_hex (bytes : List UInt8) : ofHex? (hex bytes) = some bytes := by
  induction bytes with
  | nil => rfl
  | cons b rest ih =>
    have step : hex (b :: rest) =
        Digits.char false (b.toNat / 16) :: Digits.char false (b.toNat % 16) :: hex rest := rfl
    rw [step, ofHex?, read?_pair, ih]
    simp

end Bytes

end SystemUnit
