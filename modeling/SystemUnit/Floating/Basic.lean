namespace SystemUnit

/-!
# Floating-point numbers as bit patterns

A `Floating k` is the bit pattern of a binary floating-point number, so that the payload of a
not-a-number is kept.  What a pattern stands for is its sign and its `Magnitude`.  Main definitions:

* `FloatingKind` — the kinds, by precision and exponent width; `extended` is stored like `double`;
* `Floating.magnitude` — a pattern as `mantissa * 2 ^ exponent`, infinity or not-a-number;
* `Floating.nearest` — the number of a kind nearest to a fraction, ties to the even mantissa.
-/

/-- The three real types. -/
inductive FloatingKind where
  | single
  | double
  | extended
  deriving DecidableEq

namespace FloatingKind

/-- Digits of the mantissa in base two, the leading one included. -/
def precision : FloatingKind → Nat
  | single => 24
  | double => 53
  | extended => 53

/-- Width of the exponent field. -/
def exponentWidth : FloatingKind → Nat
  | single => 8
  | double => 11
  | extended => 11

/-- Width in bits: the sign, the exponent field and the mantissa without its leading one. -/
def width (k : FloatingKind) : Nat :=
  k.exponentWidth + k.precision

/-- How many exponent fields there are. -/
def exponentCount (k : FloatingKind) : Nat :=
  Nat.pow 2 k.exponentWidth

/-- The weight of the leading one of a mantissa. -/
def leadingOne (k : FloatingKind) : Nat :=
  Nat.pow 2 (k.precision - 1)

/-- The weight of the sign in a pattern. -/
def signWeight (k : FloatingKind) : Nat :=
  Nat.pow 2 (k.width - 1)

/-- The exponent of the last mantissa place of the least numbers. -/
def leastExponent (k : FloatingKind) : Int :=
  3 - (k.exponentCount / 2 : Nat) - k.precision

/-- The pattern of infinity without its sign: an exponent field of ones. -/
def infinity (k : FloatingKind) : Nat :=
  (k.exponentCount - 1) * k.leadingOne

end FloatingKind

/-- What a pattern without its sign stands for. -/
inductive Magnitude where
  | finite (mantissa : Nat) (exponent : Int)
  | infinite
  | notANumber
  deriving DecidableEq

/-- A floating-point number of kind `k`. -/
@[ext] structure Floating (k : FloatingKind) where
  bits : BitVec k.width
  deriving DecidableEq

namespace Floating

variable {k : FloatingKind}

/-- Whether the sign bit is set. -/
def isNegative (a : Floating k) : Bool :=
  a.bits.msb

/-- The exponent field. -/
def exponentField (a : Floating k) : Nat :=
  a.bits.toNat / k.leadingOne % k.exponentCount

/-- The mantissa field, which leaves out the leading one. -/
def mantissaField (a : Floating k) : Nat :=
  a.bits.toNat % k.leadingOne

/-- A pattern without its sign: an exponent field of zero has no leading one, a field of ones is not
    finite. -/
def magnitude (a : Floating k) : Magnitude :=
  let e := a.exponentField
  let m := a.mantissaField
  if e = 0 then .finite m k.leastExponent
  else if e = k.exponentCount - 1 then
    if m = 0 then .infinite else .notANumber
  else .finite (k.leadingOne + m) (k.leastExponent + (e - 1))

/-- Whether the pattern stands for no number. -/
def isNaN (a : Floating k) : Bool :=
  a.magnitude = .notANumber

/-- Whether the number is finite. -/
def isFinite (a : Floating k) : Bool :=
  match a.magnitude with
  | .finite _ _ => true
  | _ => false

/-- A pattern from its sign and the pattern without sign. -/
def ofSign (k : FloatingKind) (negative : Bool) (pattern : Nat) : Floating k :=
  ⟨BitVec.ofNat k.width ((if negative then k.signWeight else 0) + pattern)⟩

/-- Positive zero. -/
def zero (k : FloatingKind) : Floating k :=
  ofSign k false 0

instance : Inhabited (Floating k) := ⟨zero k⟩

/-- Infinity of either sign. -/
def infinity (k : FloatingKind) (negative : Bool) : Floating k :=
  ofSign k negative k.infinity

/-- The quiet not-a-number without sign and payload. -/
def notANumber (k : FloatingKind) : Floating k :=
  ofSign k false (k.infinity + k.leadingOne / 2)

/-- The same pattern with the sign bit flipped. -/
def neg (a : Floating k) : Floating k :=
  ⟨a.bits ^^^ BitVec.ofNat k.width k.signWeight⟩

/-- The same pattern with the sign bit cleared. -/
def abs (a : Floating k) : Floating k :=
  ⟨a.bits &&& BitVec.ofNat k.width (k.signWeight - 1)⟩

/-! ### Rounding -/

/-- `num / den` rounded to the nearest natural number, a tie to the even one. -/
def roundEven (num den : Nat) : Nat :=
  let quotient := num / den
  let twice := 2 * (num % den)
  if twice < den ∨ twice = den ∧ quotient % 2 = 0 then quotient else quotient + 1

/-- The fraction `num * 2 ^ shift / den` as a numerator and a denominator. -/
def scale (num den : Nat) (shift : Int) : Nat × Nat :=
  if 0 ≤ shift then (num * Nat.pow 2 shift.toNat, den) else (num, den * Nat.pow 2 (-shift).toNat)

/-- The exponent for which the mantissa of `num / den` has the kind's precision, or the least one. -/
def exponentFor (k : FloatingKind) (num den : Nat) : Int :=
  let low : Int := (num.log2 : Int) - den.log2 - k.precision
  let (n, d) := scale num den (-low)
  let exact := if n / d < 2 * k.leadingOne then low else low + 1
  max exact k.leastExponent

/-- The pattern without sign of the number nearest to `num / den`: a mantissa that rounds up to the next
    power of two carries into the exponent field, and what is too large is infinity. -/
def nearestPattern (k : FloatingKind) (num den : Nat) : Nat :=
  if num = 0 then 0
  else
    let e := exponentFor k num den
    let (n, d) := scale num den (-e)
    min ((e - k.leastExponent).toNat * k.leadingOne + roundEven n d) k.infinity

/-- The number nearest to `num / den` in size, with the given sign. -/
def nearest (k : FloatingKind) (negative : Bool) (num den : Nat) : Floating k :=
  ofSign k negative (nearestPattern k num den)

/-- The number nearest to an integer. -/
def ofInt (k : FloatingKind) (n : Int) : Floating k :=
  nearest k (n < 0) n.natAbs 1

/-- The number nearest to `digits * 10 ^ exponent`.  Far outside the range of every kind the power is
    not computed: such a number is infinite or zero. -/
def ofDecimal (k : FloatingKind) (negative : Bool) (digits : Nat) (exponent : Int) : Floating k :=
  let size : Int := digits.log2
  if digits = 0 then ofSign k negative 0
  else if exponent > 400 then infinity k negative
  else if 3 * exponent + size < -1200 then ofSign k negative 0
  else if 0 ≤ exponent then nearest k negative (digits * Nat.pow 10 exponent.toNat) 1
  else nearest k negative digits (Nat.pow 10 (-exponent).toNat)

/-! ### Integral parts -/

/-- The integral part toward zero; none for infinity and not-a-number. -/
def truncate? (a : Floating k) : Option Int :=
  match a.magnitude with
  | .finite m e =>
    let (n, d) := scale m 1 e
    some (if a.isNegative then -((n / d : Nat) : Int) else (n / d : Nat))
  | _ => none

/-- The nearest integer, a half away from zero; none for infinity and not-a-number. -/
def roundAway? (a : Floating k) : Option Int :=
  match a.magnitude with
  | .finite m e =>
    let (n, d) := scale m 1 e
    let r := (2 * n + d) / (2 * d)
    some (if a.isNegative then -(r : Int) else r)
  | _ => none

end Floating

end SystemUnit
