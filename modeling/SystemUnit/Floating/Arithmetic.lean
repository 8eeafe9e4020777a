import SystemUnit.Floating.Basic

namespace SystemUnit

/-!
# Floating-point arithmetic

Every operation is computed in double precision and rounded once more to the kind.  For a single-precision
sum, difference, product or quotient the second rounding changes nothing, because the double mantissa has
more than twice as many digits.  Main definitions:

* `Floating.toFloat`, `Floating.ofFloat` — widening to double precision and rounding back;
* `Floating.convert` — the same number in another kind;
* `Floating.compare?` — the order, in which not-a-number has no place.
-/

namespace Floating

variable {k : FloatingKind}

/-- The number in double precision. -/
def toFloat (a : Floating k) : Float :=
  match k, a with
  | .single, a => (Float32.ofBits (UInt32.ofNat a.bits.toNat)).toFloat
  | .double, a => Float.ofBits (UInt64.ofNat a.bits.toNat)
  | .extended, a => Float.ofBits (UInt64.ofNat a.bits.toNat)

/-- The number of kind `k` nearest to a double-precision number. -/
def ofFloat (k : FloatingKind) (x : Float) : Floating k :=
  match k with
  | .single => ⟨BitVec.ofNat _ x.toFloat32.toBits.toNat⟩
  | .double => ⟨BitVec.ofNat _ x.toBits.toNat⟩
  | .extended => ⟨BitVec.ofNat _ x.toBits.toNat⟩

/-- The number in another kind; a kind of the same width keeps the pattern. -/
def convert (a : Floating k) (target : FloatingKind) : Floating target :=
  if k.width = target.width then ⟨BitVec.ofNat _ a.bits.toNat⟩ else ofFloat target a.toFloat

/-- Applies a double-precision function. -/
def map (f : Float → Float) (a : Floating k) : Floating k :=
  ofFloat k (f a.toFloat)

/-- Applies a double-precision function of two numbers. -/
def map₂ (f : Float → Float → Float) (a b : Floating k) : Floating k :=
  ofFloat k (f a.toFloat b.toFloat)

instance : Add (Floating k) := ⟨map₂ (· + ·)⟩

instance : Sub (Floating k) := ⟨map₂ (· - ·)⟩

instance : Mul (Floating k) := ⟨map₂ (· * ·)⟩

instance : Div (Floating k) := ⟨map₂ (· / ·)⟩

instance : Neg (Floating k) := ⟨neg⟩

/-- The order of two numbers: zeros of both signs are equal, and not-a-number is unordered. -/
def compare? (a b : Floating k) : Option Ordering :=
  let x := a.toFloat
  let y := b.toFloat
  if x < y then some .lt
  else if y < x then some .gt
  else if x == y then some .eq
  else none

/-- -1, 0 or 1; not-a-number counts as zero. -/
def sign (a : Floating k) : Int :=
  let x := a.toFloat
  if x > 0 then 1 else if x < 0 then -1 else 0

end Floating

end SystemUnit
