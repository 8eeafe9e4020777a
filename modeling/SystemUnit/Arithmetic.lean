import SystemUnit.Scalar.Promotion
import SystemUnit.Fault

namespace SystemUnit

/-!
# Arithmetic with faults

Operations that have no result for some operands, and least and greatest values.  Main definitions:

* `Whole.div`, `Whole.mod` — truncating division, which fails for a divisor of zero;
* `Floating.trunc`, `Floating.round` — an integral number as an integer of a kind, which fails if it does not fit;
* `CodeUnit.ofSingle` — a character as one code unit, which fails outside the basic plane;
* `Scalar.succ?`, `Scalar.pred?` — the neighbours of a value;
* `Scalar.min`, `Scalar.max` — the lesser and the greater of two values.
-/

namespace Whole

variable {k : WholeKind}

/-- The quotient truncated toward zero. -/
def div (a b : Whole k) : Except Fault (Whole k) :=
  if b.toInt = 0 then .error .divisionByZero else .ok (a.quotient b)

/-- The remainder of truncating division. -/
def mod (a b : Whole k) : Except Fault (Whole k) :=
  if b.toInt = 0 then .error .divisionByZero else .ok (a.remainder b)

end Whole

namespace Floating

variable {k : FloatingKind}

/-- An integral number as an integer of a kind; a fault if there is none or if it does not fit. -/
def fit (target : WholeKind) : Option Int → Except Fault (Whole target)
  | some n =>
    if target.least ≤ n ∧ n ≤ target.greatest then .ok (Whole.ofInt target n) else .error .noInteger
  | none => .error .noInteger

/-- The integral part toward zero. -/
def trunc (target : WholeKind) (a : Floating k) : Except Fault (Whole target) := fit target a.truncate?

/-- The nearest integer, a half away from zero. -/
def round (target : WholeKind) (a : Floating k) : Except Fault (Whole target) := fit target a.roundAway?

end Floating

/-- The one code unit of a character; a fault if it needs two. -/
def CodeUnit.ofSingle (c : Char) : Except Fault CodeUnit :=
  match CodeUnit.ofChar? c with
  | some u => .ok u
  | none => .error (.noCodeUnit c)

namespace Scalar

/-- The next value of an ordinal type; after the last one comes the first. -/
def succ? : Scalar → Option Scalar
  | ⟨.whole _, a⟩ => some (whole a.succ)
  | ⟨.boolean, b⟩ => some (boolean !b)
  | ⟨.char, c⟩ => some (char (c + 1))
  | ⟨.floating _, _⟩ => none
  | ⟨.pointer, _⟩ => none

/-- The value of an ordinal type before another; before the first one comes the last. -/
def pred? : Scalar → Option Scalar
  | ⟨.whole _, a⟩ => some (whole a.pred)
  | ⟨.boolean, b⟩ => some (boolean !b)
  | ⟨.char, c⟩ => some (char (c - 1))
  | ⟨.floating _, _⟩ => none
  | ⟨.pointer, _⟩ => none

/-- The order of two values of one type; none for values of two types and for not-a-number. -/
def compare? : Scalar → Scalar → Option Ordering
  | ⟨.whole _, a⟩, ⟨.whole _, b⟩ => some (Ord.compare a.toInt b.toInt)
  | ⟨.floating k, a⟩, ⟨.floating j, b⟩ => if h : j = k then a.compare? (h ▸ b : Floating k) else none
  | ⟨.boolean, a⟩, ⟨.boolean, b⟩ => some (Ord.compare a.toNat b.toNat)
  | ⟨.char, a⟩, ⟨.char, b⟩ => some (Ord.compare a b)
  | ⟨.pointer, a⟩, ⟨.pointer, b⟩ => some (a.compare b)
  | _, _ => none

/-- The second value if it is less than the first, else the first. -/
def min (a b : Scalar) : Scalar :=
  if b.compare? a = some .lt then b else a

/-- The second value if it is greater than the first, else the first. -/
def max (a b : Scalar) : Scalar :=
  if b.compare? a = some .gt then b else a

end Scalar

end SystemUnit
